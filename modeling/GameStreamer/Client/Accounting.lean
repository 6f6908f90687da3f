import GameStreamer.Client.ReassemblyRun

/-!
# Where every opened assembly is

An assembly that was opened is still pending, or its frame is held or released,
or it was counted as dropped.  This module proves the balance for every run of
shards, together with the bounds on what waits: no more assemblies than the
limit, and no more held frames than may wait behind the head of the queue.
-/

namespace GameStreamer

open Reassembler

/-- A run, with the number of assemblies that it opened. -/
structure Ledger where
  playback : Playback
  opened : ℕ

namespace Ledger

def start : Ledger := ⟨Playback.start, 0⟩

/-- A shard opens an assembly if its frame has none yet; one that is restarted
in place is no new one. -/
def step (ledger : Ledger) (shard : Shard) : Ledger where
  playback := ledger.playback.step shard
  opened :=
    if ledger.playback.reassembler.skips shard.header.frameId ∨
        shard.header.frameId ∈ ledger.playback.reassembler.pending then
      ledger.opened
    else ledger.opened + 1

/-- The state after a list of shards. -/
def after (shards : List Shard) : Ledger := shards.foldl step start

end Ledger

namespace Reassembler

/-- The opened assemblies are pending, held, released or dropped; and a frame
that was recovered from parity is released or held. -/
structure Balanced (opened : ℕ) (reassembler : Reassembler)
    (log : List CompletedFrame) : Prop where
  balance : opened = reassembler.pending.keys.length +
    reassembler.held.length + log.length + reassembler.dropped
  recovered : reassembler.recovered ≤ log.length + reassembler.held.length

variable {opened : ℕ} {reassembler : Reassembler} {log : List CompletedFrame}

/-- What is pruned is counted. -/
theorem dropped_pruneOlderThan (reassembler : Reassembler)
    (completed : UInt32) :
    (reassembler.pruneOlderThan completed).pending.keys.length +
        (reassembler.pruneOlderThan completed).dropped =
      reassembler.pending.keys.length + reassembler.dropped := by
  have hle := List.length_filter_le
    (fun entry : Sigma fun _ : UInt32 => Pending => ¬older entry.1 completed)
    reassembler.pending.entries
  simp only [pruneOlderThan, AList.keys, List.keys, List.length_map]
  omega

theorem Balanced.release (h : Balanced opened reassembler log)
    {head : CompletedFrame} {rest : List CompletedFrame}
    (hheld : reassembler.held = head :: rest) :
    Balanced opened (reassembler.release head rest) (log ++ [head]) := by
  have hpruned := dropped_pruneOlderThan
    { reassembler with latestDelivered := some head.frameId } head.frameId
  dsimp only at hpruned
  have hbalance := h.balance
  have hrecovered := h.recovered
  rw [hheld, List.length_cons] at hbalance hrecovered
  constructor
  · change opened = (pruneOlderThan _ _).pending.keys.length + rest.length +
      (log ++ [head]).length + (pruneOlderThan _ _).dropped
    rw [List.length_append, List.length_singleton]
    omega
  · change reassembler.recovered ≤ (log ++ [head]).length + rest.length
    rw [List.length_append, List.length_singleton]
    omega

theorem length_keys_opened (reassembler : Reassembler) (shard : Shard) :
    (reassembler.opened shard).pending.keys.length =
      if shard.header.frameId ∈ reassembler.pending then
        reassembler.pending.keys.length
      else reassembler.pending.keys.length + 1 := by
  rw [keys_opened, List.length_cons]
  split_ifs with hmem
  · exact List.length_erase_add_one hmem
  · rw [List.erase_of_not_mem hmem]

theorem length_keys_closed (reassembler : Reassembler) (shard : Shard) :
    (reassembler.closed shard).pending.keys.length + 1 =
      (reassembler.opened shard).pending.keys.length := by
  rw [keys_closed, keys_opened, List.length_cons]

theorem Balanced.settled (h : Balanced opened reassembler log)
    {shard : Shard} {next : Reassembler}
    (hnext : Settled reassembler shard next) :
    Balanced
      (if shard.header.frameId ∈ reassembler.pending then opened
        else opened + 1) next log := by
  have hopened : (if shard.header.frameId ∈ reassembler.pending then opened
        else opened + 1) = (reassembler.opened shard).pending.keys.length +
      reassembler.held.length + log.length + reassembler.dropped := by
    have hbalance := h.balance
    rw [length_keys_opened]
    split_ifs <;> omega
  have hclosed := length_keys_closed reassembler shard
  have hrecovered := h.recovered
  rw [hopened]
  cases hnext with
  | waiting hopen hroom => exact ⟨rfl, hrecovered⟩
  | evicting hopen hfull holdest =>
      refine ⟨?_, hrecovered⟩
      have herase := List.length_erase_add_one
        (mem_keys_of_oldestPending holdest)
      rw [← AList.keys_erase] at herase
      change _ = ((reassembler.opened shard).pending.erase _).keys.length +
        reassembler.held.length + log.length + (reassembler.dropped + 1)
      omega
  | @completing hcomplete data hdata =>
      have hheld := (perm_held_hold
        { reassembler.closed shard with
          recovered := reassembler.recovered +
            if (reassembler.assembly shard).receivedData =
              (reassembler.assembly shard).dataCount then 0 else 1 }
        (completed shard data)).length_eq
      rw [List.length_cons] at hheld
      change _ = reassembler.held.length + 1 at hheld
      constructor
      · change _ = (reassembler.closed shard).pending.keys.length +
          (hold _ _).held.length + log.length + reassembler.dropped
        omega
      · change reassembler.recovered + _ ≤ log.length + (hold _ _).held.length
        rw [hheld]
        split_ifs <;> omega
  | failing hcomplete hdata =>
      refine ⟨?_, hrecovered⟩
      change _ = (reassembler.closed shard).pending.keys.length +
        reassembler.held.length + log.length + (reassembler.dropped + 1)
      omega

/-- What waits after a push: few assemblies, few frames, and those only
behind something older. -/
structure Bounded (reassembler : Reassembler) : Prop where
  pending : reassembler.pending.keys.length ≤ maxPending
  held : reassembler.held.length ≤ holdLimit
  head : ∀ head ∈ reassembler.held.head?,
    head.kind ≠ .idr ∧ reassembler.Blocked head

theorem bounded_new : Bounded new := ⟨Nat.zero_le _, Nat.zero_le _, nofun⟩

theorem pending_settled (h : reassembler.pending.keys.length ≤ maxPending)
    {shard : Shard} {next : Reassembler}
    (hnext : Settled reassembler shard next) :
    next.pending.keys.length ≤ maxPending := by
  have hopened : (reassembler.opened shard).pending.keys.length ≤
      maxPending + 1 := by
    rw [length_keys_opened]
    split_ifs <;> omega
  have hclosed := length_keys_closed reassembler shard
  cases hnext with
  | waiting hopen hroom => exact hroom
  | evicting hopen hfull holdest =>
      have herase := List.length_erase_add_one
        (mem_keys_of_oldestPending holdest)
      rw [← AList.keys_erase] at herase
      change ((reassembler.opened shard).pending.erase _).keys.length ≤ _
      omega
  | completing hcomplete hdata =>
      change (reassembler.closed shard).pending.keys.length ≤ _
      omega
  | failing hcomplete hdata =>
      change (reassembler.closed shard).pending.keys.length ≤ _
      omega

theorem pending_release (h : reassembler.pending.keys.length ≤ maxPending)
    (head : CompletedFrame) (rest : List CompletedFrame) :
    (reassembler.release head rest).pending.keys.length ≤ maxPending := by
  rw [keys_release]
  exact (List.length_filter_le _ _).trans h

theorem bounded_drain (h : reassembler.pending.keys.length ≤ maxPending) :
    Bounded reassembler.drain.1 := by
  have hblocked := blocked_drain reassembler
  constructor
  · exact @drain_rule
      (fun reassembler _ => reassembler.pending.keys.length ≤ maxPending)
      (fun _ head rest _ _ _ h => pending_release h head rest) reassembler [] h
  · cases hheld : reassembler.drain.1.held with
    | nil => exact Nat.zero_le _
    | cons head rest =>
        obtain ⟨-, hfree⟩ := hblocked head (by rw [hheld]; rfl)
        rw [← hheld]
        exact Nat.not_lt.mp fun hlong => hfree (Or.inr hlong)
  · intro head hhead
    obtain ⟨hwaits, hfree⟩ := hblocked head hhead
    exact ⟨fun hidr => hfree (Or.inl hidr), hwaits⟩

end Reassembler

namespace Ledger

/-- Everything is accounted for and within its bounds.  This is the invariant
of the run of a reassembler, kept by every push. -/
structure Sound (ledger : Ledger) : Prop where
  balanced : Balanced ledger.opened ledger.playback.reassembler
    ledger.playback.released
  bounded : Bounded ledger.playback.reassembler

theorem Sound.step {ledger : Ledger} (h : ledger.Sound) (shard : Shard) :
    (ledger.step shard).Sound := by
  by_cases hskips : ledger.playback.reassembler.skips shard.header.frameId
  · rw [Ledger.step, Playback.step_of_skips hskips, if_pos (Or.inl hskips)]
    exact h
  · have hsettled := settled_settle ledger.playback.reassembler shard
    rw [Ledger.step, Playback.step_of_settles hskips]
    constructor
    · simp only [hskips, Bool.false_eq_true, false_or]
      exact drain_rule (fun _ _ _ _ hheld _ h => h.release hheld)
        (h.balanced.settled hsettled)
    · exact bounded_drain (pending_settled h.bounded.pending hsettled)

/-- No assembly is ever unaccounted for.  After every push the opened
assemblies are the pending, held, released and dropped ones, and no more than
the limits allow are pending or held. -/
theorem sound_after (shards : List Shard) : (after shards).Sound :=
  EventRun.foldl_preserves (fun _ shard h => h.step shard) shards
    ⟨⟨rfl, Nat.zero_le _⟩, bounded_new⟩

end Ledger

end GameStreamer
