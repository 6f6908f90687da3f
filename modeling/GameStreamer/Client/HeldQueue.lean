import GameStreamer.Client.Eviction
import GameStreamer.Client.HeldIdr

/-!
# Which held frames go out

A push puts a completed frame into the held queue, or opens, fills or evicts an
assembly, and then lets frames go out from the head of the queue.  Each frame
that goes out gives up the assemblies that are older than it, so a frame waits
only for what no frame in front of it was newer than.

This module says which places of the queue go out without running the drain:
on the queue and on the assemblies that are missing, which are both read off
the state before the push.  The drain then releases exactly these places.
-/

namespace GameStreamer.Reassembler

/-- A pending assembly under its frame id. -/
abbrev Entry : Type := Sigma fun _ : UInt32 => Pending

section Queue

variable (missing : List Entry) (queue : List CompletedFrame)

/-- Nothing keeps the frame at a place waiting once those in front of it are
out: it is an IDR, or too many frames are held from there on, or every assembly
that is older than it is older than a frame in front of it. -/
def Free (place : ℕ) : Prop :=
  ∀ frame ∈ queue[place]?,
    frame.kind = .idr ∨ holdLimit < (queue.drop place).length ∨
      ∀ entry ∈ missing, older entry.1 frame.frameId →
        ∃ earlier ∈ queue.take place, older entry.1 earlier.frameId

/-- A place goes out if neither it nor a place in front of it has to wait. -/
def GoesOut (place : ℕ) : Prop :=
  place < queue.length ∧ ∀ front ≤ place, Free missing queue front

/-- The assembly is older than no frame in front of the place that goes
out. -/
def Outlasts (place : ℕ) (entry : Entry) : Prop :=
  ∀ out < place, GoesOut missing queue out →
    ∀ earlier ∈ queue[out]?, ¬older entry.1 earlier.frameId

instance : DecidablePred (Free missing queue) := fun _ =>
  inferInstanceAs (Decidable (∀ _ ∈ queue[_]?, _))

instance : DecidablePred (GoesOut missing queue) := fun _ =>
  inferInstanceAs (Decidable (_ ∧ ∀ front ≤ _, Free missing queue front))

instance (place : ℕ) : DecidablePred (Outlasts missing queue place) := fun _ =>
  inferInstanceAs (Decidable (∀ out < place, _ → ∀ _ ∈ queue[out]?, _))

end Queue

/-- Only which assemblies are missing counts, not their order. -/
theorem goesOut_congr {missing others : List Entry}
    (h : ∀ entry, entry ∈ missing ↔ entry ∈ others)
    (queue : List CompletedFrame) (place : ℕ) :
    GoesOut missing queue place ↔ GoesOut others queue place := by
  simp only [GoesOut, Free, h]

section Drain

variable {reassembler : Reassembler} {head : CompletedFrame}
  {rest : List CompletedFrame}

theorem free_zero_iff {missing : List Entry} :
    Free missing (head :: rest) 0 ↔
      head.kind = .idr ∨ holdLimit < (head :: rest).length ∨
        ∀ entry ∈ missing, ¬older entry.1 head.frameId := by
  simp [Free]

/-- The head waits exactly when it is blocked and nothing forces it. -/
theorem free_head_iff (hheld : reassembler.held = head :: rest) :
    Free reassembler.pending.entries (head :: rest) 0 ↔
      ¬(reassembler.Blocked head ∧ ¬reassembler.Forced head) := by
  have hblocked : reassembler.Blocked head ↔
      ¬∀ entry ∈ reassembler.pending.entries,
        ¬older entry.1 head.frameId := by
    rw [Blocked, AList.keys, List.keys]
    simp only [List.mem_map, exists_exists_and_eq_and, not_forall, not_not,
      exists_prop]
  rw [free_zero_iff, Forced, hheld, hblocked]
  tauto

theorem entries_release :
    (reassembler.release head rest).pending.entries =
      reassembler.pending.entries.filter fun entry =>
        ¬older entry.1 head.frameId := rfl

/-- Behind the head, what is older than it is no longer missing. -/
theorem free_succ_iff {missing : List Entry} {place : ℕ} :
    Free missing (head :: rest) (place + 1) ↔
      Free (missing.filter fun entry => ¬older entry.1 head.frameId) rest
        place := by
  rw [Free, Free]
  simp only [List.getElem?_cons_succ, List.drop_succ_cons, List.take_succ_cons,
    List.mem_filter, decide_eq_true_eq, List.exists_mem_cons_iff]
  apply forall₂_congr
  intro frame _
  refine or_congr Iff.rfl (or_congr Iff.rfl ?_)
  apply forall_congr'
  intro entry
  tauto

theorem goesOut_succ_iff {missing : List Entry} {place : ℕ} :
    GoesOut missing (head :: rest) (place + 1) ↔
      Free missing (head :: rest) 0 ∧
        GoesOut (missing.filter fun entry => ¬older entry.1 head.frameId) rest
          place := by
  rw [GoesOut, GoesOut, List.length_cons, Nat.add_lt_add_iff_right]
  constructor
  · rintro ⟨hplace, hfree⟩
    refine ⟨hfree 0 (Nat.zero_le _), hplace, ?_⟩
    intro front hfront
    exact free_succ_iff.mp (hfree _ (Nat.succ_le_succ hfront))
  · rintro ⟨hhead, hplace, hfree⟩
    refine ⟨hplace, ?_⟩
    intro front hfront
    cases front with
    | zero => exact hhead
    | succ front =>
        exact free_succ_iff.mpr (hfree front (Nat.le_of_succ_le_succ hfront))

theorem goesOut_zero_iff {missing : List Entry} :
    GoesOut missing (head :: rest) 0 ↔ Free missing (head :: rest) 0 := by
  simp [GoesOut]

theorem not_older_take_zero {frames : List CompletedFrame} {id : UInt32} :
    ∀ earlier ∈ frames.take 0, ¬older id earlier.frameId := by
  rw [List.take_zero]
  exact List.forall_mem_nil _

/-- What draining does to a queue: its first places go out, and what is older
than one of them is given up. -/
structure Drained (missing : List Entry) (queue : List CompletedFrame)
    (after : Reassembler × List CompletedFrame) (released : ℕ) : Prop where
  out : after.2 = queue.take released
  held : after.1.held = queue.drop released
  goesOut : ∀ place, GoesOut missing queue place ↔ place < released
  pending : ∀ entry ∈ after.1.pending.entries,
    entry ∈ missing ∧
      ∀ earlier ∈ queue.take released, ¬older entry.1 earlier.frameId

theorem drained (reassembler : Reassembler) :
    ∃ released, Drained reassembler.pending.entries reassembler.held
      reassembler.drain released := by
  generalize hframes : reassembler.held = frames
  induction frames generalizing reassembler with
  | nil =>
      have hnil : reassembler.drain = (reassembler, []) := by
        rw [drain, hframes, drainFrom, ← hframes]
      refine ⟨0, ?_⟩
      rw [hnil]
      constructor
      case out => rfl
      case held => exact hframes
      case goesOut => simp [GoesOut]
      case pending => exact fun entry hentry => ⟨hentry, not_older_take_zero⟩
  | cons head rest ih =>
      by_cases hgoes : reassembler.Blocked head ∧ ¬reassembler.Forced head
      · have hwaits : ¬Free reassembler.pending.entries (head :: rest) 0 := by
          rw [free_head_iff hframes]
          exact not_not.mpr hgoes
        refine ⟨0, ?_⟩
        rw [drain_of_waits hframes hgoes.1 hgoes.2]
        constructor
        case out => rfl
        case held => exact hframes
        case goesOut =>
          intro place
          apply iff_of_false _ (Nat.not_lt_zero _)
          exact fun hout => hwaits (hout.2 0 (Nat.zero_le _))
        case pending => exact fun entry hentry => ⟨hentry, not_older_take_zero⟩
      · obtain ⟨released, hrest⟩ := ih (reassembler.release head rest) rfl
        refine ⟨released + 1, ?_⟩
        rw [drain_of_held_cons hframes hgoes]
        constructor
        case out =>
          rw [List.take_succ_cons]
          exact congrArg _ hrest.out
        case held =>
          rw [List.drop_succ_cons]
          exact hrest.held
        case goesOut =>
          have hhead := (free_head_iff hframes).mpr hgoes
          intro place
          cases place with
          | zero =>
              apply iff_of_true (goesOut_zero_iff.mpr hhead)
              exact Nat.succ_pos _
          | succ place =>
              rw [goesOut_succ_iff, and_iff_right hhead,
                Nat.add_lt_add_iff_right]
              exact hrest.goesOut place
        case pending =>
          intro entry hentry
          obtain ⟨hmem, hnewer⟩ := hrest.pending entry hentry
          rw [entries_release, List.mem_filter] at hmem
          refine ⟨hmem.1, ?_⟩
          rw [List.take_succ_cons, List.forall_mem_cons]
          exact ⟨by simpa using hmem.2, hnewer⟩

/-- A release is one of a place that goes out, and finds what outlasts the
places in front of it. -/
theorem goesOut_of_mem_releases {state : Reassembler}
    {frame : CompletedFrame}
    (h : (state, frame) ∈ reassembler.releases reassembler.held) :
    ∃ place, GoesOut reassembler.pending.entries reassembler.held place ∧
      reassembler.held[place]? = some frame ∧
      ∀ entry ∈ state.pending.entries,
        entry ∈ reassembler.pending.entries ∧
          ∀ earlier ∈ reassembler.held.take place,
            ¬older entry.1 earlier.frameId := by
  generalize hframes : reassembler.held = frames at h ⊢
  induction frames generalizing reassembler with
  | nil => cases h
  | cons head rest ih =>
      rw [releases] at h
      split_ifs at h with hwaits
      · cases h
      · have hhead := (free_head_iff hframes).mpr hwaits
        rcases List.mem_cons.mp h with heq | hlater
        · obtain ⟨rfl, rfl⟩ := Prod.mk.inj heq
          exact ⟨0, goesOut_zero_iff.mpr hhead, rfl,
            fun entry hentry => ⟨hentry, not_older_take_zero⟩⟩
        · obtain ⟨place, hgoes, hplace, hentries⟩ :=
            @ih (reassembler.release head rest) rfl hlater
          refine ⟨place + 1, goesOut_succ_iff.mpr ⟨hhead, hgoes⟩, hplace, ?_⟩
          intro entry hentry
          obtain ⟨hmem, hnewer⟩ := hentries entry hentry
          rw [entries_release, List.mem_filter] at hmem
          refine ⟨hmem.1, ?_⟩
          rw [List.take_succ_cons, List.forall_mem_cons]
          exact ⟨by simpa using hmem.2, hnewer⟩

end Drain

/-! ## What a push makes of the queue -/

section Push

variable (reassembler : Reassembler) (shard : Shard)

/-- The held frames, with the one that the shard completes in its place. -/
def queue : List CompletedFrame :=
  match if (reassembler.assembly shard).Complete
    then (reassembler.assembly shard).frameData else none with
  | some data =>
      reassembler.ahead shard.header.frameId ++ completed shard data ::
        reassembler.held.dropWhile fun other =>
          ¬older shard.header.frameId other.frameId
  | none => reassembler.held

/-- No pending assembly has a smaller id. -/
def Least (id : UInt32) : Prop := ∀ other ∈ reassembler.pending.keys, id ≤ other

instance : DecidablePred reassembler.Least := fun _ => List.decidableBAll _ _

/-- The pending assemblies with the shard's, except for that if it is complete,
and for the one with the least id if one is evicted. -/
def missing : List Entry :=
  (reassembler.opened shard).pending.entries.filter fun entry =>
    ¬((reassembler.assembly shard).Complete ∧
        entry.1 = shard.header.frameId) ∧
      ¬(reassembler.Evicts shard ∧ (reassembler.opened shard).Least entry.1)

end Push

variable {reassembler : Reassembler} {shard : Shard}

theorem held_settle : (reassembler.settle shard).held =
    reassembler.queue shard := by
  have hnext := settled_settle reassembler shard
  rw [queue]
  generalize reassembler.settle shard = next at hnext
  cases hnext with
  | waiting hopen _ => rw [if_neg hopen]; rfl
  | evicting hopen _ _ => rw [if_neg hopen]; rfl
  | completing hcomplete hdata =>
      rw [if_pos hcomplete, hdata]
      exact held_hold _ _
  | failing hcomplete hdata => rw [if_pos hcomplete, hdata]; rfl

/-- The queue is made up of the held frames and the completed one. -/
theorem mem_queue {frame : CompletedFrame} :
    frame ∈ reassembler.queue shard ↔
      frame ∈ reassembler.held ∨ (reassembler.assembly shard).Complete ∧
        ∃ data ∈ (reassembler.assembly shard).frameData,
          frame = completed shard data := by
  rw [queue]
  by_cases hcomplete : (reassembler.assembly shard).Complete
  · rw [if_pos hcomplete, and_iff_right hcomplete]
    cases (reassembler.assembly shard).frameData with
    | none => simp
    | some data =>
        have hperm := (reassembler.perm_held_hold (completed shard data))
        rw [held_hold] at hperm
        apply hperm.mem_iff.trans
        rw [List.mem_cons, or_comm]
        simp
  · rw [if_neg hcomplete]
    simp [hcomplete]

theorem mem_entries_erase {pending : AList fun _ : UInt32 => Pending}
    {removed : UInt32} {entry : Entry} :
    entry ∈ (pending.erase removed).entries ↔
      entry ∈ pending.entries ∧ entry.1 ≠ removed := by
  obtain ⟨id, assembly⟩ := entry
  rw [← AList.mem_lookup_iff, ← AList.mem_lookup_iff]
  by_cases hid : id = removed
  · subst hid
    rw [AList.lookup_erase]
    exact iff_of_false nofun fun h => h.2 rfl
  · rw [AList.lookup_erase_ne hid]
    exact (and_iff_left hid).symm

/-- The victim is the one with the least id. -/
theorem eq_oldest_iff {oldest : UInt32}
    (holdest : oldest ∈ reassembler.oldestPending) {entry : Entry}
    (hentry : entry ∈ reassembler.pending.entries) :
    entry.1 = oldest ↔ reassembler.Least entry.1 := by
  constructor
  · intro heq
    rw [heq]
    exact oldestPending_least holdest
  · intro hleast
    apply UInt32.le_antisymm
    · exact hleast _ (mem_keys_of_oldestPending holdest)
    · exact oldestPending_least holdest _ (List.mem_map_of_mem hentry)

/-- After the shard settled exactly the missing assemblies are pending. -/
theorem mem_entries_settle (hskips : ¬reassembler.skips shard.header.frameId)
    (entry : Entry) :
    entry ∈ (reassembler.settle shard).pending.entries ↔
      entry ∈ reassembler.missing shard := by
  have hnext := settled_settle reassembler shard
  have hclosed : (reassembler.assembly shard).Complete →
      (entry ∈ (reassembler.closed shard).pending.entries ↔
        entry ∈ reassembler.missing shard) := by
    intro hcomplete
    rw [closed, mem_entries_erase, missing, List.mem_filter]
    simp [hcomplete, Evicts]
  generalize reassembler.settle shard = next at hnext
  cases hnext with
  | waiting hopen hroom =>
      have hstays : ¬reassembler.Evicts shard :=
        fun hevicts => absurd hevicts.2.2 (Nat.not_lt.mpr hroom)
      rw [missing, List.mem_filter]
      simp [hopen, hstays]
  | completing hcomplete _ => exact hclosed hcomplete
  | failing hcomplete _ => exact hclosed hcomplete
  | evicting hopen hfull holdest =>
      have hevicts : reassembler.Evicts shard := ⟨hskips, hopen, hfull⟩
      rw [mem_entries_erase, missing, List.mem_filter, decide_eq_true_eq]
      apply and_congr_right
      intro hentry
      rw [← eq_oldest_iff holdest hentry]
      simp [hopen, hevicts]

theorem goesOut_settle_iff (hskips : ¬reassembler.skips shard.header.frameId)
    (place : ℕ) :
    GoesOut (reassembler.settle shard).pending.entries
        (reassembler.settle shard).held place ↔
      GoesOut (reassembler.missing shard) (reassembler.queue shard) place := by
  rw [held_settle, goesOut_congr (mem_entries_settle hskips)]

/-- A push releases the places of its queue that go out. -/
theorem drained_push (hskips : ¬reassembler.skips shard.header.frameId) :
    ∃ released, Drained (reassembler.missing shard) (reassembler.queue shard)
      (reassembler.push shard.header shard.payload) released := by
  obtain ⟨released, hdrained⟩ := drained (reassembler.settle shard)
  refine ⟨released, ?_⟩
  rw [push_eq, if_neg hskips, ← held_settle]
  constructor
  case out => exact hdrained.out
  case held => exact hdrained.held
  case goesOut =>
    intro place
    rw [goesOut_congr fun entry => (mem_entries_settle hskips entry).symm]
    exact hdrained.goesOut place
  case pending =>
    intro entry hentry
    obtain ⟨hmem, hnewer⟩ := hdrained.pending entry hentry
    exact ⟨(mem_entries_settle hskips entry).mp hmem, hnewer⟩

section Drained

variable {missing : List Entry} {queue : List CompletedFrame}
  {after : Reassembler × List CompletedFrame} {released : ℕ}

theorem Drained.mem_out (h : Drained missing queue after released)
    {place : ℕ} {frame : CompletedFrame} (hplace : queue[place]? = some frame)
    (hgoes : GoesOut missing queue place) : frame ∈ after.2 := by
  rw [h.out]
  apply List.mem_of_getElem?
  rw [List.getElem?_take_of_lt ((h.goesOut place).mp hgoes)]
  exact hplace

/-- What is pending afterwards is older than no frame that went out. -/
theorem Drained.outlasts (h : Drained missing queue after released)
    {entry : Entry} (hentry : entry ∈ after.1.pending.entries)
    (place : ℕ) : Outlasts missing queue place entry := by
  intro out _ hgoes earlier hearlier
  apply (h.pending entry hentry).2
  apply List.mem_of_getElem?
  rw [List.getElem?_take_of_lt ((h.goesOut out).mp hgoes)]
  exact hearlier

/-- A place that does not go out is held behind what was in front of it. -/
theorem Drained.held_at (h : Drained missing queue after released)
    {place : ℕ} {frame : CompletedFrame} (hplace : queue[place]? = some frame)
    (hwaits : ¬GoesOut missing queue place) :
    after.1.held[place - released]? = some frame ∧
      after.1.held.take (place - released + 1) ⊆ queue.take (place + 1) := by
  rw [h.goesOut, Nat.not_lt] at hwaits
  rw [h.held, List.getElem?_drop, Nat.add_sub_cancel' hwaits]
  refine ⟨hplace, ?_⟩
  have htake : (queue.drop released).take (place - released + 1) =
      (queue.take (place + 1)).drop released := by
    rw [List.drop_take, Nat.sub_add_comm hwaits]
  rw [htake]
  exact List.drop_subset _ _

end Drained

end GameStreamer.Reassembler
