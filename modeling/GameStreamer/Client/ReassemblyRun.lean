import GameStreamer.Client.Coverage
import GameStreamer.Core.EventRun

/-!
# Runs of the reassembler

A shard that is neither stale nor of a held frame settles: it goes into its
frame's assembly, which then waits, evicts another one, completes or fails.
After that, held frames are released from the head.  This module takes `push`
apart into the two stages and gives the rules by which an invariant survives
them, and so every run of shards.
-/

namespace GameStreamer

/-- A shard as `parse` accepts it. -/
structure Shard where
  header : VideoDatagramHeader
  payload : Bytes
  wellFormed : header.WellFormed

namespace Pending

/-- The bytes of a complete assembly; nothing if its geometry is malformed. -/
def frameData (pending : Pending) : Option Bytes :=
  if pending.receivedData = pending.dataCount then some pending.assembleData
  else pending.reconstruct

end Pending

namespace Reassembler

/-- Shards of delivered and of held frames are dropped. -/
def skips (reassembler : Reassembler) (frameId : UInt32) : Bool :=
  reassembler.stale frameId ||
    reassembler.held.any (·.frameId = frameId)

/-- The assembly of a shard's frame, with the shard. -/
def assembly (reassembler : Reassembler) (shard : Shard) : Pending :=
  (reassembler.entryFor shard.header).store shard.header shard.payload

/-- The shard's assembly is put in its place. -/
def opened (reassembler : Reassembler) (shard : Shard) : Reassembler :=
  { reassembler with
    pending := reassembler.pending.insert shard.header.frameId
      (reassembler.assembly shard) }

/-- The shard's assembly is taken out. -/
def closed (reassembler : Reassembler) (shard : Shard) : Reassembler :=
  { reassembler with
    pending := (reassembler.opened shard).pending.erase shard.header.frameId }

/-- The frame that a shard completes. -/
def completed (shard : Shard) (data : Bytes) : CompletedFrame where
  frameId := shard.header.frameId
  kind := shard.header.kind
  captureTsUs := shard.header.captureTsUs
  data := data

/-- What `push` does before it drains. -/
def settle (reassembler : Reassembler) (shard : Shard) : Reassembler :=
  let entry := reassembler.assembly shard
  if ¬entry.Complete then
    if maxPending < (reassembler.opened shard).pending.keys.length then
      (reassembler.opened shard).pruneOldest
    else reassembler.opened shard
  else
    match entry.frameData with
    | some data =>
        hold
          { reassembler.closed shard with
            recovered := reassembler.recovered +
              if entry.receivedData = entry.dataCount then 0 else 1 }
          (completed shard data)
    | none =>
        { reassembler.closed shard with dropped := reassembler.dropped + 1 }

theorem push_eq (reassembler : Reassembler) (shard : Shard) :
    reassembler.push shard.header shard.payload =
      if reassembler.skips shard.header.frameId then (reassembler, [])
      else (reassembler.settle shard).drain := by
  by_cases hstale : reassembler.stale shard.header.frameId
  · rw [push, if_pos hstale, skips, hstale, Bool.true_or, if_pos rfl]
  by_cases hheld : reassembler.held.any (·.frameId = shard.header.frameId)
  · rw [push, if_neg hstale, if_pos hheld, skips, hheld, Bool.or_true,
      if_pos rfl]
  have hskips : ¬reassembler.skips shard.header.frameId = true := by
    rw [skips, Bool.or_eq_true, not_or]
    exact ⟨hstale, hheld⟩
  rw [push, if_neg hstale, if_neg hheld, if_neg hskips, settle]
  dsimp only
  change (if ¬(reassembler.assembly shard).Complete then _ else _) = _
  by_cases hcomplete : (reassembler.assembly shard).Complete
  · rw [if_neg (not_not.mpr hcomplete), if_neg (not_not.mpr hcomplete)]
    change (if (reassembler.assembly shard).receivedData =
      (reassembler.assembly shard).dataCount then _ else _) = _
    by_cases hdirect : (reassembler.assembly shard).receivedData =
      (reassembler.assembly shard).dataCount
    · rw [if_pos hdirect, if_pos hdirect, Pending.frameData, if_pos hdirect]
      rfl
    · rw [if_neg hdirect, if_neg hdirect, Pending.frameData, if_neg hdirect]
      change (match (reassembler.assembly shard).reconstruct with
        | some data => _
        | none => _) = _
      cases (reassembler.assembly shard).reconstruct <;> rfl
  · rw [if_pos hcomplete, if_pos hcomplete]
    change (if maxPending < (reassembler.opened shard).pending.keys.length
      then _ else _) = _
    split_ifs <;> rfl

/-- The pending frame farthest behind the greatest id. -/
def oldestPending (reassembler : Reassembler) : Option UInt32 :=
  (reassembler.pending.keys.argmax UInt32.toNat).bind fun newest =>
    reassembler.pending.keys.argmax fun id => (newest - id).toNat

/-- Where a shard settles. -/
inductive Settled (reassembler : Reassembler) (shard : Shard) :
    Reassembler → Prop
  | waiting (hopen : ¬(reassembler.assembly shard).Complete)
      (hroom : (reassembler.opened shard).pending.keys.length ≤ maxPending) :
      Settled reassembler shard (reassembler.opened shard)
  | evicting (hopen : ¬(reassembler.assembly shard).Complete)
      (hfull : maxPending < (reassembler.opened shard).pending.keys.length)
      {oldest : UInt32}
      (holdest : oldest ∈ (reassembler.opened shard).oldestPending) :
      Settled reassembler shard
        { reassembler.opened shard with
          pending := (reassembler.opened shard).pending.erase oldest
          dropped := reassembler.dropped + 1 }
  | completing (hcomplete : (reassembler.assembly shard).Complete)
      {data : Bytes}
      (hdata : (reassembler.assembly shard).frameData = some data) :
      Settled reassembler shard
        (hold
          { reassembler.closed shard with
            recovered := reassembler.recovered +
              if (reassembler.assembly shard).receivedData =
                (reassembler.assembly shard).dataCount then 0 else 1 }
          (completed shard data))
  | failing (hcomplete : (reassembler.assembly shard).Complete)
      (hdata : (reassembler.assembly shard).frameData = none) :
      Settled reassembler shard
        { reassembler.closed shard with dropped := reassembler.dropped + 1 }

theorem mem_keys_of_oldestPending {reassembler : Reassembler}
    {oldest : UInt32} (h : oldest ∈ reassembler.oldestPending) :
    oldest ∈ reassembler.pending.keys := by
  obtain ⟨newest, -, holdest⟩ := Option.bind_eq_some_iff.mp h
  exact List.argmax_mem holdest

/-- One of the pending frames is evicted. -/
theorem pruneOldest_eq {reassembler : Reassembler}
    (hpending : reassembler.pending.keys ≠ []) :
    ∃ oldest ∈ reassembler.oldestPending, reassembler.pruneOldest =
      { reassembler with
        pending := reassembler.pending.erase oldest
        dropped := reassembler.dropped + 1 } := by
  rw [pruneOldest]
  split
  case h_1 hnone => exact absurd (List.argmax_eq_none.mp hnone) hpending
  case h_2 newest hnewest =>
    split
    case h_1 hnone => exact absurd (List.argmax_eq_none.mp hnone) hpending
    case h_2 oldest holdest =>
      refine ⟨oldest, Option.bind_eq_some_iff.mpr ⟨newest, hnewest, ?_⟩, rfl⟩
      exact holdest

theorem settled_settle (reassembler : Reassembler) (shard : Shard) :
    Settled reassembler shard (reassembler.settle shard) := by
  simp only [settle]
  split
  case isTrue hopen =>
    split
    case isTrue hfull =>
      have hpending : (reassembler.opened shard).pending.keys ≠ [] := by
        intro hnil
        rw [hnil] at hfull
        exact absurd hfull (Nat.not_lt_zero _)
      obtain ⟨oldest, holdest, heq⟩ := pruneOldest_eq hpending
      rw [heq]
      exact .evicting hopen hfull holdest
    case isFalse hroom => exact .waiting hopen (Nat.not_lt.mp hroom)
  case isFalse hcomplete =>
    rw [not_not] at hcomplete
    split
    case h_1 data hdata => exact .completing hcomplete hdata
    case h_2 hdata => exact .failing hcomplete hdata

/-! ## The pending map and the held queue -/

@[simp]
theorem keys_opened (reassembler : Reassembler) (shard : Shard) :
    (reassembler.opened shard).pending.keys = shard.header.frameId ::
      reassembler.pending.keys.erase shard.header.frameId :=
  AList.keys_insert _

@[simp]
theorem keys_closed (reassembler : Reassembler) (shard : Shard) :
    (reassembler.closed shard).pending.keys =
      reassembler.pending.keys.erase shard.header.frameId := by
  rw [closed, AList.keys_erase, keys_opened, List.erase_cons_head]

@[simp]
theorem keys_pruneOlderThan (reassembler : Reassembler)
    (completed : UInt32) :
    (reassembler.pruneOlderThan completed).pending.keys =
      reassembler.pending.keys.filter fun id => ¬older id completed := by
  simp only [pruneOlderThan, AList.keys, List.keys, List.filter_map]
  rfl

/-- A frame is held before the first frame that it is older than. -/
theorem held_hold (reassembler : Reassembler) (frame : CompletedFrame) :
    (reassembler.hold frame).held =
      (reassembler.held.takeWhile fun other =>
          ¬older frame.frameId other.frameId) ++
        frame :: reassembler.held.dropWhile fun other =>
          ¬older frame.frameId other.frameId := by
  rw [hold]
  dsimp only
  induction reassembler.held with
  | nil => rfl
  | cons head rest ih =>
      by_cases hhead : older frame.frameId head.frameId
      · simp [List.findIdx_cons, hhead]
      · simpa [List.findIdx_cons, hhead] using ih

/-- The held frames with a new one among them. -/
theorem perm_held_hold (reassembler : Reassembler) (frame : CompletedFrame) :
    (reassembler.hold frame).held.Perm (frame :: reassembler.held) := by
  rw [held_hold]
  refine List.perm_middle.trans (List.Perm.cons frame ?_)
  rw [List.takeWhile_append_dropWhile]

theorem lookup_of_erase {pending : AList fun _ : UInt32 => Pending}
    {id removed : UInt32} {entry : Pending}
    (h : (pending.erase removed).lookup id = some entry) :
    id ≠ removed ∧ pending.lookup id = some entry := by
  have hne : id ≠ removed := by
    rintro rfl
    rw [AList.lookup_erase] at h
    cases h
  exact ⟨hne, by rwa [AList.lookup_erase_ne hne] at h⟩

theorem lookup_opened {reassembler : Reassembler} {shard : Shard}
    {id : UInt32} {entry : Pending}
    (h : (reassembler.opened shard).pending.lookup id = some entry) :
    id = shard.header.frameId ∧ entry = reassembler.assembly shard ∨
      id ≠ shard.header.frameId ∧
        reassembler.pending.lookup id = some entry := by
  by_cases hid : id = shard.header.frameId
  · subst hid
    rw [opened, AList.lookup_insert] at h
    exact Or.inl ⟨rfl, (Option.some.inj h).symm⟩
  · rw [opened, AList.lookup_insert_ne hid] at h
    exact Or.inr ⟨hid, h⟩

/-- After a shard settled, what is pending was pending before or is the
shard's assembly, which is not complete. -/
theorem lookup_settled {reassembler next : Reassembler} {shard : Shard}
    (hnext : Settled reassembler shard next) {id : UInt32} {entry : Pending}
    (h : next.pending.lookup id = some entry) :
    id = shard.header.frameId ∧ entry = reassembler.assembly shard ∧
        ¬entry.Complete ∨
      id ≠ shard.header.frameId ∧
        reassembler.pending.lookup id = some entry := by
  have hclosed : ∀ {entry}, (reassembler.closed shard).pending.lookup id =
      some entry → id ≠ shard.header.frameId ∧
        reassembler.pending.lookup id = some entry := by
    intro entry hentry
    obtain ⟨hne, hopened⟩ := lookup_of_erase hentry
    rcases lookup_opened hopened with ⟨heq, -⟩ | hold
    · exact absurd heq hne
    · exact hold
  cases hnext with
  | waiting hopen hroom =>
      rcases lookup_opened h with ⟨heq, rfl⟩ | hold
      · exact Or.inl ⟨heq, rfl, hopen⟩
      · exact Or.inr hold
  | evicting hopen hfull holdest =>
      rcases lookup_opened (lookup_of_erase h).2 with ⟨heq, rfl⟩ | hold
      · exact Or.inl ⟨heq, rfl, hopen⟩
      · exact Or.inr hold
  | completing hcomplete hdata => exact Or.inr (hclosed h)
  | failing hcomplete hdata => exact Or.inr (hclosed h)

/-! ## Draining -/

/-- Something older than the frame is still pending. -/
def Blocked (reassembler : Reassembler) (frame : CompletedFrame) : Prop :=
  ∃ id ∈ reassembler.pending.keys, older id frame.frameId

/-- The head of the queue does not wait for anything. -/
def Forced (reassembler : Reassembler) (head : CompletedFrame) : Prop :=
  head.kind = .idr ∨ holdLimit < reassembler.held.length

/-- The head goes out, and what is older than it is given up. -/
def release (reassembler : Reassembler) (head : CompletedFrame)
    (rest : List CompletedFrame) : Reassembler :=
  { pruneOlderThan
      { reassembler with latestDelivered := some head.frameId }
      head.frameId with
    held := rest }

theorem drainFrom_held (reassembler : Reassembler)
    (held frames : List CompletedFrame) :
    drainFrom { reassembler with held := held } frames =
      drainFrom reassembler frames := by
  induction frames generalizing reassembler with
  | nil => rfl
  | cons head rest ih =>
      rw [drainFrom, drainFrom]
      dsimp only
      split_ifs
      · rfl
      · exact congrArg (fun drained => (drained.1, head :: drained.2))
          (ih (pruneOlderThan
            { reassembler with latestDelivered := some head.frameId }
            head.frameId))

theorem drainFrom_cons (reassembler : Reassembler) (head : CompletedFrame)
    (rest : List CompletedFrame) (hheld : reassembler.held = head :: rest) :
    (reassembler.Blocked head ∧ ¬reassembler.Forced head ∧
        reassembler.drainFrom (head :: rest) = (reassembler, [])) ∨
      ¬(reassembler.Blocked head ∧ ¬reassembler.Forced head) ∧
        reassembler.drainFrom (head :: rest) =
          (((reassembler.release head rest).drainFrom rest).1,
            head :: ((reassembler.release head rest).drainFrom rest).2) := by
  rw [Forced, hheld, drainFrom]
  dsimp only
  split_ifs with hwait
  · refine Or.inl ⟨hwait.1, hwait.2, ?_⟩
    rw [← hheld]
  · refine Or.inr ⟨hwait, ?_⟩
    have hrest := drainFrom_held (pruneOlderThan
      { reassembler with latestDelivered := some head.frameId } head.frameId)
      rest rest
    rw [release, hrest]

instance (reassembler : Reassembler) (frame : CompletedFrame) :
    Decidable (reassembler.Blocked frame) :=
  -- Decided along the pending ids, not over all 32-bit ones.
  List.decidableBEx _ _

instance (reassembler : Reassembler) (head : CompletedFrame) :
    Decidable (reassembler.Forced head) :=
  inferInstanceAs (Decidable (_ ∨ _))

/-- The frames that draining releases, each with the state that it leaves. -/
def releases (reassembler : Reassembler) :
    (held : List CompletedFrame) → List (Reassembler × CompletedFrame)
  | [] => []
  | head :: rest =>
      if reassembler.Blocked head ∧ ¬reassembler.Forced head then []
      else
        (reassembler, head) :: (reassembler.release head rest).releases rest

/-- A property of the state and of what went out so far, if every release of
the drain keeps it, survives draining. -/
theorem drain_rule_releases {inv : Reassembler → List CompletedFrame → Prop}
    {reassembler : Reassembler} {log : List CompletedFrame}
    (hrelease : ∀ state head rest log,
      (state, head) ∈ reassembler.releases reassembler.held →
      state.held = head :: rest →
      ¬(state.Blocked head ∧ ¬state.Forced head) →
      inv state log → inv (state.release head rest) (log ++ [head]))
    (h : inv reassembler log) :
    inv reassembler.drain.1 (log ++ reassembler.drain.2) := by
  rw [drain]
  generalize hheld : reassembler.held = frames at hrelease
  induction frames generalizing reassembler log with
  | nil =>
      have hnil : reassembler.drainFrom [] = (reassembler, []) := by
        rw [drainFrom]
        exact congrArg (fun held => ({ reassembler with held := held }, []))
          hheld.symm
      rw [hnil, List.append_nil]
      exact h
  | cons head rest ih =>
      rcases reassembler.drainFrom_cons head rest hheld with
        ⟨-, -, heq⟩ | ⟨hfree, heq⟩
      · rw [heq, List.append_nil]
        exact h
      · rw [releases, if_neg hfree] at hrelease
        have hrest := ih
          (hrelease _ head rest log List.mem_cons_self hheld hfree h) rfl
          fun state next rest log hmem =>
            hrelease state next rest log (List.mem_cons_of_mem _ hmem)
        rw [List.append_assoc, List.singleton_append] at hrest
        rw [heq]
        exact hrest

/-- A property of the state and of what went out so far, if every release
keeps it, survives draining. -/
theorem drain_rule {inv : Reassembler → List CompletedFrame → Prop}
    (hrelease : ∀ reassembler head rest log,
      reassembler.held = head :: rest →
      ¬(reassembler.Blocked head ∧ ¬reassembler.Forced head) →
      inv reassembler log → inv (reassembler.release head rest) (log ++ [head]))
    {reassembler : Reassembler} {log : List CompletedFrame}
    (h : inv reassembler log) :
    inv reassembler.drain.1 (log ++ reassembler.drain.2) :=
  drain_rule_releases
    (fun state head rest log _ => hrelease state head rest log) h

/-- What still waits after draining is blocked, and nothing forces it. -/
theorem blocked_drain (reassembler : Reassembler) :
    ∀ head ∈ reassembler.drain.1.held.head?,
      reassembler.drain.1.Blocked head ∧ ¬reassembler.drain.1.Forced head := by
  rw [drain]
  generalize hheld : reassembler.held = frames
  induction frames generalizing reassembler with
  | nil =>
      intro head hhead
      cases hhead
  | cons head rest ih =>
      rcases reassembler.drainFrom_cons head rest hheld with
        ⟨hblocked, hfree, heq⟩ | ⟨-, heq⟩
      · intro head' hhead'
        rw [heq, hheld] at hhead'
        obtain rfl := Option.some.inj hhead'
        rw [heq]
        exact ⟨hblocked, hfree⟩
      · rw [heq]
        exact ih (reassembler.release head rest) rfl

theorem lookup_pruneOlderThan {reassembler : Reassembler}
    {completed id : UInt32} {pending : Pending}
    (h : (reassembler.pruneOlderThan completed).pending.lookup id =
      some pending) :
    reassembler.pending.lookup id = some pending := by
  have hmem := AList.mem_lookup_iff.mp h
  exact AList.mem_lookup_iff.mpr (List.mem_of_mem_filter hmem)

theorem lookup_release {reassembler : Reassembler} {head : CompletedFrame}
    {rest : List CompletedFrame} {id : UInt32} {pending : Pending}
    (h : (reassembler.release head rest).pending.lookup id = some pending) :
    reassembler.pending.lookup id = some pending :=
  @lookup_pruneOlderThan
    { reassembler with latestDelivered := some head.frameId } _ _ _ h

/-- Releasing a frame leaves alone what is not older than it. -/
theorem lookup_release_of_not_older {reassembler : Reassembler}
    {head : CompletedFrame} {rest : List CompletedFrame} {id : UInt32}
    {pending : Pending} (h : reassembler.pending.lookup id = some pending)
    (hnot : ¬older id head.frameId) :
    (reassembler.release head rest).pending.lookup id = some pending := by
  have hmem : (⟨id, pending⟩ : Sigma fun _ : UInt32 => Pending) ∈
      reassembler.pending.entries := AList.mem_lookup_iff.mp h
  exact AList.mem_lookup_iff.mpr
    (List.mem_filter.mpr ⟨hmem, decide_eq_true hnot⟩)

@[simp]
theorem keys_release (reassembler : Reassembler) (head : CompletedFrame)
    (rest : List CompletedFrame) :
    (reassembler.release head rest).pending.keys =
      reassembler.pending.keys.filter fun id => ¬older id head.frameId :=
  keys_pruneOlderThan _ _

end Reassembler

/-! ## Runs -/

/-- A reassembler and everything that it released, oldest first.  This is the
part of a run that the results on the order and the accounting look at. -/
structure Playback where
  reassembler : Reassembler
  released : List CompletedFrame

namespace Playback

open Reassembler

def start : Playback := ⟨Reassembler.new, []⟩

def step (playback : Playback) (shard : Shard) : Playback :=
  let pushed := playback.reassembler.push shard.header shard.payload
  ⟨pushed.1, playback.released ++ pushed.2⟩

/-- The state after a list of shards. -/
def after (shards : List Shard) : Playback := shards.foldl step start

theorem step_of_skips {playback : Playback} {shard : Shard}
    (hskips : playback.reassembler.skips shard.header.frameId) :
    playback.step shard = playback := by
  rw [step, push_eq, if_pos hskips]
  dsimp only
  rw [List.append_nil]

theorem step_of_settles {playback : Playback} {shard : Shard}
    (hskips : ¬playback.reassembler.skips shard.header.frameId) :
    playback.step shard =
      ⟨(playback.reassembler.settle shard).drain.1, playback.released ++
        (playback.reassembler.settle shard).drain.2⟩ := by
  rw [step, push_eq, if_neg hskips]

/-- An invariant of the state and the released frames that settling and every
release keep holds after every push. -/
theorem step_rule {inv : Reassembler → List CompletedFrame → Prop}
    {playback : Playback} {shard : Shard}
    (hsettle : ¬playback.reassembler.skips shard.header.frameId →
      ∀ next, Settled playback.reassembler shard next →
        inv next playback.released)
    (hrelease : ∀ reassembler head rest log,
      reassembler.held = head :: rest →
      ¬(reassembler.Blocked head ∧ ¬reassembler.Forced head) →
      inv reassembler log → inv (reassembler.release head rest) (log ++ [head]))
    (h : inv playback.reassembler playback.released) :
    inv (playback.step shard).reassembler (playback.step shard).released := by
  by_cases hskips : playback.reassembler.skips shard.header.frameId
  · rwa [step_of_skips hskips]
  · rw [step_of_settles hskips]
    exact drain_rule hrelease
      (hsettle hskips _ (settled_settle playback.reassembler shard))

end Playback

/-- A frame of one shard. -/
def soleShard (frameId : UInt32) (kind : FrameKind) : Shard where
  header :=
    { seq := 0
      sessionEpoch := 0
      frameId := frameId
      kind := kind
      chunkIndex := 0
      chunkCount := 1
      parityCount := 0
      frameLen := 1
      captureTsUs := 0 }
  payload := [7]
  wellFormed := by
    constructor
    · exact (by decide : (1 : UInt16) ≠ 0)
    · exact (by decide : (0 : UInt16).toNat < totalShards 1 0)

/-- The first shard of a frame of two. -/
def firstOfTwo (frameId : UInt32) : Shard where
  header :=
    { seq := 0
      sessionEpoch := 0
      frameId := frameId
      kind := .p
      chunkIndex := 0
      chunkCount := 2
      parityCount := 0
      frameLen := 2
      captureTsUs := 0 }
  payload := [7]
  wellFormed := by
    constructor
    · exact (by decide : (2 : UInt16) ≠ 0)
    · exact (by decide : (0 : UInt16).toNat < totalShards 2 0)

end GameStreamer
