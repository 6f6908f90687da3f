import GameStreamer.Client.ReassemblyRun
import Mathlib.Data.List.Nodup

/-!
# The order of released frames

Ids wrap, and `older` is no order on all of them; within a window of `2 ^ 30`
ids it is the order of their distances from the window's start.  The released
frames followed by the held ones are one increasing sequence in every run whose
ids stay in such a window, and whatever is pending is newer than everything
that was released.
-/

namespace GameStreamer

open Reassembler

/-- How far an id is from the start of the window, across the wrap. -/
def offset (base id : UInt32) : ℕ := (id - base).toNat

/-- The `2 ^ 30` ids from `base` on. -/
def InWindow (base id : UInt32) : Prop := offset base id < 2 ^ 30

instance (base id : UInt32) : Decidable (InWindow base id) :=
  inferInstanceAs (Decidable (_ < _))

theorem older_iff {base left right : UInt32} (hleft : InWindow base left)
    (hright : InWindow base right) :
    older left right ↔ offset base left < offset base right := by
  have hbase := base.toNat_lt
  have hl := left.toNat_lt
  have hr := right.toNat_lt
  simp only [InWindow, offset, older, halfRange, UInt32.lt_iff_toNat_lt,
    UInt32.toNat_sub, UInt32.toNat_ofNat] at *
  omega

theorem offset_injective (base : UInt32) :
    Function.Injective (offset base) := by
  intro left right h
  have hsub := UInt32.toNat_inj.mp h
  rw [← UInt32.sub_add_cancel left base, hsub, UInt32.sub_add_cancel]

/-- In the window, what is not stale is newer than the last delivered id. -/
theorem offset_lt_of_not_stale {base latest id : UInt32}
    {reassembler : Reassembler} (hlatest : InWindow base latest)
    (hid : InWindow base id)
    (hdelivered : reassembler.latestDelivered = some latest)
    (hfresh : ¬reassembler.stale id) : offset base latest < offset base id := by
  have hbase := base.toNat_lt
  have hl := latest.toNat_lt
  have hi := id.toNat_lt
  rw [Reassembler.stale, hdelivered] at hfresh
  simp only [decide_eq_true_eq, InWindow, offset, halfRange,
    UInt32.lt_iff_toNat_lt, UInt32.toNat_sub, UInt32.toNat_ofNat] at *
  omega

/-- Frames in the order of the window. -/
def Increasing (base : UInt32) (frames : List CompletedFrame) : Prop :=
  frames.Pairwise fun left right =>
    offset base left.frameId < offset base right.frameId

/-- A new frame of the window, put before the first that it is older than,
leaves the queue in order. -/
theorem increasing_insert {base : UInt32} {frame : CompletedFrame}
    (hframe : InWindow base frame.frameId) {held : List CompletedFrame}
    (hwindow : ∀ other ∈ held, InWindow base other.frameId)
    (hnew : ∀ other ∈ held, other.frameId ≠ frame.frameId)
    (hsorted : Increasing base held) :
    Increasing base
      ((held.takeWhile fun other => ¬older frame.frameId other.frameId) ++
        frame :: held.dropWhile fun other =>
          ¬older frame.frameId other.frameId) := by
  induction held with
  | nil => exact List.pairwise_singleton _ _
  | cons head rest ih =>
      obtain ⟨hfirst, hrest⟩ := List.pairwise_cons.mp hsorted
      have hhead := hwindow head List.mem_cons_self
      by_cases holder : older frame.frameId head.frameId
      · have hlt := (older_iff hframe hhead).mp holder
        have hall : Increasing base (frame :: head :: rest) := by
          refine List.pairwise_cons.mpr ⟨?_, hsorted⟩
          rintro other (_ | ⟨_, hother⟩)
          · exact hlt
          · exact hlt.trans (hfirst other hother)
        simpa [holder] using hall
      · have hne := (offset_injective base).ne (hnew head List.mem_cons_self)
        have hlt : offset base head.frameId < offset base frame.frameId :=
          lt_of_le_of_ne (Nat.not_lt.mp (mt (older_iff hframe hhead).mpr
            holder)) hne
        have htail := ih (fun other hother =>
            hwindow other (List.mem_cons_of_mem _ hother))
          (fun other hother => hnew other (List.mem_cons_of_mem _ hother)) hrest
        have hall : Increasing base (head ::
            ((rest.takeWhile fun other =>
                ¬older frame.frameId other.frameId) ++
              frame :: rest.dropWhile fun other =>
                ¬older frame.frameId other.frameId)) := by
          refine List.pairwise_cons.mpr ⟨fun other hother => ?_, htail⟩
          rcases List.mem_append.mp hother with htaken | hlater
          · exact hfirst other ((List.takeWhile_sublist _).subset htaken)
          · rcases List.mem_cons.mp hlater with rfl | hdropped
            · exact hlt
            · exact hfirst other ((List.dropWhile_sublist _).subset hdropped)
        simpa [holder] using hall

namespace Reassembler

/-- The released and the held frames are one increasing sequence, apart from
the pending ids, which are newer than everything released. -/
structure Ordered (base : UInt32) (reassembler : Reassembler)
    (log : List CompletedFrame) : Prop where
  increasing : Increasing base (log ++ reassembler.held)
  window : ∀ frame ∈ log ++ reassembler.held, InWindow base frame.frameId
  pendingWindow : ∀ id ∈ reassembler.pending.keys, InWindow base id
  newer : ∀ frame ∈ log, ∀ id ∈ reassembler.pending.keys,
    offset base frame.frameId < offset base id
  disjoint : ∀ frame ∈ reassembler.held,
    frame.frameId ∉ reassembler.pending.keys
  latest : reassembler.latestDelivered =
    log.getLast?.map CompletedFrame.frameId

variable {base : UInt32} {reassembler : Reassembler}
  {log : List CompletedFrame}

theorem ordered_new (base : UInt32) : Ordered base new [] where
  increasing := List.Pairwise.nil
  window := nofun
  pendingWindow := nofun
  newer := nofun
  disjoint := nofun
  latest := rfl

/-- Only the pending map changes, by ids that are neither stale nor held. -/
theorem Ordered.of_keys (h : Ordered base reassembler log)
    {next : Reassembler} (hheld : next.held = reassembler.held)
    (hlatest : next.latestDelivered = reassembler.latestDelivered)
    (hkeys : ∀ id ∈ next.pending.keys, id ∈ reassembler.pending.keys ∨
      InWindow base id ∧
        (∀ frame ∈ log, offset base frame.frameId < offset base id) ∧
        ∀ frame ∈ reassembler.held, frame.frameId ≠ id) :
    Ordered base next log where
  increasing := hheld ▸ h.increasing
  window := hheld ▸ h.window
  pendingWindow id hid := by
    rcases hkeys id hid with hold | hnew
    · exact h.pendingWindow id hold
    · exact hnew.1
  newer frame hframe id hid := by
    rcases hkeys id hid with hold | hnew
    · exact h.newer frame hframe id hold
    · exact hnew.2.1 frame hframe
  disjoint frame hframe hid := by
    rw [hheld] at hframe
    rcases hkeys _ hid with hold | hnew
    · exact h.disjoint frame hframe hold
    · exact hnew.2.2 frame hframe rfl
  latest := hlatest.trans h.latest

theorem ne_of_not_skips {id : UInt32} (hskips : ¬reassembler.skips id) :
    ∀ frame ∈ reassembler.held, frame.frameId ≠ id := by
  rw [skips, Bool.or_eq_true, not_or] at hskips
  simpa using hskips.2

/-- Every released frame is older than a shard that is not skipped. -/
theorem Ordered.lt_of_not_skips (h : Ordered base reassembler log)
    {id : UInt32} (hid : InWindow base id) (hskips : ¬reassembler.skips id) :
    ∀ frame ∈ log, offset base frame.frameId < offset base id := by
  rw [skips, Bool.or_eq_true, not_or] at hskips
  rcases List.eq_nil_or_concat log with rfl | ⟨front, last, rfl⟩
  · intro frame hframe
    cases hframe
  · rw [List.concat_eq_append] at *
    have hdelivered : reassembler.latestDelivered = some last.frameId := by
      rw [h.latest, List.getLast?_concat]
      rfl
    have hlast : last ∈ front ++ [last] := List.mem_append_right _
      (List.mem_singleton_self last)
    have hlt := offset_lt_of_not_stale
      (h.window last (List.mem_append_left _ hlast)) hid hdelivered hskips.1
    intro frame hframe
    rcases List.mem_append.mp hframe with hfront | hsame
    · have hincreasing := (List.pairwise_append.mp h.increasing).1
      exact ((List.pairwise_append.mp hincreasing).2.2 frame hfront last
        (List.mem_singleton_self last)).trans hlt
    · obtain rfl := List.mem_singleton.mp hsame
      exact hlt

/-- A completed frame that was not skipped joins the held ones. -/
theorem Ordered.hold (h : Ordered base reassembler log)
    {frame : CompletedFrame} (hframe : InWindow base frame.frameId)
    (hnew : ∀ other ∈ reassembler.held, other.frameId ≠ frame.frameId)
    (hnewer : ∀ other ∈ log,
      offset base other.frameId < offset base frame.frameId)
    (hpending : frame.frameId ∉ reassembler.pending.keys) :
    Ordered base (reassembler.hold frame) log := by
  have hmem : ∀ other, other ∈ (reassembler.hold frame).held ↔
      other = frame ∨ other ∈ reassembler.held := fun other =>
    (perm_held_hold reassembler frame).mem_iff.trans List.mem_cons
  obtain ⟨hlog, hheld, hcross⟩ := List.pairwise_append.mp h.increasing
  constructor
  case increasing =>
    refine List.pairwise_append.mpr ⟨hlog, ?_, ?_⟩
    · rw [held_hold]
      exact increasing_insert hframe
        (fun other hother => h.window other (List.mem_append_right _ hother))
        hnew hheld
    · intro left hleft right hright
      rcases (hmem right).mp hright with rfl | hold
      · exact hnewer left hleft
      · exact hcross left hleft right hold
  case window =>
    intro other hother
    rcases List.mem_append.mp hother with hlogged | hin
    · exact h.window other (List.mem_append_left _ hlogged)
    · rcases (hmem other).mp hin with rfl | hold
      · exact hframe
      · exact h.window other (List.mem_append_right _ hold)
  case pendingWindow => exact h.pendingWindow
  case newer => exact h.newer
  case disjoint =>
    intro other hother
    rcases (hmem other).mp hother with rfl | hold
    · exact hpending
    · exact h.disjoint other hold
  case latest => exact h.latest

/-- A shard of the window that is not skipped settles in order. -/
theorem Ordered.settled (h : Ordered base reassembler log) {shard : Shard}
    {next : Reassembler} (hshard : InWindow base shard.header.frameId)
    (hskips : ¬reassembler.skips shard.header.frameId)
    (hnext : Settled reassembler shard next) : Ordered base next log := by
  have hnewer := h.lt_of_not_skips hshard hskips
  have hheld := ne_of_not_skips hskips
  have hopened : ∀ id ∈ (reassembler.opened shard).pending.keys,
      id ∈ reassembler.pending.keys ∨ InWindow base id ∧
        (∀ frame ∈ log, offset base frame.frameId < offset base id) ∧
        ∀ frame ∈ reassembler.held, frame.frameId ≠ id := by
    intro id hid
    rw [keys_opened, List.mem_cons] at hid
    rcases hid with rfl | hold
    · exact Or.inr ⟨hshard, hnewer, hheld⟩
    · exact Or.inl (List.mem_of_mem_erase hold)
  have hclosed : Ordered base (reassembler.closed shard) log := by
    refine h.of_keys rfl rfl fun id hid => Or.inl ?_
    rw [keys_closed] at hid
    exact List.mem_of_mem_erase hid
  cases hnext with
  | waiting hopen hroom => exact h.of_keys rfl rfl hopened
  | evicting hopen hfull holdest =>
      refine h.of_keys rfl rfl fun id hid => hopened id ?_
      rw [AList.keys_erase] at hid
      exact List.mem_of_mem_erase hid
  | completing hcomplete hdata =>
      have hcounted : ∀ recovered : ℕ, Ordered base
          { reassembler.closed shard with recovered := recovered } log :=
        fun _ => hclosed.of_keys rfl rfl fun id hid => Or.inl hid
      refine (hcounted _).hold hshard hheld hnewer ?_
      change shard.header.frameId ∉ (reassembler.closed shard).pending.keys
      rw [keys_closed]
      exact reassembler.pending.keys_nodup.not_mem_erase
  | failing hcomplete hdata =>
      exact hclosed.of_keys rfl rfl fun id hid => Or.inl hid

theorem Ordered.release (h : Ordered base reassembler log)
    {head : CompletedFrame} {rest : List CompletedFrame}
    (hheld : reassembler.held = head :: rest) :
    Ordered base (reassembler.release head rest) (log ++ [head]) := by
  have hlist : (log ++ [head]) ++ rest = log ++ reassembler.held := by
    rw [hheld, List.append_assoc, List.singleton_append]
  constructor
  case increasing => exact hlist ▸ h.increasing
  case window => exact hlist ▸ h.window
  case pendingWindow =>
    intro id hid
    rw [keys_release] at hid
    exact h.pendingWindow id (List.mem_of_mem_filter hid)
  case newer =>
    intro frame hframe id hid
    rw [keys_release, List.mem_filter] at hid
    rcases List.mem_append.mp hframe with hold | hhead
    · exact h.newer frame hold id hid.1
    · obtain rfl := List.mem_singleton.mp hhead
      have hmem : frame ∈ reassembler.held := hheld ▸ List.mem_cons_self
      have hne : frame.frameId ≠ id := fun heq =>
        h.disjoint frame hmem (heq ▸ hid.1)
      have hold := mt (older_iff (h.pendingWindow id hid.1)
        (h.window frame (List.mem_append_right _ hmem))).mpr
          (by simpa using hid.2)
      exact lt_of_le_of_ne (Nat.not_lt.mp hold)
        ((offset_injective base).ne hne)
  case disjoint =>
    intro frame hframe hid
    rw [keys_release] at hid
    exact h.disjoint frame (hheld ▸ List.mem_cons_of_mem _ hframe)
      (List.mem_of_mem_filter hid)
  case latest =>
    rw [List.getLast?_append]
    rfl

end Reassembler

/-- What the gate relies on: the released ids go up in wrap order, and nothing
that waits is at or behind them. -/
structure ReleaseOrder (playback : Playback) : Prop where
  /-- Released ids only grow, so none is released twice. -/
  increasing : (playback.released.map CompletedFrame.frameId).Pairwise older
  unique : (playback.released.map CompletedFrame.frameId).Nodup
  heldSorted :
    (playback.reassembler.held.map CompletedFrame.frameId).Pairwise older
  disjoint : ∀ frame ∈ playback.reassembler.held,
    frame.frameId ∉ playback.reassembler.pending
  pendingNewer : ∀ latest ∈ playback.reassembler.latestDelivered,
    ∀ id ∈ playback.reassembler.pending, older latest id
  heldNewer : ∀ latest ∈ playback.reassembler.latestDelivered,
    ∀ frame ∈ playback.reassembler.held, older latest frame.frameId

/-- Increasing frames of the window are ordered by `older`. -/
theorem Increasing.older {base : UInt32} {frames : List CompletedFrame}
    (h : Increasing base frames)
    (hwindow : ∀ frame ∈ frames, InWindow base frame.frameId) :
    (frames.map CompletedFrame.frameId).Pairwise older :=
  List.pairwise_map.mpr (h.imp_of_mem fun hleft hright hlt =>
    (older_iff (hwindow _ hleft) (hwindow _ hright)).mpr hlt)

theorem Reassembler.Ordered.releaseOrder {base : UInt32} {playback : Playback}
    (h : Ordered base playback.reassembler playback.released) :
    ReleaseOrder playback := by
  obtain ⟨hlog, hheld, hcross⟩ := List.pairwise_append.mp h.increasing
  have hreleased : ∀ frame ∈ playback.released,
      InWindow base frame.frameId := fun frame hframe =>
    h.window frame (List.mem_append_left _ hframe)
  have hwindow : ∀ frame ∈ playback.reassembler.held,
      InWindow base frame.frameId := fun frame hframe =>
    h.window frame (List.mem_append_right _ hframe)
  have hlatest : ∀ latest ∈ playback.reassembler.latestDelivered,
      ∃ frame ∈ playback.released, frame.frameId = latest := by
    intro latest hdelivered
    rw [h.latest] at hdelivered
    obtain ⟨frame, hframe, rfl⟩ := Option.mem_map.mp hdelivered
    exact ⟨frame, List.mem_of_getLast? hframe, rfl⟩
  constructor
  case increasing => exact Increasing.older hlog hreleased
  case unique =>
    refine List.pairwise_map.mpr (hlog.imp fun hlt heq => ?_)
    rw [heq] at hlt
    exact absurd hlt (Nat.lt_irrefl _)
  case heldSorted => exact Increasing.older hheld hwindow
  case disjoint => exact h.disjoint
  case pendingNewer =>
    intro latest hdelivered id hid
    obtain ⟨frame, hframe, rfl⟩ := hlatest latest hdelivered
    exact (older_iff (hreleased frame hframe) (h.pendingWindow id hid)).mpr
      (h.newer frame hframe id hid)
  case heldNewer =>
    intro latest hdelivered frame hframe
    obtain ⟨earlier, hearlier, rfl⟩ := hlatest latest hdelivered
    exact (older_iff (hreleased earlier hearlier) (hwindow frame hframe)).mpr
      (hcross earlier hearlier frame hframe)

/-- The order of what goes out.  In every run whose ids stay within one window
of the number space, across the wrap or not, no frame is released twice or out
of order, and whatever is still held or pending is newer than what went out. -/
theorem releaseOrder_after {base : UInt32} {shards : List Shard}
    (hwindow : ∀ shard ∈ shards, InWindow base shard.header.frameId) :
    ReleaseOrder (Playback.after shards) := by
  have hstep : ∀ (playback : Playback) (shard : Shard),
      Ordered base playback.reassembler playback.released →
      InWindow base shard.header.frameId →
      Ordered base (playback.step shard).reassembler
        (playback.step shard).released := fun playback shard h hshard =>
    Playback.step_rule
      (fun hskips next hnext => h.settled hshard hskips hnext)
      (fun _ _ _ _ hheld _ h => h.release hheld) h
  exact (EventRun.foldl_invariant hstep (ordered_new base)
    (EventRun.along_of_forall hwindow Playback.start)).releaseOrder

/-- The ids wrap, the second frame comes late, and the first comes twice. -/
def wrappingShards : List Shard :=
  [soleShard 0xfffffffe .idr, soleShard 0 .p, soleShard 0xffffffff .p,
    soleShard 0xfffffffe .idr, soleShard 1 .p]

theorem releaseOrder_wrappingShards :
    ReleaseOrder (Playback.after wrappingShards) ∧
      (Playback.after wrappingShards).released.map CompletedFrame.frameId =
        [0xfffffffe, 0, 1] := by
  have hwindow : ∀ shard ∈ wrappingShards,
      InWindow 0xfffffff0 shard.header.frameId := by
    decide
  exact ⟨releaseOrder_after hwindow, by decide +kernel⟩

end GameStreamer
