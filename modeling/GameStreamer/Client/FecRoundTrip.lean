import GameStreamer.Client.Reconstruction

/-!
# From the chunker to the released frame

A fresh reassembler that gets datagrams of one sent frame, in any order and
with losses and duplicates, waits until every group is covered, then releases
the frame and drops what trails it.  This joins the chunker, the parser, the
erasure code and the reassembler into one statement.
-/

namespace GameStreamer

open Tiling Fec Chunking

namespace SentFrame

variable (f : SentFrame) {arrived : Finset ℕ}

/-! ## A shard arrives -/

/-- A slot is filled and counted once. -/
theorem store_pendingAfter {i : ℕ} (hi : i < f.total) :
    (f.pendingAfter arrived).store (f.header i) (f.wire.getD i []) =
      f.pendingAfter (insert i arrived) := by
  have hlt : i < f.wire.length := by rwa [f.length_wire]
  have hslot : (slots f.wire arrived).getD i none = none ↔ i ∉ arrived := by
    rw [List.getD_eq_getElem?_getD, getElem?_slots,
      List.getElem?_eq_getElem hlt, Option.map_some, Option.getD_some]
    split_ifs with hmem <;> simp [hmem]
  have hdata : (f.header i).chunkIndex < (f.header i).chunkCount ↔
      i < f.count := by
    rw [UInt16.lt_iff_toNat_lt, f.toNat_chunkIndex hi, f.toNat_chunkCount]
  rw [Pending.store, f.toNat_chunkIndex hi, f.shards_pendingAfter]
  by_cases hmem : i ∈ arrived
  · rw [if_neg fun h => hslot.mp h hmem, Finset.insert_eq_of_mem hmem]
  · have hfilter : i ∉ arrived.filter (· < f.count) :=
      fun h => hmem (Finset.mem_filter.mp h).1
    rw [if_pos (hslot.mpr hmem), set_slots arrived hlt]
    simp only [hdata, pendingAfter, Finset.card_insert_of_notMem hmem,
      Finset.filter_insert, UInt16.ofNat_add]
    split_ifs with hless
    · rw [Finset.card_insert_of_notMem hfilter, UInt16.ofNat_add]
      rfl
    · rfl

theorem new_header (i : ℕ) : Pending.new (f.header i) = f.pendingAfter ∅ := by
  rw [Pending.new, f.totalShards_header, pendingAfter, slots_empty,
    f.length_wire]
  rfl

theorem matches_header (i : ℕ) :
    (f.pendingAfter arrived).Matches (f.header i) := by
  refine ⟨rfl, rfl, ?_, rfl⟩
  rw [f.totalShards_header, length_shards]
  rfl

/-! ## The reassembler -/

/-- What the receiver is to release. -/
def completed : CompletedFrame where
  frameId := f.template.frameId
  kind := f.template.kind
  captureTsUs := f.template.captureTsUs
  data := f.frameData

/-- The reassembler before the frame is complete. -/
def waiting (arrived : Finset ℕ) : Reassembler :=
  { Reassembler.new with
    pending :=
      if arrived = ∅ then ∅
      else AList.singleton f.template.frameId (f.pendingAfter arrived) }

theorem entryFor_waiting (arrived : Finset ℕ) (i : ℕ) :
    (f.waiting arrived).entryFor (f.header i) = f.pendingAfter arrived := by
  have hlookup : ((f.waiting arrived).pending.lookup
      (f.header i).frameId).getD (.new (f.header i)) =
        f.pendingAfter arrived := by
    by_cases hnone : arrived = ∅
    · rw [waiting, if_pos hnone, AList.lookup_empty, Option.getD_none,
        new_header, hnone]
    · rw [waiting, if_neg hnone, ← AList.insert_empty]
      exact congrArg (Option.getD · _) (AList.lookup_insert ∅)
  rw [Reassembler.entryFor, hlookup, if_pos (f.matches_header i)]

theorem insert_waiting (arrived : Finset ℕ) (pending : Pending) :
    (f.waiting arrived).pending.insert f.template.frameId pending =
      AList.singleton f.template.frameId pending := by
  rw [waiting]
  dsimp only
  split_ifs
  · exact AList.insert_empty _ _
  · exact AList.insert_singleton_eq

theorem erase_singleton (id : UInt32) (pending : Pending) :
    (AList.singleton (β := fun _ => Pending) id pending).erase id = ∅ := by
  apply AList.ext
  exact List.kerase_cons_eq rfl

end SentFrame

namespace Reassembler

theorem drain_nil {reassembler : Reassembler} (hheld : reassembler.held = []) :
    reassembler.drain = (reassembler, []) := by
  rw [drain, hheld, drainFrom, ← hheld]

/-- With nothing pending a held frame goes out. -/
theorem drain_singleton {reassembler : Reassembler} {frame : CompletedFrame}
    (hpending : reassembler.pending = ∅) (hheld : reassembler.held = [frame]) :
    ∃ after, reassembler.drain = (after, [frame]) ∧
      after.latestDelivered = some frame.frameId := by
  have hfree : ¬((∃ id ∈ reassembler.pending.keys, older id frame.frameId) ∧
      ¬(frame.kind = .idr ∨ holdLimit < [frame].length)) := by
    rintro ⟨⟨id, hid, -⟩, -⟩
    rw [hpending] at hid
    cases hid
  rw [drain, hheld, drainFrom]
  simp only [if_neg hfree]
  exact ⟨_, rfl, rfl⟩

end Reassembler

namespace SentFrame

variable (f : SentFrame)

/-- Where a run with the shards `arrived` stands. -/
inductive Stage (arrived : Finset ℕ) : Reassembler → Prop
  | waiting (hopen : ¬Covers f.groups arrived) :
      Stage arrived (f.waiting arrived)
  | delivered {reassembler : Reassembler} (hcovers : Covers f.groups arrived)
      (hlatest : reassembler.latestDelivered = some f.template.frameId) :
      Stage arrived reassembler

/-- What goes out when the arrived shards grow from `before` to `after`. -/
def release (before after : Finset ℕ) : List CompletedFrame :=
  if Covers f.groups after ∧ ¬Covers f.groups before then [f.completed] else []

theorem covers_mono {before after : Finset ℕ} (hsub : before ⊆ after)
    (hcovers : Covers f.groups before) : Covers f.groups after :=
  fun g hg => (hcovers g hg).trans
    (Finset.card_le_card (Finset.filter_subset_filter _ hsub))

/-- A shard that completes the frame releases it, directly or through
reconstruction. -/
theorem push_completing {arrived : Finset ℕ} {i : ℕ} (hi : i < f.total)
    (hwithin : f.Within (insert i arrived))
    (hcovers : Covers f.groups (insert i arrived)) :
    ∃ after, (f.waiting arrived).push (f.header i) (f.wire.getD i []) =
        (after, [f.completed]) ∧
      after.latestDelivered = some f.template.frameId := by
  have hcomplete := (f.complete_iff hwithin).mpr hcovers
  rw [Pending.Complete] at hcomplete
  have hpending := (congrArg (AList.erase f.template.frameId)
    (f.insert_waiting arrived (f.pendingAfter (insert i arrived)))).trans
      (erase_singleton f.template.frameId _)
  rw [Reassembler.push, if_neg (show ¬(f.waiting arrived).stale _ = true from
    Bool.false_ne_true), if_neg (show ¬(f.waiting arrived).held.any _ = true
      from Bool.false_ne_true), entryFor_waiting, f.store_pendingAfter hi]
  dsimp only
  rw [if_neg (not_not.mpr hcomplete)]
  split_ifs with hdirect
  · rw [f.assembleData_eq ((f.direct_iff hwithin).mp hdirect)]
    exact Reassembler.drain_singleton hpending rfl
  · rw [f.reconstruct_eq hwithin hcovers
      (mt (f.direct_iff hwithin).mpr hdirect)]
    exact Reassembler.drain_singleton hpending rfl

/-- A shard that does not complete the frame is kept. -/
theorem push_waiting {arrived : Finset ℕ} {i : ℕ} (hi : i < f.total)
    (hwithin : f.Within (insert i arrived))
    (hopen : ¬Covers f.groups (insert i arrived)) :
    (f.waiting arrived).push (f.header i) (f.wire.getD i []) =
      (f.waiting (insert i arrived), []) := by
  have hincomplete := mt (f.complete_iff hwithin).mp hopen
  rw [Pending.Complete] at hincomplete
  have hpending : (f.waiting arrived).pending.insert (f.header i).frameId
      (f.pendingAfter (insert i arrived)) = _ := f.insert_waiting arrived _
  have hwaiting : f.waiting (insert i arrived) =
      { Reassembler.new with
        pending := AList.singleton f.template.frameId
          (f.pendingAfter (insert i arrived)) } := by
    rw [waiting, if_neg (Finset.insert_ne_empty i arrived)]
  rw [Reassembler.push, if_neg (show ¬(f.waiting arrived).stale _ = true from
    Bool.false_ne_true), if_neg (show ¬(f.waiting arrived).held.any _ = true
      from Bool.false_ne_true), entryFor_waiting, f.store_pendingAfter hi]
  dsimp only
  rw [if_pos hincomplete, hpending, AList.keys_singleton,
    List.length_singleton, if_neg (show ¬maxPending < 1 by decide), hwaiting]
  exact Reassembler.drain_nil rfl

/-- One datagram. -/
theorem receive_stage {arrived : Finset ℕ} (hwithin : f.Within arrived) {i : ℕ}
    (hi : i < f.total) {reassembler : Reassembler}
    (hstage : f.Stage arrived reassembler) :
    ∃ after, reassembler.receive (f.datagram i) =
        (after, f.release arrived (insert i arrived)) ∧
      f.Stage (insert i arrived) after := by
  have hnext : f.Within (insert i arrived) :=
    Finset.insert_subset (Finset.mem_range.mpr hi) hwithin
  rw [Reassembler.receive, f.parse_datagram hi]
  dsimp only
  cases hstage with
  | delivered hcovers hlatest =>
      have hstale : reassembler.stale (f.header i).frameId = true := by
        have hage : f.template.frameId - (f.header i).frameId = 0 :=
          UInt32.sub_self _
        simp only [Reassembler.stale, hlatest, hage]
        rfl
      refine ⟨reassembler, ?_, .delivered
        (f.covers_mono (Finset.subset_insert i arrived) hcovers) hlatest⟩
      rw [Reassembler.push, if_pos hstale, release,
        if_neg fun h => h.2 hcovers]
  | waiting hopen =>
      by_cases hcovers : Covers f.groups (insert i arrived)
      · obtain ⟨after, hpush, hlatest⟩ := f.push_completing hi hnext hcovers
        refine ⟨after, ?_, .delivered hcovers hlatest⟩
        rw [hpush, release, if_pos ⟨hcovers, hopen⟩]
      · refine ⟨_, ?_, .waiting hcovers⟩
        rw [f.push_waiting hi hnext hcovers, release,
          if_neg fun h => hcovers h.1]

/-- The shards that have arrived after the first `t` datagrams. -/
def arrivedBy (arrived : Finset ℕ) (indices : List ℕ) (t : ℕ) : Finset ℕ :=
  arrived ∪ (indices.take t).toFinset

theorem arrivedBy_zero (arrived : Finset ℕ) (indices : List ℕ) :
    arrivedBy arrived indices 0 = arrived := by
  rw [arrivedBy, List.take_zero, List.toFinset_nil, Finset.union_empty]

theorem arrivedBy_cons (arrived : Finset ℕ) (i : ℕ) (indices : List ℕ) (t : ℕ) :
    arrivedBy arrived (i :: indices) (t + 1) =
      arrivedBy (insert i arrived) indices t := by
  rw [arrivedBy, arrivedBy, List.take_succ_cons, List.toFinset_cons,
    Finset.union_insert, Finset.insert_union]

/-- What each datagram of a run releases. -/
def releases (arrived : Finset ℕ) (indices : List ℕ) :
    List (List CompletedFrame) :=
  (List.range indices.length).map fun t =>
    f.release (arrivedBy arrived indices t) (arrivedBy arrived indices (t + 1))

theorem releases_cons (arrived : Finset ℕ) (i : ℕ) (indices : List ℕ) :
    f.releases arrived (i :: indices) =
      f.release arrived (insert i arrived) ::
        f.releases (insert i arrived) indices := by
  rw [releases, List.length_cons, List.range_succ_eq_map, List.map_cons,
    List.map_map, arrivedBy_cons, arrivedBy_zero, arrivedBy_zero, releases]
  refine congrArg (List.cons _) (List.map_congr_left fun t _ => ?_)
  rw [Function.comp_apply, Nat.succ_eq_add_one, arrivedBy_cons, arrivedBy_cons]

/-- A run of datagrams releases what its shards complete. -/
theorem receiveAll_stage {arrived : Finset ℕ} (hwithin : f.Within arrived)
    {reassembler : Reassembler} (hstage : f.Stage arrived reassembler)
    {indices : List ℕ} (hindices : ∀ i ∈ indices, i < f.total) :
    reassembler.receiveAll (indices.map f.datagram) =
      f.releases arrived indices := by
  induction indices generalizing arrived reassembler with
  | nil => rfl
  | cons i indices ih =>
      have hi := hindices i List.mem_cons_self
      obtain ⟨after, hreceive, hnext⟩ := f.receive_stage hwithin hi hstage
      have hrest := ih (Finset.insert_subset (Finset.mem_range.mpr hi) hwithin)
        hnext fun j hj => hindices j (List.mem_cons_of_mem i hj)
      rw [List.map_cons, Reassembler.receiveAll, hreceive, releases_cons]
      exact congrArg (List.cons _) hrest

theorem release_trans {before between after : Finset ℕ}
    (hfirst : before ⊆ between) (hsecond : between ⊆ after) :
    f.release before between ++ f.release between after =
      f.release before after := by
  have hmono := f.covers_mono hfirst
  have hmono' := f.covers_mono hsecond
  simp only [release]
  by_cases hbetween : Covers f.groups between
  · simp [hbetween, hmono' hbetween]
  · have hbefore : ¬Covers f.groups before := mt hmono hbetween
    simp [hbetween, hbefore]

/-- The frame goes out at most once, when its groups get covered. -/
theorem flatten_releases (arrived : Finset ℕ) (indices : List ℕ) :
    (f.releases arrived indices).flatten =
      f.release arrived (arrivedBy arrived indices indices.length) := by
  induction indices generalizing arrived with
  | nil =>
      rw [List.length_nil, arrivedBy_zero, release,
        if_neg fun h => h.2 h.1]
      rfl
  | cons i indices ih =>
      rw [releases_cons, List.flatten_cons, ih, List.length_cons,
        arrivedBy_cons]
      exact f.release_trans (Finset.subset_insert i arrived)
        Finset.subset_union_left

theorem not_covers_empty : ¬Covers f.groups ∅ := by
  intro hcovers
  have hcard := f.count_le_card (Finset.empty_subset _) hcovers
  exact absurd hcard (Nat.not_le.mpr f.count_pos)

/-- A fresh reassembler waits for the frame. -/
theorem stage_new : f.Stage ∅ Reassembler.new := by
  have hwaiting := Stage.waiting (f := f) f.not_covers_empty
  rwa [waiting, if_pos rfl] at hwaiting

end SentFrame

/-! ## The round trip -/

/-- The groups that the chunker splits a frame into. -/
def frameGroups (frameData : Bytes) (maxDatagram : ℕ)
    (parityPermille : UInt32) : List FecGroup :=
  let count := max (divCeil frameData.length (maxDatagram - videoHeaderLen)) 1
  groupLayout count (parityFor count parityPermille)

/-- The shards that the first `t` of the arriving datagrams carry. -/
def shardsBy {sent : ℕ} (arrivals : List (Fin sent)) (t : ℕ) : Finset ℕ :=
  ((arrivals.take t).map Fin.val).toFinset

/-- Datagrams of one frame, in any order, with losses and duplicates, release
exactly that frame, at the first of them after which every group is covered,
and nothing else. -/
theorem receiveAll_chunkVideoFrame {template : VideoDatagramHeader}
    {frameData : Bytes} {maxDatagram : ℕ} {parityPermille : UInt32}
    {datagrams : List Bytes} (hnonempty : frameData ≠ [])
    (hshort : frameData.length < 2 ^ 32)
    (hok : chunkVideoFrame template frameData maxDatagram parityPermille =
      some (.ok datagrams))
    (arrivals : List (Fin datagrams.length)) :
    let groups := frameGroups frameData maxDatagram parityPermille
    let frame : CompletedFrame :=
      { frameId := template.frameId
        kind := template.kind
        captureTsUs := template.captureTsUs
        data := frameData }
    let outputs := Reassembler.new.receiveAll (arrivals.map datagrams.get)
    outputs = (List.range arrivals.length).map (fun t =>
        if Covers groups (shardsBy arrivals (t + 1)) ∧
            ¬Covers groups (shardsBy arrivals t) then [frame] else []) ∧
      outputs.flatten =
        if Covers groups (shardsBy arrivals arrivals.length) then [frame]
        else [] := by
  obtain ⟨f, rfl, rfl, hpayload, hparity, rfl⟩ :=
    exists_sentFrame hnonempty hshort hok
  intro groups frame outputs
  have hgroups : groups = f.groups := by
    have hcount : max (divCeil f.frameData.length
        (maxDatagram - videoHeaderLen)) 1 = f.count := by
      rw [← hpayload, ← length_chunks]
      exact Nat.max_eq_left f.count_pos
    simp only [groups, frameGroups, hcount, SentFrame.groups]
    exact congrArg (groupLayout f.count) hparity.symm
  have harrivals : arrivals.map ((List.range f.total).map f.datagram).get =
      (arrivals.map Fin.val).map f.datagram := by
    rw [List.map_map]
    apply List.map_congr_left
    intro i _
    simp
  have hindices : ∀ i ∈ arrivals.map Fin.val, i < f.total := by
    intro i hi
    obtain ⟨index, -, rfl⟩ := List.mem_map.mp hi
    exact index.isLt.trans_eq (by rw [List.length_map, List.length_range])
  have hby : ∀ t, SentFrame.arrivedBy ∅ (arrivals.map Fin.val) t =
      shardsBy arrivals t := by
    intro t
    rw [SentFrame.arrivedBy, Finset.empty_union, ← List.map_take, shardsBy]
  have hrun : outputs = f.releases ∅ (arrivals.map Fin.val) := by
    simp only [outputs, harrivals]
    exact f.receiveAll_stage (Finset.empty_subset _) f.stage_new hindices
  have hlength : (arrivals.map Fin.val).length = arrivals.length :=
    List.length_map _
  rw [hrun, hgroups]
  constructor
  · simp only [SentFrame.releases, hlength, hby]
    rfl
  · rw [f.flatten_releases, hlength, hby, SentFrame.release]
    simp only [f.not_covers_empty, not_false_eq_true, and_true]
    rfl

/-- Frame 7 of three bytes, cut into chunks of two. -/
def threeBytesHeader : VideoDatagramHeader where
  seq := 0
  sessionEpoch := 3
  frameId := 7
  kind := .p
  chunkIndex := 0
  chunkCount := 0
  parityCount := 0
  frameLen := 0
  captureTsUs := 99

/-- Its two data shards and its parity shard. -/
def threeBytesDatagrams : List Bytes :=
  [[1, 0, 0, 0, 0, 3, 0, 0, 0, 7, 1, 0, 0, 0, 2, 1, 0, 0, 0, 3, 0, 0, 0, 99,
      1, 2],
    [1, 0, 0, 0, 0, 3, 0, 0, 0, 7, 1, 0, 1, 0, 2, 1, 0, 0, 0, 3, 0, 0, 0, 99,
      3],
    [1, 0, 0, 0, 0, 3, 0, 0, 0, 7, 1, 0, 2, 0, 2, 1, 0, 0, 0, 3, 0, 0, 0, 99,
      143, 1]]

/-- With the first data shard lost, the short one sent twice and the parity
last, the frame comes back from the parity. -/
theorem receiveAll_threeBytes :
    chunkVideoFrame threeBytesHeader [1, 2, 3] 26 500 =
        some (.ok threeBytesDatagrams) ∧
      Reassembler.new.receiveAll
          (([1, 1, 2] : List (Fin 3)).map threeBytesDatagrams.get) =
        [[], [], [⟨7, .p, 99, [1, 2, 3]⟩]] := by
  have hok : chunkVideoFrame threeBytesHeader [1, 2, 3] 26 500 =
      some (.ok threeBytesDatagrams) := by
    decide +kernel
  refine ⟨hok, ?_⟩
  have hrun := (receiveAll_chunkVideoFrame (by decide) (by decide) hok
    ([1, 1, 2] : List (Fin 3))).1
  exact hrun.trans (by decide +kernel)

end GameStreamer
