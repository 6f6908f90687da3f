import GameStreamer.Client.CheckedPush

/-!
# Hostile shards

Whatever headers `parse` accepts, a push fails no check of a debug build but
one: the counter of an assembly's shards has 16 bits, and with two counts
adding up to more an assembly can be sent one shard too many for it.  The
invariant of the run says that the counters count and the slots suffice.
-/

namespace GameStreamer

open Tiling Fec Reassembler

/-- A slot of an assembly holds the payload of one of its shards. -/
theorem mem_assembled {geometry : Geometry} {shards : List Shard}
    {payload : Bytes}
    (h : some payload ∈ (assembled geometry shards).shards) :
    ∃ shard ∈ shards, shard.payload = payload := by
  obtain ⟨i, -, hi⟩ := List.mem_map.mp h
  obtain ⟨shard, hfind, hpayload⟩ := Option.map_eq_some_iff.mp hi
  exact ⟨shard, List.mem_of_find?_eq_some hfind, hpayload⟩

/-- No slice in a process is longer. -/
def Shard.Fits (shard : Shard) : Prop := shard.payload.length < 2 ^ 47

/-- All shards behind the assemblies are of a possible length. -/
def Recording.Fits (recording : Recording) : Prop :=
  ∀ id, ∀ shard ∈ recording.log id, shard.Fits

section Step

variable {recording : Recording} {shard : Shard}

theorem Recording.Fits.since (hfits : recording.Fits) (hshard : shard.Fits) :
    ∀ other ∈ recording.since shard, other.Fits := by
  intro other hother
  rw [Recording.since] at hother
  split_ifs at hother
  · rcases List.mem_append.mp hother with hold | hnew
    · exact hfits _ other hold
    · rwa [List.mem_singleton.mp hnew]
  · rwa [List.mem_singleton.mp hother]

theorem Recording.Fits.step (hfits : recording.Fits) (hshard : shard.Fits) :
    (recording.step shard).Fits := by
  intro id other hother
  by_cases hskips :
    recording.playback.reassembler.skips shard.header.frameId
  · rw [Recording.step, if_pos hskips] at hother
    exact hfits id other hother
  · rw [Recording.log_step hskips] at hother
    by_cases hid : id = shard.header.frameId
    · subst hid
      rw [Function.update_self] at hother
      exact hfits.since hshard other hother
    · rw [Function.update_of_ne hid] at hother
      exact hfits id other hother

/-- The counters of what a shard finds are exact, and there is room for one
more data shard. -/
theorem Recorded.countable (h : Recorded recording) (hfits : recording.Fits)
    (hshard : shard.Fits) :
    recording.playback.reassembler.Countable shard := by
  obtain ⟨earlier, hfinds⟩ := h.finds shard
  obtain ⟨hsame, hassembly⟩ := h.assembly shard
  have htallied := shard.tallied earlier
  constructor
  case index =>
    rw [hfinds.entry, length_assembled]
    exact shard.wellFormed.2
  case data =>
    intro _ _
    have hle := (assembled shard.geometry earlier).countP_take_le
    have hne := mt UInt16.toNat_inj.mp hfinds.missing
    have hlt := shard.header.chunkCount.toNat_lt
    rw [← htallied.toNat_receivedData] at hle
    have hcount : (assembled shard.geometry earlier).dataCount =
      shard.header.chunkCount := rfl
    rw [hcount] at hle
    rw [hfinds.entry]
    omega
  case total =>
    rw [hfinds.entry, card_filled,
      htallied.toNat_receivedTotal hfinds.missing]
  case tallied =>
    rw [hassembly]
    exact hsame.tallied
  case fits =>
    intro payload hpayload
    rw [hassembly] at hpayload
    obtain ⟨other, hother, rfl⟩ := mem_assembled hpayload
    exact hfits.since hshard other hother

end Step

/-! ## Runs -/

namespace Playback

/-- `step` under checks. -/
def stepChecked (playback : Playback) (shard : Shard) : Option Playback :=
  (playback.reassembler.pushChecked shard.header shard.payload).map
    fun pushed => ⟨pushed.1, playback.released ++ pushed.2⟩

/-- All shards of a list, pushed under checks. -/
def runChecked (playback : Playback) (shards : List Shard) :
    Option Playback := shards.foldlM stepChecked playback

end Playback

theorem Recorded.stepChecked {recording : Recording} {shard : Shard}
    (h : Recorded recording) (hfits : recording.Fits) (hshard : shard.Fits) :
    recording.playback.stepChecked shard =
      if recording.playback.reassembler.Overruns shard then none
      else some (recording.playback.step shard) := by
  rw [Playback.stepChecked, pushChecked_eq (h.countable hfits hshard)]
  split_ifs <;> rfl

/-- A run panics at its first shard that overruns. -/
theorem Recorded.runChecked {recording : Recording} (h : Recorded recording)
    (hfits : recording.Fits) {shards : List Shard}
    (hshards : ∀ shard ∈ shards, shard.Fits) :
    recording.playback.runChecked shards =
      if EventRun.Along Playback.step
          (fun playback shard => ¬playback.reassembler.Overruns shard)
          recording.playback shards then
        some (shards.foldl Playback.step recording.playback)
      else none := by
  induction shards generalizing recording with
  | nil => rfl
  | cons shard shards ih =>
      have hshard := hshards shard List.mem_cons_self
      have hrest := ih (h.step shard) (hfits.step hshard)
        fun other hother => hshards other (List.mem_cons_of_mem _ hother)
      rw [Recording.playback_step] at hrest
      rw [Playback.runChecked, List.foldlM_cons,
        h.stepChecked hfits hshard, Option.bind_eq_bind]
      by_cases hover : recording.playback.reassembler.Overruns shard
      · rw [if_pos hover, if_neg fun halong => halong.1 hover]
        rfl
      · rw [if_neg hover, Option.bind_some]
        change (recording.playback.step shard).runChecked shards = _
        rw [hrest]
        by_cases halong : EventRun.Along Playback.step
            (fun playback shard => ¬playback.reassembler.Overruns shard)
            (recording.playback.step shard) shards
        · rw [if_pos halong, if_pos ⟨hover, halong⟩, List.foldl_cons]
        · rw [if_neg halong, if_neg fun hall => halong hall.2]

/-- A run panics if its last shard overruns. -/
theorem Recorded.runChecked_overrun {recording : Recording}
    (h : Recorded recording) (hfits : recording.Fits) {shards : List Shard}
    {last : Shard} (hshards : ∀ shard ∈ shards ++ [last], shard.Fits)
    (hover : (shards.foldl Recording.step
      recording).playback.reassembler.Overruns last) :
    recording.playback.runChecked (shards ++ [last]) = none := by
  rw [Recording.playback_foldl] at hover
  refine (h.runChecked hfits hshards).trans (if_neg fun halong => ?_)
  rw [EventRun.along_append] at halong
  exact halong.2.1 hover

theorem fits_start : Recording.start.Fits := nofun

/-- In a debug build a run goes through exactly when no shard overruns the
counter of the assembly that it finds, and then as without the checks. -/
theorem isSome_runChecked_iff (shards : List Shard)
    (hshards : ∀ shard ∈ shards, shard.Fits) :
    ((Playback.start.runChecked shards).isSome ↔
        EventRun.Along Playback.step
          (fun playback shard => ¬playback.reassembler.Overruns shard)
          Playback.start shards) ∧
      ∀ playback ∈ Playback.start.runChecked shards,
        playback = Playback.after shards := by
  have hrun := recorded_start.runChecked fits_start hshards
  change Playback.start.runChecked shards = _ at hrun
  rw [hrun]
  split_ifs with halong
  · exact ⟨iff_of_true rfl halong, fun playback hplayback =>
      (Option.some.inj hplayback).symm⟩
  · exact ⟨iff_of_false (by simp) halong, nofun⟩

theorem isSome_runChecked_sole :
    (Playback.start.runChecked
      [soleShard 5 .p, soleShard 3 .idr, soleShard 6 .p]).isSome :=
  (isSome_runChecked_iff [soleShard 5 .p, soleShard 3 .idr, soleShard 6 .p]
    (by simp [Shard.Fits, soleShard])).1.mpr (by decide +kernel)

/-! ## The overrun -/

/-- One shard of a frame with the most data shards and one parity shard. -/
def hostileShard (i : UInt16) : Shard where
  header :=
    { seq := 0
      sessionEpoch := 0
      frameId := 0
      kind := .p
      chunkIndex := i
      chunkCount := 65535
      parityCount := 1
      frameLen := 0
      captureTsUs := 0 }
  payload := [7]
  wellFormed := by
    constructor
    · exact (by decide : (65535 : UInt16) ≠ 0)
    · exact i.toNat_lt

/-- All indices but that of the last data shard. -/
def hostileIndices : List UInt16 :=
  ((List.range (2 ^ 16)).map UInt16.ofNat).filter fun i => i ≠ 65534

theorem mem_hostileIndices {i : UInt16} :
    i ∈ hostileIndices ↔ i ≠ 65534 := by
  rw [hostileIndices, List.mem_filter, decide_eq_true_eq]
  refine and_iff_right (List.mem_map.mpr ⟨i.toNat, ?_, UInt16.ofNat_toNat⟩)
  exact List.mem_range.mpr i.toNat_lt

/-- All shards of the frame, the last data shard at the end. -/
def hostileRun : List Shard :=
  hostileIndices.map hostileShard ++ [hostileShard 65534]

/-- The last group of the frame has no parity. -/
theorem lastGroup_mem :
    (⟨65504, 31, 65536, 0⟩ : FecGroup) ∈ groupLayout 65535 1 := by
  decide +kernel

/-- Without the last data shard the frame is never complete. -/
theorem not_covered_hostile {shards : List Shard}
    (hshards : ∀ shard ∈ shards, shard.header.chunkIndex ≠ 65534) :
    ¬(assembled (hostileShard 0).geometry shards).Covered := by
  intro hcovered
  have hgroups : (assembled (hostileShard 0).geometry shards).groups =
      groupLayout 65535 1 := by
    have hcount : (assembled (hostileShard 0).geometry
      shards).dataCount.toNat = 65535 := rfl
    have htotal : (hostileShard 0).geometry.total = 65536 := rfl
    rw [Pending.groups, length_assembled, hcount, htotal]
  have hgroup := hcovered _ (hgroups ▸ lastGroup_mem)
  have hsub : (filled (assembled (hostileShard 0).geometry shards).shards
      |>.filter (FecGroup.Has ⟨65504, 31, 65536, 0⟩)) ⊆
        Finset.Ico 65504 65534 := by
    intro i hi
    obtain ⟨hfilled, hhas⟩ := Finset.mem_filter.mp hi
    obtain ⟨-, shard, hshard, hindex⟩ := mem_filled_assembled.mp hfilled
    have hne : i ≠ 65534 := by
      rintro rfl
      exact hshards shard hshard (UInt16.toNat_inj.mp hindex)
    simp only [FecGroup.Has] at hhas
    rw [Finset.mem_Ico]
    omega
  have hcard := hgroup.trans (Finset.card_le_card hsub)
  rw [Nat.card_Ico] at hcard
  exact absurd hcard (by decide)

/-- Only the hostile frame is there, with the shards pushed for it. -/
structure Lone (recording : Recording) (shards : List Shard) : Prop where
  recorded : Recorded recording
  latest : recording.playback.reassembler.latestDelivered = none
  held : recording.playback.reassembler.held = []
  keys : ∀ id ∈ recording.playback.reassembler.pending.keys, id = 0
  since : ∀ i, recording.since (hostileShard i) = shards ++ [hostileShard i]

theorem lone_start : Lone Recording.start [] where
  recorded := recorded_start
  latest := rfl
  held := rfl
  keys := nofun
  since _ := if_neg (by simp [Recording.start, Playback.start, new])

section Lone

variable {recording : Recording} {shards : List Shard}
  (h : Lone recording shards) (i : UInt16)

include h

theorem Lone.not_skips : ¬recording.playback.reassembler.skips
    (hostileShard i).header.frameId = true := by
  rw [skips, stale, h.latest, h.held]
  exact Bool.false_ne_true

theorem Lone.assembly_eq :
    recording.playback.reassembler.assembly (hostileShard i) =
      assembled (hostileShard i).geometry (shards ++ [hostileShard i]) := by
  have hassembly := (h.recorded.assembly (hostileShard i)).2
  rw [h.since] at hassembly
  exact hassembly

theorem Lone.keys_opened :
    (recording.playback.reassembler.opened (hostileShard i)).pending.keys =
      [0] := by
  have hrest : recording.playback.reassembler.pending.keys.erase 0 = [] :=
    List.eq_nil_iff_forall_not_mem.mpr fun id hid => by
      obtain ⟨hne, hmem⟩ := (AList.keys_nodup _).mem_erase_iff.mp hid
      exact hne (h.keys id hmem)
  rw [Reassembler.keys_opened]
  exact congrArg (List.cons 0) hrest

variable (hshards : ∀ shard ∈ shards, shard.header.chunkIndex ≠ 65534) {i}
  (hi : i ≠ 65534)

include hshards hi

/-- The hostile frame waits for its last data shard. -/
theorem Lone.reassembler_step :
    (recording.step (hostileShard i)).playback.reassembler =
      recording.playback.reassembler.opened (hostileShard i) := by
  have hopen : ¬(recording.playback.reassembler.assembly
      (hostileShard i)).Complete := by
    rw [h.recorded.complete_iff, h.assembly_eq]
    refine not_covered_hostile fun shard hshard => ?_
    rcases List.mem_append.mp hshard with hold | hnew
    · exact hshards shard hold
    · rwa [List.mem_singleton.mp hnew]
  have hsettle : recording.playback.reassembler.settle (hostileShard i) =
      recording.playback.reassembler.opened (hostileShard i) := by
    rw [settle]
    dsimp only
    rw [if_pos hopen, h.keys_opened]
    exact if_neg (by decide)
  have hdrain : (recording.playback.reassembler.opened
      (hostileShard i)).drain.1 =
        recording.playback.reassembler.opened (hostileShard i) := by
    have hheld : (recording.playback.reassembler.opened
      (hostileShard i)).held = [] := h.held
    rw [drain, hheld, drainFrom, ← hheld]
  rw [Recording.playback_step, Playback.step_of_settles (h.not_skips i),
    hsettle, hdrain]

theorem Lone.step :
    Lone (recording.step (hostileShard i)) (shards ++ [hostileShard i]) := by
  have hnext := h.reassembler_step hshards hi
  constructor
  case recorded => exact h.recorded.step _
  case latest =>
    rw [hnext]
    exact h.latest
  case held =>
    rw [hnext]
    exact h.held
  case keys =>
    intro id hid
    rw [hnext, h.keys_opened] at hid
    exact List.mem_singleton.mp hid
  case since =>
    intro j
    have hlookup : (recording.playback.reassembler.opened
        (hostileShard i)).pending.lookup (hostileShard j).header.frameId =
          some (recording.playback.reassembler.assembly (hostileShard i)) :=
      AList.lookup_insert _
    have hmatches : (recording.playback.reassembler.assembly
        (hostileShard i)).Matches (hostileShard j).header := by
      rw [h.assembly_eq]
      exact (matches_assembled rfl _).mpr rfl
    have hlog : (recording.step (hostileShard i)).log
        (hostileShard j).header.frameId = shards ++ [hostileShard i] := by
      rw [Recording.log_step (h.not_skips i), ← h.since]
      exact Function.update_self _ _ _
    rw [Recording.since, hnext, hlookup, if_pos ⟨_, rfl, hmatches⟩, hlog]

end Lone

theorem Lone.after {recording : Recording} {shards : List Shard}
    (h : Lone recording shards)
    (hshards : ∀ shard ∈ shards, shard.header.chunkIndex ≠ 65534)
    {indices : List UInt16} (hindices : ∀ i ∈ indices, i ≠ 65534) :
    Lone ((indices.map hostileShard).foldl Recording.step recording)
      (shards ++ indices.map hostileShard) := by
  induction indices generalizing recording shards with
  | nil =>
      rw [List.map_nil, List.append_nil]
      exact h
  | cons i indices ih =>
      have hi := hindices i List.mem_cons_self
      have hnext : ∀ shard ∈ shards ++ [hostileShard i],
          shard.header.chunkIndex ≠ 65534 := by
        intro shard hshard
        rcases List.mem_append.mp hshard with hold | hnew
        · exact hshards shard hold
        · rwa [List.mem_singleton.mp hnew]
      have hrest := ih (h.step hshards hi) hnext
        fun j hj => hindices j (List.mem_cons_of_mem _ hj)
      rwa [List.append_assoc, List.singleton_append] at hrest

/-- All shards but the last data shard are one less than can be counted. -/
theorem Lone.overruns {recording : Recording}
    (h : Lone recording (hostileIndices.map hostileShard)) :
    recording.playback.reassembler.Overruns (hostileShard 65534) := by
  obtain ⟨earlier, hfinds⟩ := h.recorded.finds (hostileShard 65534)
  obtain rfl : hostileIndices.map hostileShard = earlier :=
    List.append_cancel_right ((h.since 65534).symm.trans hfinds.since)
  have hfilled : ∀ i : UInt16, i.toNat ∈ filled
      (recording.playback.reassembler.entryFor
        (hostileShard 65534).header).shards ↔ i ≠ 65534 := by
    intro i
    rw [hfinds.entry, mem_filled_assembled, ← mem_hostileIndices]
    constructor
    · rintro ⟨-, shard, hshard, hindex⟩
      obtain ⟨j, hj, rfl⟩ := List.mem_map.mp hshard
      rwa [← UInt16.toNat_inj.mp hindex]
    · intro hi
      exact ⟨i.toNat_lt, hostileShard i, List.mem_map_of_mem hi, rfl⟩
  refine ⟨?_, ?_, ?_⟩
  · exact h.not_skips 65534
  · have hempty := mt (hfilled 65534).mp (by decide)
    rw [mem_filled, isPresent, Option.not_isSome_iff_eq_none] at hempty
    exact hempty
  · have hsub : (Finset.range 65536).erase 65534 ⊆ filled
        (recording.playback.reassembler.entryFor
          (hostileShard 65534).header).shards := by
      intro i hi
      obtain ⟨hne, hrange⟩ := Finset.mem_erase.mp hi
      have hi : (UInt16.ofNat i).toNat = i := by
        rw [UInt16.toNat_ofNat',
          Nat.mod_eq_of_lt (Finset.mem_range.mp hrange)]
      rw [← hi, hfilled]
      rintro heq
      rw [heq] at hi
      exact hne hi.symm
    have hcard := Finset.card_le_card hsub
    rwa [Finset.card_erase_of_mem (Finset.mem_range.mpr (by decide)),
      Finset.card_range] at hcard

/-- The shards are all of one byte, and the last one overruns. -/
theorem runChecked_hostileRun :
    Playback.start.runChecked hostileRun = none ∧
      ∀ shard ∈ hostileRun, shard.payload.length = 1 := by
  have hlength : ∀ shard ∈ hostileRun, shard.payload.length = 1 := by
    intro shard hshard
    rcases List.mem_append.mp hshard with hfirst | hlast
    · obtain ⟨i, -, rfl⟩ := List.mem_map.mp hfirst
      rfl
    · rw [List.mem_singleton.mp hlast]
      rfl
  have hfits : ∀ shard ∈ hostileRun, shard.Fits := fun shard hshard => by
    rw [Shard.Fits, hlength shard hshard]
    exact Nat.one_lt_two_pow (by decide)
  have hlone := lone_start.after nofun
    fun i hi => mem_hostileIndices.mp hi
  rw [List.nil_append] at hlone
  exact ⟨recorded_start.runChecked_overrun fits_start hfits hlone.overruns,
    hlength⟩

end GameStreamer
