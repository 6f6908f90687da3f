import GameStreamer.Client.ReassemblyRun
import Mathlib.Logic.Function.Basic

/-!
# What a frame is put together from

An assembly is a function of the shards that were pushed for it since it was
last started: they all carry its geometry, and of several shards with one index
the first counts.  The counters say no more than its slots do, so a frame
completes with the first shard that covers its groups.
-/

namespace GameStreamer

open Tiling Fec Reassembler

/-- What two shards must agree on to be put together. -/
structure Geometry where
  frameId : UInt32
  epoch : UInt8
  chunkCount : UInt16
  total : ℕ
  frameLen : UInt32
  deriving DecidableEq, Repr

def Shard.geometry (shard : Shard) : Geometry where
  frameId := shard.header.frameId
  epoch := shard.header.sessionEpoch
  chunkCount := shard.header.chunkCount
  total := totalShards shard.header.chunkCount shard.header.parityCount
  frameLen := shard.header.frameLen

/-- The payload of the first shard with the index. -/
def firstPayload (shards : List Shard) (i : ℕ) : Option Bytes :=
  (shards.find? fun shard => shard.header.chunkIndex.toNat = i).map
    Shard.payload

/-- The assembly of a list of shards. -/
def assembled (geometry : Geometry) (shards : List Shard) : Pending :=
  let slots := (List.range geometry.total).map (firstPayload shards)
  { shards := slots
    dataCount := geometry.chunkCount
    receivedData := UInt16.ofNat
      ((slots.take geometry.chunkCount.toNat).countP Option.isSome)
    receivedTotal := UInt16.ofNat (slots.countP Option.isSome)
    frameLen := geometry.frameLen
    epoch := geometry.epoch }

@[simp]
theorem length_assembled (geometry : Geometry) (shards : List Shard) :
    (assembled geometry shards).shards.length = geometry.total := by
  simp [assembled]

theorem getD_assembled {geometry : Geometry} {i : ℕ}
    (hi : i < geometry.total) (shards : List Shard) :
    (assembled geometry shards).shards.getD i none =
      firstPayload shards i := by
  simp [assembled, hi]

/-- An assembly matches the shards of its geometry. -/
theorem matches_assembled {geometry : Geometry} {shard : Shard}
    (hid : shard.header.frameId = geometry.frameId) (shards : List Shard) :
    (assembled geometry shards).Matches shard.header ↔
      shard.geometry = geometry := by
  obtain ⟨frameId, epoch, chunkCount, total, frameLen⟩ := geometry
  rw [Pending.Matches, length_assembled, Shard.geometry]
  simp only [assembled, Geometry.mk.injEq]
  constructor
  · rintro ⟨hepoch, hcount, htotal, hlen⟩
    exact ⟨hid, hepoch.symm, hcount.symm, htotal.symm, hlen.symm⟩
  · rintro ⟨-, hepoch, hcount, htotal, hlen⟩
    exact ⟨hepoch.symm, hcount.symm, htotal.symm, hlen.symm⟩

/-- A fresh assembly is that of no shards. -/
theorem new_eq_assembled (shard : Shard) :
    Pending.new shard.header = assembled shard.geometry [] := by
  have hslots : (List.range shard.geometry.total).map (firstPayload []) =
      List.replicate shard.geometry.total none := by
    rw [List.eq_replicate_iff]
    simp [firstPayload]
  rw [assembled, hslots, Pending.new, List.take_replicate]
  simp [Shard.geometry, List.countP_replicate]

theorem firstPayload_concat (shards : List Shard) (shard : Shard) (i : ℕ) :
    firstPayload (shards ++ [shard]) i =
      (firstPayload shards i).or
        (if shard.header.chunkIndex.toNat = i then some shard.payload
          else none) := by
  rw [firstPayload, firstPayload, List.find?_append, Option.map_or]
  congr 1
  by_cases hi : shard.header.chunkIndex.toNat = i <;> simp [hi]

/-- The filled slots are those of the shards. -/
theorem mem_filled_assembled {geometry : Geometry} {shards : List Shard}
    {i : ℕ} :
    i ∈ filled (assembled geometry shards).shards ↔
      i < geometry.total ∧
        ∃ shard ∈ shards, shard.header.chunkIndex.toNat = i := by
  rw [filled, Finset.mem_filter, Finset.mem_range, length_assembled]
  refine and_congr_right fun hi => ?_
  rw [isPresent, getD_assembled hi, firstPayload, Option.isSome_map,
    List.find?_isSome]
  simp only [decide_eq_true_eq]

theorem tallied_assembled {geometry : Geometry}
    (hpos : 0 < geometry.chunkCount.toNat)
    (hdata : geometry.chunkCount.toNat ≤ geometry.total)
    (htotal : geometry.total ≤ geometry.chunkCount.toNat + 255)
    (shards : List Shard) : (assembled geometry shards).Tallied where
  pos := hpos
  data_le := by
    rw [length_assembled]
    exact hdata
  le_data := by
    rw [length_assembled]
    exact htotal
  addressed i hi := by
    obtain ⟨-, shard, -, rfl⟩ := mem_filled_assembled.mp hi
    exact shard.header.chunkIndex.toNat_lt
  data := rfl
  total := rfl

/-- Filling an empty slot. -/
theorem countP_set_some {shards : Shards} {i : ℕ} (hi : i < shards.length)
    (hempty : shards.getD i none = none) (payload : Bytes) :
    (shards.set i (some payload)).countP Option.isSome =
      shards.countP Option.isSome + 1 := by
  rw [List.getD_eq_getElem _ _ hi] at hempty
  have hold : shards.countP Option.isSome =
      (shards.take i ++ shards[i] :: shards.drop (i + 1)).countP
        Option.isSome := by
    rw [List.getElem_cons_drop, List.take_append_drop]
  rw [List.set_eq_take_append_cons_drop, if_pos hi, hold, hempty]
  simp [List.countP_append, Nat.add_assoc]

theorem countP_take_set_some {shards : Shards} {i k : ℕ}
    (hi : i < shards.length) (hempty : shards.getD i none = none)
    (payload : Bytes) :
    ((shards.set i (some payload)).take k).countP Option.isSome =
      (shards.take k).countP Option.isSome + if i < k then 1 else 0 := by
  rw [List.take_set]
  split_ifs with hik
  · refine countP_set_some ?_ ?_ payload
    · rw [List.length_take]
      omega
    · rw [List.getD_eq_getElem?_getD, List.getElem?_take_of_lt hik,
        ← List.getD_eq_getElem?_getD, hempty]
  · rw [List.set_eq_of_length_le]
    · rfl
    · exact (List.length_take_le _ _).trans (Nat.not_lt.mp hik)

/-- A shard with a new index fills its slot. -/
theorem shards_assembled_concat {geometry : Geometry} {shards : List Shard}
    {shard : Shard}
    (hempty : firstPayload shards shard.header.chunkIndex.toNat = none) :
    (assembled geometry (shards ++ [shard])).shards =
      (assembled geometry shards).shards.set shard.header.chunkIndex.toNat
        (some shard.payload) := by
  apply List.ext_getElem
  · simp
  · intro i hi hi'
    rw [length_assembled] at hi
    simp only [assembled, List.getElem_map, List.getElem_range,
      List.getElem_set, firstPayload_concat]
    split_ifs with heq
    · rw [← heq, hempty, Option.none_or]
    · rw [Option.or_none]

/-- A shard whose index was there before adds nothing. -/
theorem assembled_concat_of_some {shards : List Shard} {shard : Shard}
    (h : firstPayload shards shard.header.chunkIndex.toNat ≠ none)
    (geometry : Geometry) :
    assembled geometry (shards ++ [shard]) = assembled geometry shards := by
  have hsame : firstPayload (shards ++ [shard]) = firstPayload shards := by
    funext i
    rw [firstPayload_concat]
    split_ifs with hi
    · subst hi
      obtain ⟨payload, hpayload⟩ := Option.ne_none_iff_exists'.mp h
      rw [hpayload, Option.some_or]
    · exact Option.or_none
  rw [assembled, assembled, hsame]

/-- Storing a shard of the geometry adds it to the list. -/
theorem store_assembled {geometry : Geometry} {shard : Shard}
    (hgeometry : shard.geometry = geometry) (shards : List Shard) :
    (assembled geometry shards).store shard.header shard.payload =
      assembled geometry (shards ++ [shard]) := by
  have hindex : shard.header.chunkIndex.toNat < geometry.total := by
    rw [← hgeometry]
    exact shard.wellFormed.2
  have hcount : shard.header.chunkCount = geometry.chunkCount :=
    congrArg Geometry.chunkCount hgeometry
  have hslot := getD_assembled hindex shards
  have hlength : shard.header.chunkIndex.toNat <
      (assembled geometry shards).shards.length := by
    rwa [length_assembled]
  rw [Pending.store]
  by_cases hempty : (assembled geometry shards).shards.getD
      shard.header.chunkIndex.toNat none = none
  · have hslots := @shards_assembled_concat geometry shards shard
      (hslot.symm.trans hempty)
    have htotal := countP_set_some hlength hempty shard.payload
    have hdata := countP_take_set_some
      (k := geometry.chunkCount.toNat) hlength hempty shard.payload
    rw [← hslots] at htotal hdata
    have hfields : assembled geometry (shards ++ [shard]) =
        { shards := (assembled geometry (shards ++ [shard])).shards
          dataCount := geometry.chunkCount
          receivedData := UInt16.ofNat
            (((assembled geometry (shards ++ [shard])).shards.take
              geometry.chunkCount.toNat).countP Option.isSome)
          receivedTotal := UInt16.ofNat
            ((assembled geometry (shards ++ [shard])).shards.countP
              Option.isSome)
          frameLen := geometry.frameLen
          epoch := geometry.epoch } := rfl
    rw [if_pos hempty, hfields, hdata, htotal, hslots, hcount,
      UInt16.ofNat_add, UInt16.ofNat_add]
    by_cases hlt : shard.header.chunkIndex < geometry.chunkCount
    · rw [if_pos hlt, if_pos (UInt16.lt_iff_toNat_lt.mp hlt)]
      rfl
    · have hzero : UInt16.ofNat 0 = 0 := rfl
      rw [if_neg hlt, if_neg (mt UInt16.lt_iff_toNat_lt.mpr hlt), hzero,
        UInt16.add_zero]
      rfl
  · rw [if_neg hempty, assembled_concat_of_some (hslot ▸ hempty)]

/-! ## Runs that remember their shards -/

/-- A run with the shards behind its frames.  The source keeps only the slots
of an assembly; the recording keeps every shard that was pushed for it since it
was last started. -/
structure Recording where
  playback : Playback
  /-- By frame id, the shards that were pushed for its assembly since that was
  last started. -/
  log : UInt32 → List Shard
  /-- Every completed frame, with the shards of its assembly. -/
  made : List (CompletedFrame × List Shard)

namespace Recording

def start : Recording := ⟨Playback.start, fun _ => [], []⟩

/-- The log of a shard's assembly, which the shard continues if the pending
one matches it. -/
def since (recording : Recording) (shard : Shard) : List Shard :=
  if ∃ entry ∈ recording.playback.reassembler.pending.lookup
      shard.header.frameId, entry.Matches shard.header then
    recording.log shard.header.frameId ++ [shard]
  else [shard]

/-- One push.  A shard that is skipped leaves no trace; any other continues or
restarts its assembly, and completes a frame when it covers it. -/
def step (recording : Recording) (shard : Shard) : Recording :=
  let reassembler := recording.playback.reassembler
  if reassembler.skips shard.header.frameId then recording
  else
    let entry := reassembler.assembly shard
    let shards := recording.since shard
    { playback := recording.playback.step shard
      log := Function.update recording.log shard.header.frameId shards
      made := recording.made ++
        if entry.Complete then
          (entry.frameData.map fun data =>
            (completed shard data, shards)).toList
        else [] }

/-- The state after a list of shards. -/
def after (shards : List Shard) : Recording := shards.foldl step start

end Recording

/-- The shards have one geometry, and there is one. -/
structure OfGeometry (geometry : Geometry) (shards : List Shard) : Prop where
  nonempty : shards ≠ []
  same : ∀ shard ∈ shards, shard.geometry = geometry

/-- The counters of every assembly of a shard's geometry. -/
theorem Shard.tallied (shard : Shard) (shards : List Shard) :
    (assembled shard.geometry shards).Tallied := by
  obtain ⟨hpos, -⟩ := shard.wellFormed
  have hparity := shard.header.parityCount.toNat_lt
  refine tallied_assembled ?_ (Nat.le_add_right _ _) ?_ shards
  · exact Nat.pos_of_ne_zero fun hzero => hpos (UInt16.toNat_inj.mp hzero)
  · change shard.header.chunkCount.toNat + shard.header.parityCount.toNat ≤
      shard.header.chunkCount.toNat + 255
    omega

theorem OfGeometry.tallied {geometry : Geometry} {shards : List Shard}
    (h : OfGeometry geometry shards) :
    (assembled geometry shards).Tallied := by
  obtain ⟨shard, hshard⟩ := List.exists_mem_of_ne_nil shards h.nonempty
  obtain rfl := h.same shard hshard
  exact shard.tallied shards

/-- A pending assembly is that of its logged shards, and not complete. -/
structure Open (id : UInt32) (entry : Pending) (shards : List Shard)
    (geometry : Geometry) : Prop where
  same : OfGeometry geometry shards
  id : geometry.frameId = id
  assembly : entry = assembled geometry shards
  uncovered : ¬entry.Covered

/-- A completed frame is what its shards give. -/
structure Made (frame : CompletedFrame) (shards : List Shard)
    (geometry : Geometry) : Prop where
  same : OfGeometry geometry shards
  id : geometry.frameId = frame.frameId
  data : (assembled geometry shards).frameData = some frame.data

/-- Every assembly and every frame has its shards.  A pending assembly is that
of its log and is not covered; a completed frame is what its shards give. -/
structure Recorded (recording : Recording) : Prop where
  pending : ∀ id entry,
    recording.playback.reassembler.pending.lookup id = some entry →
      ∃ geometry, Open id entry (recording.log id) geometry
  made : ∀ frame shards, (frame, shards) ∈ recording.made →
    ∃ geometry, Made frame shards geometry
  frames : ∀ frame ∈
    recording.playback.released ++ recording.playback.reassembler.held,
    ∃ shards, (frame, shards) ∈ recording.made

theorem recorded_start : Recorded Recording.start :=
  ⟨nofun, nofun, nofun⟩

section Step

variable {recording : Recording} {shard : Shard}

/-- What a shard finds: an assembly of earlier shards of its geometry, with
data missing. -/
structure Finds (recording : Recording) (shard : Shard)
    (earlier : List Shard) : Prop where
  since : recording.since shard = earlier ++ [shard]
  entry : recording.playback.reassembler.entryFor shard.header =
    assembled shard.geometry earlier
  same : ∀ other ∈ earlier, other.geometry = shard.geometry
  logged : ∀ other ∈ earlier, other ∈ recording.log shard.header.frameId
  missing : ¬(assembled shard.geometry earlier).receivedData =
    shard.header.chunkCount

theorem Recorded.finds (h : Recorded recording) (shard : Shard) :
    ∃ earlier, Finds recording shard earlier := by
  -- In a fresh assembly nothing has been received.
  have hfresh : recording.since shard = [shard] →
      recording.playback.reassembler.entryFor shard.header =
        Pending.new shard.header → Finds recording shard [] :=
    fun hsince hentry =>
      { since := hsince
        entry := hentry.trans (new_eq_assembled shard)
        same := nofun
        logged := nofun
        missing := fun hzero => by
          rw [← new_eq_assembled] at hzero
          exact shard.wellFormed.1 hzero.symm }
  cases hlookup : recording.playback.reassembler.pending.lookup
      shard.header.frameId with
  | none =>
      refine ⟨[], hfresh ?_ ?_⟩
      · rw [Recording.since, hlookup, if_neg (by simp)]
      · rw [entryFor, hlookup, Option.getD_none, ite_self]
  | some entry =>
      obtain ⟨geometry, hopen⟩ := h.pending _ _ hlookup
      have hmatches := matches_assembled hopen.id.symm
        (recording.log shard.header.frameId)
      rw [← hopen.assembly] at hmatches
      by_cases hentry : entry.Matches shard.header
      · obtain rfl := hmatches.mp hentry
        refine ⟨recording.log shard.header.frameId, ?_, ?_,
          hopen.same.same, fun other hother => hother, fun hdata => ?_⟩
        · rw [Recording.since, hlookup, if_pos ⟨entry, rfl, hentry⟩]
        · rw [entryFor, hlookup, Option.getD_some, if_pos hentry,
            hopen.assembly]
        · refine hopen.uncovered ?_
          rw [hopen.assembly]
          exact hopen.same.tallied.complete_iff.mp (Or.inl hdata)
      · refine ⟨[], hfresh ?_ ?_⟩
        · have hnone : ¬∃ other ∈ some entry, other.Matches shard.header := by
            rintro ⟨other, hother, hmatch⟩
            obtain rfl := Option.some.inj hother
            exact hentry hmatch
          rw [Recording.since, hlookup, if_neg hnone]
        · rw [entryFor, hlookup, Option.getD_some, if_neg hentry]

/-- The shard's assembly is that of its log. -/
theorem Recorded.assembly (h : Recorded recording) (shard : Shard) :
    OfGeometry shard.geometry (recording.since shard) ∧
      recording.playback.reassembler.assembly shard =
        assembled shard.geometry (recording.since shard) := by
  obtain ⟨earlier, hfinds⟩ := h.finds shard
  rw [Reassembler.assembly, hfinds.entry, hfinds.since, store_assembled rfl]
  refine ⟨⟨List.append_ne_nil_of_right_ne_nil _ (List.cons_ne_nil _ _),
    fun other hother => ?_⟩, rfl⟩
  rcases List.mem_append.mp hother with hold | hnew
  · exact hfinds.same other hold
  · rw [List.mem_singleton.mp hnew]

/-- Of a shard's assembly the counters tell whether its groups are covered. -/
theorem Recorded.complete_iff (h : Recorded recording) (shard : Shard) :
    (recording.playback.reassembler.assembly shard).Complete ↔
      (recording.playback.reassembler.assembly shard).Covered := by
  obtain ⟨hsame, hassembly⟩ := h.assembly shard
  rw [hassembly]
  exact hsame.tallied.complete_iff

/-- What the state and the released frames owe to a log and a list of made
frames. -/
structure Sourced (log : UInt32 → List Shard)
    (made : List (CompletedFrame × List Shard)) (reassembler : Reassembler)
    (released : List CompletedFrame) : Prop where
  pending : ∀ id entry, reassembler.pending.lookup id = some entry →
    ∃ geometry, Open id entry (log id) geometry
  frames : ∀ frame ∈ released ++ reassembler.held,
    ∃ shards, (frame, shards) ∈ made

variable {log : UInt32 → List Shard}
  {made : List (CompletedFrame × List Shard)} {reassembler : Reassembler}
  {released : List CompletedFrame}

theorem Sourced.release (h : Sourced log made reassembler released)
    {head : CompletedFrame} {rest : List CompletedFrame}
    (hheld : reassembler.held = head :: rest) :
    Sourced log made (reassembler.release head rest) (released ++ [head]) where
  pending id entry hentry := h.pending id entry (lookup_release hentry)
  frames frame hframe := by
    have hlist : (released ++ [head]) ++ rest =
        released ++ reassembler.held := by
      rw [hheld, List.append_assoc, List.singleton_append]
    exact h.frames frame (hlist ▸ hframe)

theorem Recording.log_step
    (hskips : ¬recording.playback.reassembler.skips shard.header.frameId) :
    (recording.step shard).log = Function.update recording.log
      shard.header.frameId (recording.since shard) := by
  rw [Recording.step, if_neg hskips]

theorem Recording.made_step {entry : CompletedFrame × List Shard}
    (hmade : entry ∈ recording.made) (shard : Shard) :
    entry ∈ (recording.step shard).made := by
  rw [Recording.step]
  split_ifs with hskips
  · exact hmade
  · exact List.mem_append_left _ hmade

/-- A frame that the shard completes is made of the shards of its log. -/
theorem Recording.completed_made_step
    (hskips : ¬recording.playback.reassembler.skips shard.header.frameId)
    (hcomplete : (recording.playback.reassembler.assembly shard).Complete)
    {data : List UInt8}
    (hdata : (recording.playback.reassembler.assembly shard).frameData =
      some data) :
    (completed shard data, recording.since shard) ∈
      (recording.step shard).made := by
  rw [Recording.step, if_neg hskips]
  dsimp only
  rw [if_pos hcomplete, hdata]
  exact List.mem_append_right _ (List.mem_singleton_self _)

/-- A shard settles with its log, and a frame that it completes is made. -/
theorem Recorded.settled (h : Recorded recording) {next : Reassembler}
    (hskips : ¬recording.playback.reassembler.skips shard.header.frameId)
    (hnext : Settled recording.playback.reassembler shard next) :
    Sourced (recording.step shard).log (recording.step shard).made next
      recording.playback.released := by
  have hlog := Recording.log_step hskips
  constructor
  case pending =>
    intro id entry hentry
    rw [hlog]
    rcases lookup_settled hnext hentry with ⟨rfl, rfl, hopen⟩ | ⟨hne, hold⟩
    · obtain ⟨hsame, hassembly⟩ := h.assembly shard
      rw [Function.update_self]
      exact ⟨shard.geometry, hsame, rfl, hassembly,
        mt (h.complete_iff shard).mpr hopen⟩
    · rw [Function.update_of_ne hne]
      exact h.pending id entry hold
  case frames =>
    have hold : ∀ frame ∈ recording.playback.released ++
        recording.playback.reassembler.held,
        ∃ shards, (frame, shards) ∈ (recording.step shard).made := by
      intro frame hframe
      obtain ⟨shards, hmade⟩ := h.frames frame hframe
      exact ⟨shards, Recording.made_step hmade shard⟩
    cases hnext with
    | waiting hopen hroom => exact hold
    | evicting hopen hfull holdest => exact hold
    | failing hcomplete hdata => exact hold
    | @completing hcomplete data hdata =>
        intro frame hframe
        rcases List.mem_append.mp hframe with hreleased | hheld
        · exact hold frame (List.mem_append_left _ hreleased)
        · rcases List.mem_cons.mp ((perm_held_hold _ _).mem_iff.mp hheld) with
            rfl | hin
          · exact ⟨recording.since shard,
              Recording.completed_made_step hskips hcomplete hdata⟩
          · exact hold frame (List.mem_append_right _ hin)

/-- A recording plays what it records. -/
theorem Recording.playback_step (recording : Recording) (shard : Shard) :
    (recording.step shard).playback = recording.playback.step shard := by
  rw [Recording.step]
  split_ifs with hskips
  · exact (Playback.step_of_skips hskips).symm
  · rfl

theorem Recording.playback_foldl (recording : Recording)
    (shards : List Shard) :
    (shards.foldl Recording.step recording).playback =
      shards.foldl Playback.step recording.playback := by
  induction shards generalizing recording with
  | nil => rfl
  | cons shard shards ih =>
      rw [List.foldl_cons, ih, Recording.playback_step, List.foldl_cons]

theorem Recorded.step (h : Recorded recording) (shard : Shard) :
    Recorded (recording.step shard) := by
  by_cases hskips :
    recording.playback.reassembler.skips shard.header.frameId
  · rwa [Recording.step, if_pos hskips]
  · have hplayback := recording.playback_step shard
    have hsourced := drain_rule (fun _ _ _ _ hheld _ h => h.release hheld)
      (h.settled hskips (settled_settle _ shard))
    constructor
    case pending =>
      rw [hplayback, Playback.step_of_settles hskips]
      exact hsourced.pending
    case made =>
      intro frame shards hmade
      rw [Recording.step, if_neg hskips] at hmade
      rcases List.mem_append.mp hmade with hold | hnew
      · exact h.made frame shards hold
      · split_ifs at hnew
        · obtain ⟨data, hdata, heq⟩ :=
            Option.map_eq_some_iff.mp (Option.mem_toList.mp hnew)
          obtain ⟨rfl, rfl⟩ := Prod.mk.inj heq
          obtain ⟨hsame, hassembly⟩ := h.assembly shard
          exact ⟨shard.geometry, hsame, rfl, hassembly ▸ hdata⟩
        · cases hnew
    case frames =>
      rw [hplayback, Playback.step_of_settles hskips]
      exact hsourced.frames

end Step

theorem recorded_after (shards : List Shard) :
    Recorded (Recording.after shards) :=
  EventRun.foldl_preserves (fun _ shard h => h.step shard) shards
    recorded_start

/-! ## What a push makes of an assembly -/

namespace Reassembler

variable {reassembler : Reassembler}

/-- Releasing a frame gives up an older assembly, and counts it. -/
theorem dropped_release {head : CompletedFrame} {rest : List CompletedFrame}
    {id : UInt32} {entry : Pending}
    (h : reassembler.pending.lookup id = some entry)
    (holder : older id head.frameId) :
    reassembler.dropped < (reassembler.release head rest).dropped := by
  have hmem : (⟨id, entry⟩ : Sigma fun _ : UInt32 => Pending) ∈
      reassembler.pending.entries := AList.mem_lookup_iff.mp h
  have hfewer : (reassembler.pending.entries.filter fun entry =>
      ¬older entry.1 head.frameId).length <
        reassembler.pending.entries.length := by
    apply List.length_filter_lt_length_iff_exists.mpr
    exact ⟨_, hmem, by simpa using holder⟩
  exact Nat.lt_add_of_pos_right (Nat.sub_pos_of_lt hfewer)

theorem dropped_le_release (head : CompletedFrame)
    (rest : List CompletedFrame) :
    reassembler.dropped ≤ (reassembler.release head rest).dropped :=
  Nat.le_add_right _ _

theorem dropped_le_drain (reassembler : Reassembler) :
    reassembler.dropped ≤ reassembler.drain.1.dropped :=
  @drain_rule (fun state _ => reassembler.dropped ≤ state.dropped)
    (fun _ head rest _ _ _ h => h.trans (dropped_le_release head rest))
    reassembler [] le_rfl

/-- A newer frame goes out, and the assembly is counted as dropped. -/
def GivenUp (reassembler : Reassembler) (id : UInt32)
    (drained : Reassembler × List CompletedFrame) : Prop :=
  reassembler.dropped < drained.1.dropped ∧
    ∃ frame ∈ drained.2, older id frame.frameId

/-- A pending assembly survives draining, or is given up for a newer frame. -/
theorem lookup_drain_or_givenUp {id : UInt32} {entry : Pending}
    (h : reassembler.pending.lookup id = some entry) :
    reassembler.drain.1.pending.lookup id = some entry ∨
      reassembler.GivenUp id reassembler.drain := by
  have hrule := @drain_rule (fun state log =>
      reassembler.dropped ≤ state.dropped ∧
        (state.pending.lookup id = some entry ∨
          reassembler.GivenUp id (state, log)))
    (fun state head rest log _ _ hstate => ?_) reassembler [] ⟨le_rfl, .inl h⟩
  · exact hrule.2
  obtain ⟨hdropped, hkept | ⟨hmore, frame, hframe, holder⟩⟩ := hstate
  · refine ⟨hdropped.trans (dropped_le_release head rest), ?_⟩
    by_cases holder : older id head.frameId
    · right
      exact ⟨hdropped.trans_lt (dropped_release hkept holder), head,
        List.mem_append_right _ (List.mem_singleton_self _), holder⟩
    · exact Or.inl (lookup_release_of_not_older hkept holder)
  · have hless := hmore.trans_le (dropped_le_release head rest)
    exact ⟨hless.le, .inr
      ⟨hless, frame, List.mem_append_left _ hframe, holder⟩⟩

/-- What went out or is held stays so. -/
theorem mem_drain {frame : CompletedFrame} {log : List CompletedFrame}
    (h : frame ∈ log ++ reassembler.held) :
    frame ∈ (log ++ reassembler.drain.2) ++ reassembler.drain.1.held := by
  refine @drain_rule (fun state log => frame ∈ log ++ state.held)
    (fun state head rest log hheld _ hstate => ?_) reassembler log h
  rw [hheld] at hstate
  rwa [List.append_assoc, List.singleton_append]

/-- Draining opens nothing. -/
theorem lookup_of_drain {id : UInt32} {entry : Pending}
    (h : reassembler.drain.1.pending.lookup id = some entry) :
    reassembler.pending.lookup id = some entry := by
  refine @drain_rule (fun state _ => ∀ id entry,
      state.pending.lookup id = some entry →
        reassembler.pending.lookup id = some entry)
    (fun state head rest log _ _ hstate id entry hentry => ?_)
    reassembler [] (fun _ _ hentry => hentry) id entry h
  exact hstate id entry (lookup_release hentry)

end Reassembler

/-- An assembly is evicted from a full window by a shard that completes
nothing, or given up for a newer frame that goes out; either is counted. -/
def Loses (reassembler : Reassembler) (shard : Shard) (id : UInt32) : Prop :=
  let pushed := reassembler.push shard.header shard.payload
  (maxPending < (reassembler.opened shard).pending.keys.length ∧
      id ∈ (reassembler.opened shard).oldestPending ∧
      reassembler.dropped < pushed.1.dropped) ∨
    reassembler.GivenUp id pushed

/-- What `push` makes of a shard's assembly, which is that of the shards of its
geometry since it was last started, with this shard. -/
structure Completes (recording : Recording) (shard : Shard) : Prop where
  /-- Without cover it waits, or it is lost. -/
  waits : let reassembler := recording.playback.reassembler
    let entry := assembled shard.geometry (recording.since shard)
    let pushed := reassembler.push shard.header shard.payload
    ¬entry.Covered →
      pushed.1.pending.lookup shard.header.frameId = some entry ∨
        Loses reassembler shard shard.header.frameId
  /-- With the shard that covers its groups it is taken out, and its frame goes
  out or is held; or it is malformed, and counted as dropped. -/
  finishes : let reassembler := recording.playback.reassembler
    let entry := assembled shard.geometry (recording.since shard)
    let pushed := reassembler.push shard.header shard.payload
    entry.Covered →
      pushed.1.pending.lookup shard.header.frameId = none ∧
        ((∃ data ∈ entry.frameData,
            completed shard data ∈ pushed.2 ++ pushed.1.held) ∨
          entry.frameData = none ∧ reassembler.dropped < pushed.1.dropped)
  /-- The assemblies of other frames stay as they are, or are lost. -/
  others : let reassembler := recording.playback.reassembler
    let pushed := reassembler.push shard.header shard.payload
    ∀ id ≠ shard.header.frameId, ∀ entry ∈ reassembler.pending.lookup id,
      pushed.1.pending.lookup id = some entry ∨ Loses reassembler shard id

/-- Frames and geometries stay apart, and the counters stand for the group
test. -/
structure Apart (recording : Recording) : Prop where
  /-- Every frame is what the shards of one geometry give, the first of each
  index since the assembly was last started. -/
  frames : ∀ frame ∈
    recording.playback.released ++ recording.playback.reassembler.held,
    ∃ shards geometry, (frame, shards) ∈ recording.made ∧
      Made frame shards geometry
  counters : ∀ id entry,
    recording.playback.reassembler.pending.lookup id = some entry →
      entry.receivedData.toNat =
          (entry.shards.take entry.dataCount.toNat).countP Option.isSome ∧
        entry.receivedTotal.toNat = entry.shards.countP Option.isSome
  /-- What waits is not covered, and made of the shards of one geometry. -/
  pending : ∀ id entry,
    recording.playback.reassembler.pending.lookup id = some entry →
      ∃ geometry, Open id entry (recording.log id) geometry
  /-- The test by the counters is the one group by group. -/
  tested : ∀ shard,
    (recording.playback.reassembler.assembly shard).Complete ↔
      (recording.playback.reassembler.assembly shard).Covered
  /-- A shard of a frame that was delivered or is held changes nothing. -/
  skipped : ∀ shard : Shard,
    recording.playback.reassembler.skips shard.header.frameId →
      recording.playback.reassembler.push shard.header shard.payload =
        (recording.playback.reassembler, [])
  /-- Every other shard is stored, and completes its frame exactly when it
  covers the groups. -/
  completes : ∀ shard,
    ¬recording.playback.reassembler.skips shard.header.frameId →
      Completes recording shard

theorem dropped_le_settle (reassembler : Reassembler) (shard : Shard) :
    reassembler.dropped ≤ (reassembler.settle shard).dropped := by
  have hnext := settled_settle reassembler shard
  generalize reassembler.settle shard = next at hnext
  cases hnext with
  | waiting => exact le_rfl
  | evicting => exact Nat.le_succ _
  | completing => exact le_rfl
  | failing => exact Nat.le_succ _

/-- An assembly that a shard does not complete stays when the shard settles,
or it is evicted. -/
theorem lookup_settle {reassembler : Reassembler} {shard : Shard}
    {id : UInt32} {entry : Pending}
    (hopened : (reassembler.opened shard).pending.lookup id = some entry)
    (hstays : ¬(reassembler.assembly shard).Complete ∨
      id ≠ shard.header.frameId) :
    (reassembler.settle shard).pending.lookup id = some entry ∨
      maxPending < (reassembler.opened shard).pending.keys.length ∧
        id ∈ (reassembler.opened shard).oldestPending ∧
        reassembler.dropped < (reassembler.settle shard).dropped := by
  have hnext := settled_settle reassembler shard
  have hclosed : (reassembler.assembly shard).Complete →
      (reassembler.closed shard).pending.lookup id = some entry := by
    intro hcomplete
    rw [closed, AList.lookup_erase_ne
      (hstays.resolve_left (not_not.mpr hcomplete))]
    exact hopened
  generalize reassembler.settle shard = next at hnext
  cases hnext with
  | waiting _ hroom => exact Or.inl hopened
  | completing hcomplete _ => exact Or.inl (hclosed hcomplete)
  | failing hcomplete _ => exact Or.inl (hclosed hcomplete)
  | @evicting _ hfull oldest holdest =>
      by_cases hvictim : id = oldest
      · subst hvictim
        exact Or.inr ⟨hfull, holdest, Nat.lt_succ_self _⟩
      · left
        rw [AList.lookup_erase_ne hvictim]
        exact hopened

/-- After the whole push, such an assembly stays or is lost. -/
theorem lookup_push {reassembler : Reassembler} {shard : Shard}
    (hskips : ¬reassembler.skips shard.header.frameId) {id : UInt32}
    {entry : Pending}
    (hopened : (reassembler.opened shard).pending.lookup id = some entry)
    (hstays : ¬(reassembler.assembly shard).Complete ∨
      id ≠ shard.header.frameId) :
    (reassembler.push shard.header shard.payload).1.pending.lookup id =
        some entry ∨ Loses reassembler shard id := by
  rw [Loses, push_eq, if_neg hskips]
  rcases lookup_settle hopened hstays with hsettled | ⟨hfull, holdest, hmore⟩
  · rcases lookup_drain_or_givenUp hsettled with hkept | ⟨hmore, hpassed⟩
    · exact Or.inl hkept
    · exact Or.inr (Or.inr
        ⟨(dropped_le_settle _ _).trans_lt hmore, hpassed⟩)
  · exact Or.inr (Or.inl ⟨hfull, holdest,
      hmore.trans_le (dropped_le_drain _)⟩)

/-- Covered, an assembly is closed: its frame is held, or it is dropped. -/
theorem closed_settle {reassembler : Reassembler} {shard : Shard}
    (hcomplete : (reassembler.assembly shard).Complete) :
    (reassembler.settle shard).pending.lookup shard.header.frameId = none ∧
      ((∃ data ∈ (reassembler.assembly shard).frameData,
          completed shard data ∈ (reassembler.settle shard).held) ∨
        (reassembler.assembly shard).frameData = none ∧
          reassembler.dropped < (reassembler.settle shard).dropped) := by
  have hnext := settled_settle reassembler shard
  generalize reassembler.settle shard = next at hnext
  cases hnext with
  | waiting hopen _ => exact absurd hcomplete hopen
  | evicting hopen _ _ => exact absurd hcomplete hopen
  | @completing _ data hdata =>
      refine ⟨AList.lookup_erase _ _, Or.inl ⟨data, hdata, ?_⟩⟩
      exact (perm_held_hold _ _).mem_iff.mpr List.mem_cons_self
  | failing _ hdata =>
      exact ⟨AList.lookup_erase _ _, Or.inr ⟨hdata, Nat.lt_succ_self _⟩⟩

theorem Recorded.completes {recording : Recording} (h : Recorded recording)
    {shard : Shard}
    (hskips : ¬recording.playback.reassembler.skips shard.header.frameId) :
    Completes recording shard := by
  have htested := h.complete_iff shard
  rw [(h.assembly shard).2] at htested
  constructor
  case waits =>
    dsimp only
    rw [← htested, ← (h.assembly shard).2]
    intro hopen
    exact lookup_push hskips (AList.lookup_insert _) (Or.inl hopen)
  case finishes =>
    dsimp only
    rw [push_eq, if_neg hskips, ← htested, ← (h.assembly shard).2]
    intro hcomplete
    obtain ⟨hclosed, hframe⟩ := closed_settle hcomplete
    constructor
    · rw [Option.eq_none_iff_forall_not_mem] at hclosed ⊢
      exact fun entry hentry => hclosed entry (lookup_of_drain hentry)
    · rcases hframe with ⟨data, hdata, hheld⟩ | ⟨hnone, hdropped⟩
      · have hmem := @mem_drain _ _ [] hheld
        rw [List.nil_append] at hmem
        exact Or.inl ⟨data, hdata, hmem⟩
      · exact Or.inr ⟨hnone, hdropped.trans_le (dropped_le_drain _)⟩
  case others =>
    dsimp only
    intro id hid entry hentry
    exact lookup_push hskips ((AList.lookup_insert_ne hid).trans hentry)
      (Or.inr hid)

theorem Recorded.apart {recording : Recording} (h : Recorded recording) :
    Apart recording where
  frames frame hframe := by
    obtain ⟨shards, hmade⟩ := h.frames frame hframe
    obtain ⟨geometry, hgeometry⟩ := h.made frame shards hmade
    exact ⟨shards, geometry, hmade, hgeometry⟩
  counters id entry hentry := by
    obtain ⟨geometry, hopen⟩ := h.pending id entry hentry
    have htallied : entry.Tallied := hopen.assembly ▸ hopen.same.tallied
    have hdirect : ¬entry.receivedData = entry.dataCount := fun heq =>
      hopen.uncovered (htallied.complete_iff.mp (Or.inl heq))
    exact ⟨htallied.toNat_receivedData, htallied.toNat_receivedTotal hdirect⟩
  pending := h.pending
  tested := h.complete_iff
  skipped shard hskips := by rw [push_eq, if_pos hskips]
  completes shard hskips := h.completes hskips

/-- Frames and geometries are never mixed.  In every run the frames are what
the shards of one geometry give, first payload first; the counters count the
filled slots; and a push keeps an assembly pending until its groups are
covered, and settles it with the first shard that covers them. -/
theorem apart_after (shards : List Shard) : Apart (Recording.after shards) :=
  (recorded_after shards).apart

end GameStreamer
