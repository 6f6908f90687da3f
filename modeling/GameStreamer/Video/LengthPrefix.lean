import GameStreamer.Protocol.Control
import GameStreamer.Protocol.Datagram
import GameStreamer.Video.AnnexB

/-!
# Length-prefixed samples

VideoToolbox exchanges NAL units behind four-byte lengths.  The encoder turns
such a sample into an Annex-B stream and puts the parameter sets ahead of a
keyframe; the decoder cuts the stream and leaves the parameter sets out again.
What goes into the encoder's conversion comes out of the decoder's.
-/

namespace GameStreamer.Video

open Tiling

/-- The units, each behind its length. -/
def lengthPrefixed (nals : List Bytes) : Bytes :=
  nals.flatMap fun nal => u32ToBe (UInt32.ofNat nal.length) ++ nal

/-! ## The encoder -/

/-- A compressed sample buffer. -/
structure CompressedSample where
  /-- The contiguous payload, where VideoToolbox gives a pointer to it. -/
  dataBuffer : Option Bytes
  /-- The format description: the parameter set at an index, `none` for an
  error status or a null pointer. -/
  formatDescription : Option (ℕ → Option Bytes)

/-- The type in a NAL's first byte. -/
def nalType (codec : Codec) (byte : UInt8) : UInt8 :=
  match codec with
  | .hevc => (byte >>> 1) &&& 0x3f
  | _ => byte &&& 0x1f

/-- Does this NAL start an IDR access unit? -/
def isIdrNal (codec : Codec) (nal : Bytes) : Bool :=
  nal.head?.any fun byte =>
    match codec with
    | .hevc => nalType codec byte == 19 || nalType codec byte == 20
    | _ => nalType codec byte == 5

/-- The walk over the payload from `i` on, with what it has written so far and
whether it has seen an IDR slice. -/
def walkSample (codec : Codec) (data : Bytes) (i : ℕ) (slices : Bytes)
    (isKeyframe : Bool) : Bytes × Bool :=
  if i + 4 ≤ data.length then
    let nalLen := (u32At data i).toNat
    if nalLen = 0 ∨ data.length < i + 4 + nalLen then (slices, isKeyframe)
    else
      let nal := slice (i + 4) nalLen data
      walkSample codec data (i + 4 + nalLen) (slices ++ startCode true ++ nal)
        (isKeyframe || isIdrNal codec nal)
  else (slices, isKeyframe)
termination_by data.length - i

/-- H.264 has SPS and PPS, HEVC a VPS as well. -/
def psCount (codec : Codec) : ℕ := if codec = .hevc then 3 else 2

/-- The parameter sets of the format description in Annex-B form. -/
def inlinedParameterSets (codec : Codec) (format : ℕ → Option Bytes) : Bytes :=
  (List.range (psCount codec)).flatMap fun idx =>
    match format idx with
    | none => []
    | some ps => if ps = [] then [] else startCode true ++ ps

/-- The Annex-B stream of a sample with its kind, the parameter sets in front
of a keyframe.  Nothing comes of a sample without units. -/
def sampleToAnnexB (sample : CompressedSample) (codec : Codec) :
    Option (FrameKind × Bytes) := do
  let data ← sample.dataBuffer
  let (slices, isKeyframe) := walkSample codec data 0 [] false
  if slices = [] then none
  else
    let fmt := if isKeyframe then sample.formatDescription else none
    let out := match fmt with
      | some format => inlinedParameterSets codec format
      | none => []
    some (if isKeyframe then .idr else .p, out ++ slices)

/-! ## The decoder -/

/-- H.264: SPS and PPS.  HEVC: VPS, SPS and PPS. -/
def isParamSet (codec : Codec) (nal : Bytes) : Bool :=
  nal.head?.any fun byte =>
    match codec with
    | .hevc =>
        decide (32 ≤ nalType codec byte) && decide (nalType codec byte ≤ 34)
    | _ => nalType codec byte == 7 || nalType codec byte == 8

/-- An access unit delimiter. -/
def isAud (codec : Codec) (nal : Bytes) : Bool :=
  nal.head?.any fun byte =>
    match codec with
    | .hevc => nalType codec byte == 35
    | _ => nalType codec byte == 9

/-- What the decoder hands to VideoToolbox: parameter sets and access unit
delimiters stay out. -/
def decoderPayload (codec : Codec) (annexB : Bytes) : Bytes :=
  lengthPrefixed ((decoderSplitAnnexB annexB).filter fun nal =>
    !(isParamSet codec nal || isAud codec nal))

/-! ## The walk over a sample -/

theorem lengthPrefixed_cons (nal : Bytes) (nals : List Bytes) :
    lengthPrefixed (nal :: nals) =
      u32ToBe (UInt32.ofNat nal.length) ++ (nal ++ lengthPrefixed nals) := by
  rw [lengthPrefixed, List.flatMap_cons, List.append_assoc]
  rfl

theorem u32At_of_drop {data rest : Bytes} {value : UInt32} {i : ℕ}
    (hi : i ≤ data.length) (hdrop : data.drop i = u32ToBe value ++ rest) :
    u32At data i = value := by
  have hfront : (data.take i).length = i := List.length_take_of_le hi
  have hread := u32At_append (data.take i) value rest
  rwa [← hdrop, List.take_append_drop, hfront] at hread

/-- Every unit of a well-formed sample is written behind a start code. -/
theorem walkSample_lengthPrefixed (codec : Codec) {data : Bytes}
    {nals : List Bytes} (hnals : ∀ nal ∈ nals, nal ≠ [] ∧ nal.length < 2 ^ 32)
    {i : ℕ} {slices : Bytes} {isKeyframe : Bool} (hi : i ≤ data.length)
    (hdrop : data.drop i = lengthPrefixed nals) :
    walkSample codec data i slices isKeyframe =
      (slices ++ joined (nals.map (Prod.mk true)),
        isKeyframe || nals.any (isIdrNal codec)) := by
  induction nals generalizing i slices isKeyframe with
  | nil =>
      have hend : i = data.length :=
        Nat.le_antisymm hi (List.drop_eq_nil_iff.mp hdrop)
      rw [walkSample, if_neg (by omega), List.any_nil, Bool.or_false]
      simp [joined]
  | cons nal nals ih =>
      obtain ⟨hne, hshort⟩ := hnals nal List.mem_cons_self
      rw [lengthPrefixed_cons] at hdrop
      have hbody : data.drop (i + 4) = nal ++ lengthPrefixed nals := by
        rw [← List.drop_drop, hdrop]
        rfl
      have hrest : data.drop (i + 4 + nal.length) = lengthPrefixed nals := by
        rw [← List.drop_drop, hbody, List.drop_left]
      have hlen : (u32At data i).toNat = nal.length := by
        rw [u32At_of_drop hi hdrop, UInt32.toNat_ofNat',
          Nat.mod_eq_of_lt hshort]
      have hslice : slice (i + 4) nal.length data = nal := by
        rw [slice, hbody, List.take_left]
      have hpos := List.length_pos_of_ne_nil hne
      have hlength := congrArg List.length hbody
      rw [List.length_drop, List.length_append] at hlength
      rw [walkSample, if_pos (by omega)]
      simp only [hlen, hslice]
      rw [if_neg (by omega),
        ih (fun other hother => hnals other (List.mem_cons_of_mem _ hother))
          (by omega) hrest,
        List.map_cons, joined_cons, List.any_cons, Bool.or_assoc]
      simp only [List.append_assoc]

/-! ## There and back -/

/-- The parameter sets of a format description are NAL units of their kind. -/
def FormatSound (codec : Codec) (format : ℕ → Option Bytes) : Prop :=
  ∀ idx ps, format idx = some ps → ps ≠ [] →
    IsNal ps ∧ isParamSet codec ps = true

/-- The parameter sets that are there. -/
def parameterSets (codec : Codec) (format : ℕ → Option Bytes) : List Bytes :=
  ((List.range (psCount codec)).filterMap format).filter (· ≠ [])

theorem inlinedParameterSets_eq (codec : Codec) (format : ℕ → Option Bytes) :
    inlinedParameterSets codec format =
      joined ((parameterSets codec format).map (Prod.mk true)) := by
  rw [inlinedParameterSets, parameterSets]
  induction List.range (psCount codec) with
  | nil => rfl
  | cons idx indices ih =>
      rw [List.flatMap_cons, ih]
      cases hps : format idx with
      | none => rw [List.filterMap_cons_none hps, List.nil_append]
      | some ps =>
          rw [List.filterMap_cons_some hps]
          change (if ps = [] then [] else startCode true ++ ps) ++ _ = _
          by_cases hempty : ps = []
          · rw [if_pos hempty, List.filter_cons_of_neg (by simpa using hempty),
              List.nil_append]
          · rw [if_neg hempty, List.filter_cons_of_pos (by simpa using hempty),
              List.map_cons, joined_cons, List.append_assoc]

theorem mem_parameterSets {codec : Codec} {format : ℕ → Option Bytes}
    (hformat : FormatSound codec format) {ps : Bytes}
    (h : ps ∈ parameterSets codec format) :
    IsNal ps ∧ isParamSet codec ps = true := by
  obtain ⟨hmem, hne⟩ := List.mem_filter.mp h
  obtain ⟨idx, -, hps⟩ := List.mem_filterMap.mp hmem
  exact hformat idx ps hps (of_decide_eq_true hne)

theorem joined_append (left right : List (Bool × Bytes)) :
    joined (left ++ right) = joined left ++ joined right :=
  List.flatMap_append

/-- The decoder drops the parameter sets ahead and puts the lengths back. -/
theorem decoderPayload_joined {codec : Codec} {ahead nals : List Bytes}
    (hahead : ∀ ps ∈ ahead, IsNal ps ∧ isParamSet codec ps = true)
    (hnals : ∀ nal ∈ nals, IsNal nal ∧ isParamSet codec nal = false ∧
      isAud codec nal = false) :
    decoderPayload codec (joined (ahead.map (Prod.mk true)) ++
      joined (nals.map (Prod.mk true))) = lengthPrefixed nals := by
  have hunits (unit : Bool × Bytes)
      (hunit : unit ∈ (ahead ++ nals).map (Prod.mk true)) :
      IsNal unit.2 := by
    obtain ⟨nal, hnal, rfl⟩ := List.mem_map.mp hunit
    rcases List.mem_append.mp hnal with hfront | hback
    · exact (hahead nal hfront).1
    · exact (hnals nal hback).1
  have hdropped : ahead.filter (fun nal =>
      !(isParamSet codec nal || isAud codec nal)) = [] := by
    rw [List.filter_eq_nil_iff]
    intro ps hps
    rw [(hahead ps hps).2]
    exact Bool.false_ne_true
  have hkept : nals.filter (fun nal =>
      !(isParamSet codec nal || isAud codec nal)) = nals := by
    rw [List.filter_eq_self]
    intro nal hnal
    rw [(hnals nal hnal).2.1, (hnals nal hnal).2.2]
    rfl
  rw [← joined_append, ← List.map_append, decoderPayload,
    decoderSplitAnnexB_joined hunits, List.map_map]
  change lengthPrefixed (((ahead ++ nals).map id).filter _) = _
  rw [List.map_id, List.filter_append, hdropped, hkept, List.nil_append]

/-- What the encoder makes of a well-formed sample: its units behind start
codes, with the parameter sets ahead of a keyframe, and nothing of a sample
without units. -/
theorem sampleToAnnexB_lengthPrefixed (codec : Codec)
    (format : Option (ℕ → Option Bytes)) {nals : List Bytes}
    (hnals : ∀ nal ∈ nals, nal ≠ [] ∧ nal.length < 2 ^ 32) (hne : nals ≠ []) :
    ∃ (kind : FrameKind) (ahead : List Bytes),
      sampleToAnnexB ⟨some (lengthPrefixed nals), format⟩ codec =
        some (kind, joined (ahead.map (Prod.mk true)) ++
          joined (nals.map (Prod.mk true))) ∧
      ∀ ps ∈ ahead, ∃ present ∈ format, ps ∈ parameterSets codec present := by
  have hwalk : walkSample codec (lengthPrefixed nals) 0 [] false = _ :=
    walkSample_lengthPrefixed codec hnals (Nat.zero_le _) List.drop_zero
  have hwritten : joined (nals.map (Prod.mk true)) ≠ [] := by
    cases nals with
    | nil => exact absurd rfl hne
    | cons nal nals =>
        rw [List.map_cons, joined_cons]
        exact List.cons_ne_nil _ _
  rw [List.nil_append, Bool.false_or] at hwalk
  rw [sampleToAnnexB, Option.bind_eq_bind, Option.bind_some, hwalk]
  simp only [if_neg hwritten]
  cases nals.any (isIdrNal codec) with
  | false => exact ⟨.p, [], rfl, fun _ hps => absurd hps List.not_mem_nil⟩
  | true =>
      cases format with
      | none => exact ⟨.idr, [], rfl, fun _ hps => absurd hps List.not_mem_nil⟩
      | some format =>
          refine ⟨.idr, parameterSets codec format, ?_, ?_⟩
          · simp only [if_true, inlinedParameterSets_eq]
          · exact fun ps hps => ⟨format, rfl, hps⟩

theorem sampleToAnnexB_empty (codec : Codec)
    (format : Option (ℕ → Option Bytes)) :
    sampleToAnnexB ⟨some (lengthPrefixed []), format⟩ codec = none := by
  have hwalk : walkSample codec (lengthPrefixed []) 0 [] false = _ :=
    walkSample_lengthPrefixed codec
      (fun _ hnal => absurd hnal List.not_mem_nil) (Nat.zero_le _)
      List.drop_zero
  rw [sampleToAnnexB, Option.bind_eq_bind, Option.bind_some, hwalk]
  rfl

/-- From lengths to start codes and back. -/
theorem sampleToAnnexB_decoderPayload {codec : Codec}
    {format : Option (ℕ → Option Bytes)} {nals : List Bytes}
    (hformat : ∀ present ∈ format, FormatSound codec present)
    (hnals : ∀ nal ∈ nals, IsNal nal ∧ nal.length < 2 ^ 32 ∧
      isParamSet codec nal = false ∧ isAud codec nal = false)
    (hne : nals ≠ []) :
    (sampleToAnnexB ⟨some (lengthPrefixed nals), format⟩ codec).map
        (fun written => decoderPayload codec written.2) =
      some (lengthPrefixed nals) := by
  obtain ⟨kind, ahead, hwritten, hahead⟩ :=
    sampleToAnnexB_lengthPrefixed codec format
      (fun nal hnal => ⟨(hnals nal hnal).1.ne_nil, (hnals nal hnal).2.1⟩) hne
  rw [hwritten, Option.map_some, decoderPayload_joined]
  · intro ps hps
    obtain ⟨present, hpresent, hmem⟩ := hahead ps hps
    exact mem_parameterSets (hformat present hpresent) hmem
  · intro nal hnal
    exact ⟨(hnals nal hnal).1, (hnals nal hnal).2.2⟩

/-- **Annex-B and length prefixes.**  Both scanners give back the joined
units; and a sample of units that are neither parameter sets nor delimiters is
what the decoder makes of the stream that the encoder makes of it, while a
sample without units makes no stream. -/
theorem annexB_round_trip :
    (∀ units : List (Bool × Bytes), (∀ unit ∈ units, IsNal unit.2) →
      decoderSplitAnnexB (joined units) = units.map Prod.snd ∧
      clientSplitAnnexB (joined units) = units.map Prod.snd) ∧
    ∀ (codec : Codec) (format : Option (ℕ → Option Bytes))
      (nals : List Bytes),
      (∀ present ∈ format, FormatSound codec present) →
      (∀ nal ∈ nals, IsNal nal ∧ nal.length < 2 ^ 32 ∧
        isParamSet codec nal = false ∧ isAud codec nal = false) →
      (sampleToAnnexB ⟨some (lengthPrefixed nals), format⟩ codec).map
          (fun written => decoderPayload codec written.2) =
        if nals = [] then none else some (lengthPrefixed nals) := by
  constructor
  · intro units hunits
    exact ⟨decoderSplitAnnexB_joined hunits, clientSplitAnnexB_joined hunits⟩
  · intro codec format nals hformat hnals
    by_cases hne : nals = []
    · rw [if_pos hne, hne, sampleToAnnexB_empty]
      rfl
    · rw [if_neg hne]
      exact sampleToAnnexB_decoderPayload hformat hnals hne

/-- The SPS and PPS of an H.264 format description. -/
def sampleFormat (idx : ℕ) : Option Bytes :=
  if idx = 0 then some [0x67, 0x42]
  else if idx = 1 then some [0x68, 0xce]
  else none

theorem formatSound_sampleFormat : FormatSound .h264 sampleFormat := by
  intro idx ps hps _
  rw [sampleFormat] at hps
  split_ifs at hps
  · cases hps
    decide
  · cases hps
    decide

/-- A keyframe of two slices, the first with emulation prevention, and a
supplemental unit. -/
def keyframeUnits : List Bytes :=
  [[0x06, 5, 1], [0x65, 0, 0, 3, 1], [0x65, 0x88, 0, 0, 3]]

/-- An access unit with start codes of both lengths. -/
def mixedUnits : List (Bool × Bytes) :=
  [(true, [0x67, 0x42]), (false, [0x68, 0xce]), (true, [0x65, 0, 0, 3, 1]),
    (false, [0x41, 0x9a])]

/-- Units with mixed start codes are cut at these, and a keyframe goes there
and back. -/
theorem annexB_round_trip_of_keyframe :
    (decoderSplitAnnexB (joined mixedUnits) = mixedUnits.map Prod.snd ∧
      clientSplitAnnexB (joined mixedUnits) = mixedUnits.map Prod.snd) ∧
    (sampleToAnnexB ⟨some (lengthPrefixed keyframeUnits), some sampleFormat⟩
        .h264).map (fun written => decoderPayload .h264 written.2) =
      some (lengthPrefixed keyframeUnits) := by
  have hformat (present : ℕ → Option Bytes)
      (h : present ∈ some sampleFormat) : FormatSound .h264 present := by
    cases h
    exact formatSound_sampleFormat
  constructor
  · exact annexB_round_trip.1 mixedUnits (by decide)
  · exact annexB_round_trip.2 .h264 (some sampleFormat) keyframeUnits hformat
      (by decide)

end GameStreamer.Video
