import GameStreamer.Protocol.Datagram

/-!
# The wire format is a bijection

A field that is read and put back leaves the bytes as they were, so what a
parser accepts is what the encoder gives for the header that it returns.
Stamping touches the sequence bytes alone, and the first byte tells the three
kinds of datagrams apart.
-/

namespace GameStreamer

open Tiling

/-! ## Fields put back -/

/-- A byte that is the one of a number. -/
theorem ofNat_eq_byte {n : ℕ} {byte : UInt8} (h : n % 2 ^ 8 = byte.toNat) :
    UInt8.ofNat n = byte := by
  rw [← UInt8.toNat_inj, UInt8.toNat_ofNat', h]

theorem u16ToBe_u16At (bytes : Bytes) (i : ℕ) :
    u16ToBe (u16At bytes i) = [bytes.getD i 0, bytes.getD (i + 1) 0] := by
  have h0 := (bytes.getD i 0).toNat_lt
  have h1 := (bytes.getD (i + 1) 0).toNat_lt
  rw [u16ToBe, u16At, UInt16.toNat_ofNat', Nat.mod_eq_of_lt (by omega),
    @ofNat_eq_byte _ (bytes.getD i 0) (by omega),
    @ofNat_eq_byte _ (bytes.getD (i + 1) 0) (by omega)]

theorem u32ToBe_u32At (bytes : Bytes) (i : ℕ) :
    u32ToBe (u32At bytes i) =
      [bytes.getD i 0, bytes.getD (i + 1) 0, bytes.getD (i + 2) 0,
        bytes.getD (i + 3) 0] := by
  have h0 := (bytes.getD i 0).toNat_lt
  have h1 := (bytes.getD (i + 1) 0).toNat_lt
  have h2 := (bytes.getD (i + 2) 0).toNat_lt
  have h3 := (bytes.getD (i + 3) 0).toNat_lt
  rw [u32ToBe, u32At, UInt32.toNat_ofNat', Nat.mod_eq_of_lt (by omega),
    @ofNat_eq_byte _ (bytes.getD i 0) (by omega),
    @ofNat_eq_byte _ (bytes.getD (i + 1) 0) (by omega),
    @ofNat_eq_byte _ (bytes.getD (i + 2) 0) (by omega),
    @ofNat_eq_byte _ (bytes.getD (i + 3) 0) (by omega)]

section Drop

variable {bytes : Bytes} {i : ℕ}

theorem byte_append_drop (h : i < bytes.length) :
    [bytes.getD i 0] ++ bytes.drop (i + 1) = bytes.drop i := by
  rw [List.getD_eq_getElem _ _ h, List.singleton_append,
    List.getElem_cons_drop]

theorem u16_append_drop (h : i + 1 < bytes.length) :
    u16ToBe (u16At bytes i) ++ bytes.drop (i + 2) = bytes.drop i := by
  rw [u16ToBe_u16At, ← byte_append_drop (i := i) (by omega),
    ← byte_append_drop (i := i + 1) h]
  rfl

theorem u32_append_drop (h : i + 3 < bytes.length) :
    u32ToBe (u32At bytes i) ++ bytes.drop (i + 4) = bytes.drop i := by
  rw [u32ToBe_u32At, ← byte_append_drop (i := i) (by omega),
    ← byte_append_drop (i := i + 1) (by omega),
    ← byte_append_drop (i := i + 2) (by omega),
    ← byte_append_drop (i := i + 3) h]
  rfl

end Drop

namespace FrameKind

theorem toWire_of_fromWire {byte : UInt8} {kind : FrameKind}
    (h : fromWire byte = some kind) : kind.toWire = byte := by
  rw [fromWire] at h
  split_ifs at h with hidr hp hintra hparity
  · rw [← Option.some.inj h, hidr]; rfl
  · rw [← Option.some.inj h, hp]; rfl
  · rw [← Option.some.inj h, hintra]; rfl
  · rw [← Option.some.inj h, hparity]; rfl

end FrameKind

namespace DatagramType

theorem toWire_of_fromWire {byte : UInt8} {type : DatagramType}
    (h : fromWire byte = .ok type) : type.toWire = byte := by
  rw [fromWire] at h
  split_ifs at h with hvideo haudio hpadding
  · rw [← Except.ok.inj h, hvideo]; rfl
  · rw [← Except.ok.inj h, haudio]; rfl
  · rw [← Except.ok.inj h, hpadding]; rfl

end DatagramType

/-! ## Video -/

namespace VideoDatagramHeader

/-- What `parse` has checked when it accepts. -/
structure Parsed (datagram : Bytes) (header : VideoDatagramHeader) : Prop where
  length : videoHeaderLen ≤ datagram.length
  type : DatagramType.fromWire (datagram.getD 0 0) = .ok .video
  kind : FrameKind.fromWire (datagram.getD 10 0) = some header.kind
  fields : header =
    { seq := u32At datagram 1
      sessionEpoch := datagram.getD 5 0
      frameId := u32At datagram 6
      kind := header.kind
      chunkIndex := u16At datagram 11
      chunkCount := u16At datagram 13
      parityCount := datagram.getD 15 0
      frameLen := u32At datagram 16
      captureTsUs := u32At datagram 20 }
  wellFormed : header.WellFormed

theorem parsed_of_parse {datagram payload : Bytes}
    {header : VideoDatagramHeader}
    (h : parse datagram = .ok (header, payload)) :
    Parsed datagram header ∧ payload = datagram.drop videoHeaderLen := by
  have hwellFormed : header.WellFormed := wellFormed_of_parse h
  rw [parse] at h
  split at h
  case isTrue hshort => cases h
  case isFalse hlength =>
    split at h
    case h_1 e htype => cases h
    case h_3 type hnot htype => cases h
    case h_2 htype =>
      split at h
      case h_1 hkind => cases h
      case h_2 kind hkind =>
        dsimp only at h
        split at h
        case isTrue hgeometry => cases h
        case isFalse hgeometry =>
          obtain ⟨rfl, rfl⟩ := Prod.mk.inj (Except.ok.inj h)
          exact ⟨⟨Nat.not_lt.mp hlength, htype, hkind, rfl, hwellFormed⟩, rfl⟩

/-- The header of an accepted datagram encodes to it. -/
theorem Parsed.encode {datagram : Bytes} {header : VideoDatagramHeader}
    (h : Parsed datagram header) :
    header.encodeWithPayload (datagram.drop videoHeaderLen) = datagram := by
  have hlength : 24 ≤ datagram.length := h.length
  have hfront : [DatagramType.video.toWire] ++ datagram.drop 1 =
      datagram := by
    rw [DatagramType.toWire_of_fromWire h.type,
      byte_append_drop (i := 0) (by omega), List.drop_zero]
  have hlen : videoHeaderLen = 20 + 4 := rfl
  rw [encodeWithPayload, h.fields, FrameKind.toWire_of_fromWire h.kind, hlen]
  dsimp only
  rw [u32_append_drop (i := 20) (by omega),
    u32_append_drop (i := 16) (by omega),
    byte_append_drop (i := 15) (by omega),
    u16_append_drop (i := 13) (by omega),
    u16_append_drop (i := 11) (by omega),
    byte_append_drop (i := 10) (by omega),
    u32_append_drop (i := 6) (by omega),
    byte_append_drop (i := 5) (by omega),
    u32_append_drop (i := 1) (by omega), hfront]

/-- The parser accepts the encodings of the well-formed headers. -/
theorem parse_eq_ok_iff {datagram payload : Bytes}
    {header : VideoDatagramHeader} :
    parse datagram = .ok (header, payload) ↔
      header.WellFormed ∧ header.encodeWithPayload payload = datagram := by
  constructor
  · intro h
    obtain ⟨hparsed, rfl⟩ := parsed_of_parse h
    exact ⟨hparsed.wellFormed, hparsed.encode⟩
  · rintro ⟨hwellFormed, rfl⟩
    exact parse_encodeWithPayload hwellFormed payload

end VideoDatagramHeader

/-! ## Audio -/

namespace AudioDatagramHeader

theorem parse_encodeWithPayload (header : AudioDatagramHeader)
    (opus : Bytes) :
    parse (header.encodeWithPayload opus) = .ok (header, opus) := by
  have hlength : ¬(header.encodeWithPayload opus).length <
      audioHeaderLen := by
    simp only [encodeWithPayload, audioHeaderLen, List.length_append,
      List.length_singleton, length_u16ToBe, length_u32ToBe]
    omega
  have htype : (header.encodeWithPayload opus).getD 0 0 =
      DatagramType.audio.toWire := rfl
  have hseq : u16At (header.encodeWithPayload opus) 1 = header.seq :=
    u16At_append [_] header.seq _
  have hts : u32At (header.encodeWithPayload opus) 3 = header.tsUs :=
    u32At_append [_, _, _] header.tsUs _
  have hbody : (header.encodeWithPayload opus).drop audioHeaderLen =
      opus := rfl
  simp only [parse, if_neg hlength, htype, DatagramType.fromWire_toWire,
    hseq, hts, hbody]

theorem parse_eq_ok_iff {datagram opus : Bytes}
    {header : AudioDatagramHeader} :
    parse datagram = .ok (header, opus) ↔
      header.encodeWithPayload opus = datagram := by
  constructor
  · intro h
    rw [parse] at h
    split at h
    case isTrue hshort => cases h
    case isFalse hlength =>
      split at h
      case h_1 e htype => cases h
      case h_3 type hnot htype => cases h
      case h_2 htype =>
        obtain ⟨rfl, rfl⟩ := Prod.mk.inj (Except.ok.inj h)
        have hle : 7 ≤ datagram.length := Nat.not_lt.mp hlength
        have hlen : audioHeaderLen = 3 + 4 := rfl
        rw [encodeWithPayload, DatagramType.toWire_of_fromWire htype, hlen]
        dsimp only
        rw [u32_append_drop (i := 3) (by omega),
          u16_append_drop (i := 1) (by omega),
          byte_append_drop (i := 0) (by omega), List.drop_zero]
  · rintro rfl
    exact parse_encodeWithPayload header opus

end AudioDatagramHeader

/-! ## Stamping -/

/-- The datagram with another sequence, and otherwise as it was. -/
structure Stamped (datagram : Bytes) (seq : UInt32) (stamped : Bytes) :
    Prop where
  length : stamped.length = datagram.length
  unchanged : ∀ i, i < seqOffset ∨ seqOffset + 4 ≤ i →
    stamped[i]? = datagram[i]?
  readSeq : readSeq stamped = .ok seq
  parse : VideoDatagramHeader.parse stamped =
    (VideoDatagramHeader.parse datagram).map fun parsed =>
      ({ parsed.1 with seq := seq }, parsed.2)
  padding : isPadding stamped = isPadding datagram

section Stamp

variable {datagram : Bytes}

theorem stampSeq_of_le (h : seqOffset + 4 ≤ datagram.length) (seq : UInt32) :
    stampSeq datagram seq =
      some (splice seqOffset (u32ToBe seq) datagram) := if_pos h

theorem getD_splice_seq (h : seqOffset + 4 ≤ datagram.length) (seq : UInt32)
    {i : ℕ} (hi : i < seqOffset ∨ seqOffset + 4 ≤ i) :
    (splice seqOffset (u32ToBe seq) datagram).getD i 0 =
      datagram.getD i 0 := by
  rw [List.getD_eq_getElem?_getD, List.getD_eq_getElem?_getD,
    getElem?_splice_outside (by rwa [length_u32ToBe])
      (by rwa [length_u32ToBe])]

/-- Bytes behind the sequence are read as before. -/
theorem u32At_splice_seq (h : seqOffset + 4 ≤ datagram.length) (seq : UInt32)
    {i : ℕ} (hi : seqOffset + 4 ≤ i) :
    u32At (splice seqOffset (u32ToBe seq) datagram) i = u32At datagram i := by
  simp only [u32At, getD_splice_seq h seq (Or.inr hi),
    getD_splice_seq h seq (Or.inr (Nat.le_add_right_of_le hi))]

theorem u16At_splice_seq (h : seqOffset + 4 ≤ datagram.length) (seq : UInt32)
    {i : ℕ} (hi : seqOffset + 4 ≤ i) :
    u16At (splice seqOffset (u32ToBe seq) datagram) i = u16At datagram i := by
  simp only [u16At, getD_splice_seq h seq (Or.inr hi),
    getD_splice_seq h seq (Or.inr (Nat.le_add_right_of_le hi))]

theorem u32At_splice_self (h : seqOffset + 4 ≤ datagram.length)
    (seq : UInt32) :
    u32At (splice seqOffset (u32ToBe seq) datagram) seqOffset = seq := by
  have hfront : (datagram.take seqOffset).length = seqOffset :=
    List.length_take_of_le (by omega)
  have hread := u32At_append (datagram.take seqOffset) seq
    (datagram.drop (seqOffset + (u32ToBe seq).length))
  rwa [hfront, ← List.append_assoc] at hread

/-- Stamping a datagram that is long enough. -/
theorem stamped_splice (h : seqOffset + 4 ≤ datagram.length) (seq : UInt32) :
    Stamped datagram seq (splice seqOffset (u32ToBe seq) datagram) := by
  have hlength : (splice seqOffset (u32ToBe seq) datagram).length =
      datagram.length := length_splice (by rwa [length_u32ToBe])
  constructor
  case length => exact hlength
  case unchanged =>
    intro i hi
    exact getElem?_splice_outside (by rwa [length_u32ToBe])
      (by rwa [length_u32ToBe])
  case readSeq =>
    rw [GameStreamer.readSeq, hlength, if_neg (Nat.not_lt.mpr h),
      u32At_splice_self h]
  case parse =>
    have hdrop : (splice seqOffset (u32ToBe seq) datagram).drop
        videoHeaderLen = datagram.drop videoHeaderLen := by
      apply List.ext_getElem?
      intro i
      have hi : seqOffset + 4 ≤ videoHeaderLen + i := by
        simp only [seqOffset, videoHeaderLen]
        omega
      rw [List.getElem?_drop, List.getElem?_drop,
        getElem?_splice_outside (by rwa [length_u32ToBe])
          (by rw [length_u32ToBe]; exact Or.inr hi)]
    have hseq : u32At (splice seqOffset (u32ToBe seq) datagram) 1 = seq :=
      u32At_splice_self h seq
    simp only [VideoDatagramHeader.parse, hlength, hdrop, hseq,
      getD_splice_seq h seq (i := 0) (by decide),
      getD_splice_seq h seq (i := 5) (by decide),
      getD_splice_seq h seq (i := 10) (by decide),
      getD_splice_seq h seq (i := 15) (by decide),
      u32At_splice_seq h seq (i := 6) (by decide),
      u32At_splice_seq h seq (i := 16) (by decide),
      u32At_splice_seq h seq (i := 20) (by decide),
      u16At_splice_seq h seq (i := 11) (by decide),
      u16At_splice_seq h seq (i := 13) (by decide)]
    by_cases hshort : datagram.length < videoHeaderLen
    · rw [if_pos hshort, if_pos hshort]
      rfl
    rw [if_neg hshort, if_neg hshort]
    cases DatagramType.fromWire (datagram.getD 0 0) with
    | error e => rfl
    | ok type =>
        cases type with
        | audio => rfl
        | padding => rfl
        | video =>
            cases FrameKind.fromWire (datagram.getD 10 0) with
            | none => rfl
            | some kind =>
                dsimp only
                split_ifs <;> rfl
  case padding =>
    cases datagram with
    | nil => exact absurd h (by decide)
    | cons first rest => rfl

end Stamp

/-! ## Padding and the three kinds -/

theorem length_encodePadding (len : ℕ) :
    (encodePadding len).length = max len paddingHeaderLen := by
  rw [encodePadding, List.length_set, List.length_replicate]

theorem isPadding_encodePadding (len : ℕ) :
    isPadding (encodePadding len) = true := by
  have hpos : 0 < max len paddingHeaderLen :=
    Nat.lt_of_lt_of_le (by decide) (Nat.le_max_right _ _)
  obtain ⟨rest, hrest⟩ := Nat.exists_eq_succ_of_ne_zero hpos.ne'
  rw [encodePadding, hrest]
  rfl

/-- The parser of the kind, or its discriminator, takes the datagram. -/
def DatagramType.Accepts : DatagramType → Bytes → Prop
  | video, datagram =>
      ∃ parsed, VideoDatagramHeader.parse datagram = .ok parsed
  | audio, datagram =>
      ∃ parsed, AudioDatagramHeader.parse datagram = .ok parsed
  | padding, datagram => isPadding datagram = true

/-- The first byte names the kind that accepts a datagram. -/
theorem fromWire_of_accepts {type : DatagramType} {datagram : Bytes}
    (h : type.Accepts datagram) :
    DatagramType.fromWire (datagram.getD 0 0) = .ok type := by
  cases type with
  | video =>
      obtain ⟨⟨header, payload⟩, hparse⟩ := h
      obtain ⟨-, rfl⟩ := VideoDatagramHeader.parse_eq_ok_iff.mp hparse
      exact DatagramType.fromWire_toWire .video
  | audio =>
      obtain ⟨⟨header, opus⟩, hparse⟩ := h
      obtain rfl := AudioDatagramHeader.parse_eq_ok_iff.mp hparse
      exact DatagramType.fromWire_toWire .audio
  | padding =>
      cases datagram with
      | nil => cases h
      | cons first rest =>
          rw [DatagramType.Accepts, isPadding] at h
          split at h
          case h_1 hfirst => exact Option.some.inj hfirst
          case h_2 => cases h

/-- Encoders, parsers and the stamp agree on every byte string.  The fields say
so for the video and the audio datagrams, the padding and the stamp. -/
structure WireFormat : Prop where
  video : ∀ datagram header payload,
    VideoDatagramHeader.parse datagram = .ok (header, payload) ↔
      header.WellFormed ∧ header.encodeWithPayload payload = datagram
  audio : ∀ datagram header opus,
    AudioDatagramHeader.parse datagram = .ok (header, opus) ↔
      header.encodeWithPayload opus = datagram
  padding : ∀ len, isPadding (encodePadding len) = true
  stampVideo : ∀ (header : VideoDatagramHeader) payload seq,
    ∃ stamped, stampSeq (header.encodeWithPayload payload) seq =
        some stamped ∧
      Stamped (header.encodeWithPayload payload) seq stamped
  stampPadding : ∀ len seq,
    ∃ stamped, stampSeq (encodePadding len) seq = some stamped ∧
      Stamped (encodePadding len) seq stamped
  exclusive : ∀ (datagram : Bytes) (type other : DatagramType),
    type.Accepts datagram → other.Accepts datagram → type = other

/-- The wire format of the datagrams.  On every byte string the two parsers
accept exactly what the encoders produce and give back the header and payload;
stamping changes the sequence bytes alone, and `read_seq` reads what was
stamped; and no datagram is of two kinds. -/
theorem wireFormat : WireFormat where
  video datagram header payload := VideoDatagramHeader.parse_eq_ok_iff
  audio datagram header opus := AudioDatagramHeader.parse_eq_ok_iff
  padding := isPadding_encodePadding
  stampVideo header payload seq := by
    have hle : seqOffset + 4 ≤ (header.encodeWithPayload payload).length := by
      rw [VideoDatagramHeader.length_encodeWithPayload]
      exact Nat.le_add_right_of_le (by decide)
    exact ⟨_, stampSeq_of_le hle seq, stamped_splice hle seq⟩
  stampPadding len seq := by
    have hle : seqOffset + 4 ≤ (encodePadding len).length := by
      rw [length_encodePadding]
      exact Nat.le_max_right _ _
    exact ⟨_, stampSeq_of_le hle seq, stamped_splice hle seq⟩
  exclusive datagram type other htype hother :=
    Except.ok.inj ((fromWire_of_accepts htype).symm.trans
      (fromWire_of_accepts hother))

end GameStreamer
