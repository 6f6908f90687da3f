import GameStreamer.Core.Bytes
import GameStreamer.Core.Media
import GameStreamer.Core.Tiling
import Mathlib.Data.UInt
import Mathlib.Data.List.GetD
import Mathlib.Tactic.Ring

/-!
# Hot-path datagram framing

Fixed big-endian layouts whose first byte discriminates the datagram type.
The source's slices `datagram[a..b]` are read byte by byte after its length
check.  A parser gives back the header and the payload behind it, or the error
that the source returns, with its numbers.
-/

namespace GameStreamer

/-- Errors produced while encoding or decoding wire data. -/
inductive ProtocolError where
  | tooShort (got need : ℕ)
  | unknownDatagramType (byte : UInt8)
  | unknownFrameKind (byte : UInt8)
  | invalidChunk (index count : UInt16)
  | unsupportedVersion (version : UInt16)
  | serialize (message : String)
  deriving DecidableEq, Repr

section BigEndian

/-- `u16::to_be_bytes`. -/
def u16ToBe (value : UInt16) : Bytes :=
  [UInt8.ofNat (value.toNat / 2 ^ 8), UInt8.ofNat value.toNat]

/-- `u32::to_be_bytes`. -/
def u32ToBe (value : UInt32) : Bytes :=
  [UInt8.ofNat (value.toNat / 2 ^ 24), UInt8.ofNat (value.toNat / 2 ^ 16),
    UInt8.ofNat (value.toNat / 2 ^ 8), UInt8.ofNat value.toNat]

/-- `u16::from_be_bytes` of the two bytes at `at`. -/
def u16At (bytes : Bytes) (index : ℕ) : UInt16 :=
  UInt16.ofNat ((bytes.getD index 0).toNat * 2 ^ 8 +
    (bytes.getD (index + 1) 0).toNat)

/-- `u32::from_be_bytes` of the four bytes at `at`. -/
def u32At (bytes : Bytes) (index : ℕ) : UInt32 :=
  UInt32.ofNat ((bytes.getD index 0).toNat * 2 ^ 24 +
    (bytes.getD (index + 1) 0).toNat * 2 ^ 16 +
    (bytes.getD (index + 2) 0).toNat * 2 ^ 8 +
    (bytes.getD (index + 3) 0).toNat)

@[simp]
theorem length_u16ToBe (value : UInt16) : (u16ToBe value).length = 2 := rfl

@[simp]
theorem length_u32ToBe (value : UInt32) : (u32ToBe value).length = 4 := rfl

theorem u16At_append (front : Bytes) (value : UInt16) (back : Bytes) :
    u16At (front ++ (u16ToBe value ++ back)) front.length = value := by
  have hlt := value.toNat_lt
  apply UInt16.toNat_inj.mp
  simp only [u16At, u16ToBe, List.getD_append_right _ _ _ _ le_rfl,
    List.getD_append_right _ _ _ _ (Nat.le_add_right _ _), Nat.sub_self,
    Nat.add_sub_cancel_left, List.cons_append, List.nil_append,
    List.getD_cons_zero, List.getD_cons_succ, UInt8.toNat_ofNat',
    UInt16.toNat_ofNat']
  omega

theorem u32At_append (front : Bytes) (value : UInt32) (back : Bytes) :
    u32At (front ++ (u32ToBe value ++ back)) front.length = value := by
  have hlt := value.toNat_lt
  apply UInt32.toNat_inj.mp
  simp only [u32At, u32ToBe, List.getD_append_right _ _ _ _ le_rfl,
    List.getD_append_right _ _ _ _ (Nat.le_add_right _ _), Nat.sub_self,
    Nat.add_sub_cancel_left, List.cons_append, List.nil_append,
    List.getD_cons_zero, List.getD_cons_succ, UInt8.toNat_ofNat',
    UInt32.toNat_ofNat']
  omega

end BigEndian

inductive DatagramType where
  | video
  | audio
  | padding
  deriving DecidableEq, Repr

namespace DatagramType

def toWire : DatagramType → UInt8
  | video => 1
  | audio => 2
  | padding => 3

def fromWire (byte : UInt8) : Except ProtocolError DatagramType :=
  if byte = 1 then .ok video
  else if byte = 2 then .ok audio
  else if byte = 3 then .ok padding
  else .error (.unknownDatagramType byte)

@[simp]
theorem fromWire_toWire (type : DatagramType) :
    fromWire type.toWire = .ok type := by
  cases type <;> rfl

end DatagramType

/-! ## The transport-wide sequence -/

/-- Bytes 1 to 4 of every video and padding datagram. -/
def seqOffset : ℕ := 1

/-- Write the send-order sequence into an encoded datagram; `none` is the
panic on a shorter one. -/
def stampSeq (datagram : Bytes) (seq : UInt32) : Option Bytes :=
  if seqOffset + 4 ≤ datagram.length then
    some (Tiling.splice seqOffset (u32ToBe seq) datagram)
  else none

def readSeq (datagram : Bytes) : Except ProtocolError UInt32 :=
  if datagram.length < seqOffset + 4 then
    .error (.tooShort datagram.length (seqOffset + 4))
  else .ok (u32At datagram seqOffset)

def paddingHeaderLen : ℕ := 1 + 4

/-- A padding datagram of `len` bytes, at least the header's. -/
def encodePadding (len : ℕ) : Bytes :=
  (List.replicate (max len paddingHeaderLen) 0).set 0
    DatagramType.padding.toWire

/-- The receive task takes the datagram for padding. -/
def isPadding (datagram : Bytes) : Bool :=
  match datagram.head?.map DatagramType.fromWire with
  | some (.ok .padding) => true
  | _ => false

/-- Parsed header of a video datagram. -/
structure VideoDatagramHeader where
  /-- Send-order transport sequence, 0 until stamped. -/
  seq : UInt32
  /-- Bumps on encoder reset. -/
  sessionEpoch : UInt8
  frameId : UInt32
  kind : FrameKind
  /-- Shard index: data shards first, then parity. -/
  chunkIndex : UInt16
  /-- Data shard count. -/
  chunkCount : UInt16
  /-- Reed-Solomon parity shards following the data shards. -/
  parityCount : UInt8
  /-- Exact encoded frame length, which trims the shard padding. -/
  frameLen : UInt32
  captureTsUs : UInt32
  deriving DecidableEq, Repr

def videoHeaderLen : ℕ := 1 + 4 + 1 + 4 + 1 + 2 + 2 + 1 + 4 + 4

/-- Total shard count (data and parity) for a frame's header values. -/
def totalShards (chunkCount : UInt16) (parityCount : UInt8) : ℕ :=
  chunkCount.toNat + parityCount.toNat

namespace VideoDatagramHeader

def encodeWithPayload (header : VideoDatagramHeader) (payload : Bytes) :
    Bytes :=
  [DatagramType.video.toWire] ++ (u32ToBe header.seq ++
    ([header.sessionEpoch] ++ (u32ToBe header.frameId ++
    ([header.kind.toWire] ++ (u16ToBe header.chunkIndex ++
    (u16ToBe header.chunkCount ++ ([header.parityCount] ++
    (u32ToBe header.frameLen ++ (u32ToBe header.captureTsUs ++ payload)))))))))

/-- Parse a video datagram into its header and payload. -/
def parse (datagram : Bytes) :
    Except ProtocolError (VideoDatagramHeader × Bytes) :=
  if datagram.length < videoHeaderLen then
    .error (.tooShort datagram.length videoHeaderLen)
  else
    match DatagramType.fromWire (datagram.getD 0 0) with
    | .error e => .error e
    | .ok .video =>
      match FrameKind.fromWire (datagram.getD 10 0) with
      | none => .error (.unknownFrameKind (datagram.getD 10 0))
      | some kind =>
        let header : VideoDatagramHeader :=
          { seq := u32At datagram 1
            sessionEpoch := datagram.getD 5 0
            frameId := u32At datagram 6
            kind := kind
            chunkIndex := u16At datagram 11
            chunkCount := u16At datagram 13
            parityCount := datagram.getD 15 0
            frameLen := u32At datagram 16
            captureTsUs := u32At datagram 20 }
        if header.chunkCount = 0 ∨
            totalShards header.chunkCount header.parityCount ≤
              header.chunkIndex.toNat then
          .error (.invalidChunk header.chunkIndex header.chunkCount)
        else .ok (header, datagram.drop videoHeaderLen)
    | .ok _ => .error (.unknownDatagramType (datagram.getD 0 0))

/-- The chunk geometry that `parse` insists on. -/
def WellFormed (header : VideoDatagramHeader) : Prop :=
  header.chunkCount ≠ 0 ∧
    header.chunkIndex.toNat < totalShards header.chunkCount header.parityCount

theorem length_encodeWithPayload (header : VideoDatagramHeader)
    (payload : Bytes) :
    (header.encodeWithPayload payload).length =
      videoHeaderLen + payload.length := by
  simp [encodeWithPayload, videoHeaderLen]
  omega

/-- Every encoded packet of a well-formed header parses back to that header
and its payload. -/
theorem parse_encodeWithPayload {header : VideoDatagramHeader}
    (hvalid : header.WellFormed) (payload : Bytes) :
    parse (header.encodeWithPayload payload) = .ok (header, payload) := by
  have hlength : ¬ (header.encodeWithPayload payload).length <
      videoHeaderLen := by
    rw [length_encodeWithPayload]; omega
  have hseq : u32At (header.encodeWithPayload payload) 1 = header.seq :=
    u32At_append [_] header.seq _
  have hframe : u32At (header.encodeWithPayload payload) 6 =
      header.frameId :=
    u32At_append [_, _, _, _, _, _] header.frameId _
  have hindex : u16At (header.encodeWithPayload payload) 11 =
      header.chunkIndex :=
    u16At_append [_, _, _, _, _, _, _, _, _, _, _] header.chunkIndex _
  have hcount : u16At (header.encodeWithPayload payload) 13 =
      header.chunkCount :=
    u16At_append [_, _, _, _, _, _, _, _, _, _, _, _, _] header.chunkCount _
  have hlen : u32At (header.encodeWithPayload payload) 16 =
      header.frameLen :=
    u32At_append [_, _, _, _, _, _, _, _, _, _, _, _, _, _, _, _]
      header.frameLen _
  have hts : u32At (header.encodeWithPayload payload) 20 =
      header.captureTsUs :=
    u32At_append
      [_, _, _, _, _, _, _, _, _, _, _, _, _, _, _, _, _, _, _, _]
      header.captureTsUs _
  have htype : (header.encodeWithPayload payload).getD 0 0 =
      DatagramType.video.toWire := rfl
  have hepoch : (header.encodeWithPayload payload).getD 5 0 =
      header.sessionEpoch := rfl
  have hkind : (header.encodeWithPayload payload).getD 10 0 =
      header.kind.toWire := rfl
  have hparity : (header.encodeWithPayload payload).getD 15 0 =
      header.parityCount := rfl
  have hbody : (header.encodeWithPayload payload).drop videoHeaderLen =
      payload := rfl
  have hgeometry : ¬ (header.chunkCount = 0 ∨
      totalShards header.chunkCount header.parityCount ≤
        header.chunkIndex.toNat) := by
    rintro (hzero | hrange)
    · exact hvalid.1 hzero
    · exact absurd hvalid.2 (by omega)
  simp only [parse, if_neg hlength, htype, DatagramType.fromWire_toWire,
    hkind, FrameKind.fromWire_toWire, hseq, hepoch, hframe, hindex, hcount,
    hparity, hlen, hts, hbody, if_neg hgeometry]

/-- Whatever `parse` accepts has a well-formed header. -/
theorem wellFormed_of_parse {datagram : Bytes}
    {parsed : VideoDatagramHeader × Bytes}
    (hparse : parse datagram = .ok parsed) : parsed.1.WellFormed := by
  rw [parse] at hparse
  split at hparse
  · cases hparse
  · split at hparse
    · cases hparse
    · split at hparse
      · cases hparse
      · simp only at hparse
        split at hparse
        · cases hparse
        · rename_i hgeometry
          simp only [Except.ok.injEq] at hparse
          subst hparse
          simpa only [WellFormed, not_or, not_le, ne_eq] using hgeometry
    · cases hparse

end VideoDatagramHeader

/-- Parsed header of an audio datagram, which carries one Opus frame. -/
structure AudioDatagramHeader where
  /-- Monotonic sequence number, which wraps. -/
  seq : UInt16
  tsUs : UInt32
  deriving DecidableEq, Repr

def audioHeaderLen : ℕ := 1 + 2 + 4

namespace AudioDatagramHeader

def encodeWithPayload (header : AudioDatagramHeader) (opus : Bytes) : Bytes :=
  [DatagramType.audio.toWire] ++ (u16ToBe header.seq ++
    (u32ToBe header.tsUs ++ opus))

/-- Parse an audio datagram into its header and Opus payload. -/
def parse (datagram : Bytes) :
    Except ProtocolError (AudioDatagramHeader × Bytes) :=
  if datagram.length < audioHeaderLen then
    .error (.tooShort datagram.length audioHeaderLen)
  else
    match DatagramType.fromWire (datagram.getD 0 0) with
    | .error e => .error e
    | .ok .audio =>
      .ok ({ seq := u16At datagram 1, tsUs := u32At datagram 3 },
        datagram.drop audioHeaderLen)
    | .ok _ => .error (.unknownDatagramType (datagram.getD 0 0))

end AudioDatagramHeader

end GameStreamer
