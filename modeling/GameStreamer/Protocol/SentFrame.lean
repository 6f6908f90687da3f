import GameStreamer.Protocol.Chunking

/-!
# A frame in transit

The frame that the chunker sent, with the limits it kept, and what its
datagrams say: which shard each one carries and how the shards that travel
relate to those of the code.
-/

namespace GameStreamer

open Tiling Fec Chunking

/-- A frame that the chunker sends, with the sizes that it was cut to.  The
fields are what a receiver may rely on when it reads the datagrams. -/
structure SentFrame where
  template : VideoDatagramHeader
  frameData : Bytes
  maxPayload : ℕ
  parity : ℕ
  nonempty : frameData ≠ []
  short : frameData.length < 2 ^ 32
  payload_pos : 0 < maxPayload
  total_le : (chunks maxPayload frameData).length + parity ≤ 65535
  parity_le : parity ≤ 255
  single : (chunks maxPayload frameData).length ≤ maxGroupData →
    (chunks maxPayload frameData).length + parity ≤ 255

namespace SentFrame

variable (f : SentFrame)

/-- Data shards of the frame. -/
def count : ℕ := (chunks f.maxPayload f.frameData).length

/-- All shards of the frame. -/
def total : ℕ := f.count + f.parity

/-- The length that the data shards are padded to. -/
def shardLen : ℕ := shardLength f.frameData f.maxPayload

/-- The data shards as the code sees them. -/
def padded : List Bytes := paddedShards f.frameData f.maxPayload

def code : List Bytes := codeShards f.frameData f.maxPayload f.parity

def wire : List Bytes := wireShards f.frameData f.maxPayload f.parity

def groups : List FecGroup := groupLayout f.count f.parity

def header (i : ℕ) : VideoDatagramHeader :=
  shardHeader f.template f.count f.parity f.frameData.length i

/-- The datagram of shard `i`. -/
def datagram (i : ℕ) : Bytes :=
  (f.header i).encodeWithPayload (f.wire.getD i [])

theorem count_pos : 0 < f.count :=
  List.length_pos_iff.mpr (chunks_ne_nil f.nonempty f.payload_pos)

theorem length_padded : f.padded.length = f.count := length_paddedShards

theorem length_code : f.code.length = f.total := by
  rw [code, codeShards, List.length_append, length_parityShards,
    length_paddedShards]
  rfl

theorem length_wire : f.wire.length = f.total := by
  rw [wire, wireShards, List.length_append, length_parityShards]
  rfl

theorem shardLen_pos : 0 < f.shardLen := Nat.le_max_right _ _

/-- The code pads what travels. -/
theorem code_eq : f.code = f.wire.map (resize f.shardLen) := by
  have hparity : ∀ shards, (parityShards shards f.parity f.shardLen).map
      (resize f.shardLen) = parityShards shards f.parity f.shardLen := by
    intro shards
    apply (List.map_congr_left _).trans (List.map_id _)
    intro shard hshard
    exact resize_of_length (length_mem_parityShards hshard)
  rw [wire, wireShards, List.map_append]
  exact congrArg (f.padded ++ ·) (hparity f.padded).symm

/-- Only the last data shard may travel short. -/
theorem length_wire_shard {i : ℕ} {shard : Bytes}
    (h : f.wire[i]? = some shard) :
    shard.length ≤ f.shardLen ∧
      (i ≠ f.count - 1 → shard.length = f.shardLen) := by
  have hlen : f.shardLen = min f.frameData.length f.maxPayload :=
    shardLength_eq f.nonempty f.payload_pos
  rcases Nat.lt_or_ge i f.count with hlt | hge
  · rw [wire, wireShards, List.getElem?_append_left hlt] at h
    constructor
    · rw [hlen]
      exact length_mem_chunks (List.mem_of_getElem? h)
    · intro hlast
      rw [hlen]
      apply length_mem_dropLast_chunks f.payload_pos
      apply List.mem_of_getElem? (i := i)
      have hbefore : i < (chunks f.maxPayload f.frameData).length - 1 :=
        show i < f.count - 1 by omega
      rw [List.getElem?_dropLast, if_pos hbefore, h]
  · rw [wire, wireShards, List.getElem?_append_right hge] at h
    have hparity := length_mem_parityShards (List.mem_of_getElem? h)
    exact ⟨hparity.le, fun _ => hparity⟩

/-! ## The headers -/

theorem toNat_chunkCount (i : ℕ) :
    (f.header i).chunkCount.toNat = f.count := by
  have hle : f.count + f.parity ≤ 65535 := f.total_le
  exact toNat_chunkCount_shardHeader _ _ _ (by omega)

theorem toNat_chunkIndex {i : ℕ} (hi : i < f.total) :
    (f.header i).chunkIndex.toNat = i := by
  have hle : f.total ≤ 65535 := f.total_le
  exact toNat_chunkIndex_shardHeader _ _ (by omega)

theorem totalShards_header (i : ℕ) :
    totalShards (f.header i).chunkCount (f.header i).parityCount = f.total := by
  rw [totalShards, toNat_chunkCount, header,
    toNat_parityCount_shardHeader _ _ _ f.parity_le, total]

theorem toNat_frameLen (i : ℕ) :
    (f.header i).frameLen.toNat = f.frameData.length := by
  rw [header, shardHeader, UInt32.toNat_ofNat', Nat.mod_eq_of_lt f.short]

theorem header_wellFormed {i : ℕ} (hi : i < f.total) :
    (f.header i).WellFormed :=
  shardHeader_wellFormed _ _ f.count_pos f.total_le f.parity_le hi

theorem parse_datagram {i : ℕ} (hi : i < f.total) :
    VideoDatagramHeader.parse (f.datagram i) =
      .ok (f.header i, f.wire.getD i []) :=
  VideoDatagramHeader.parse_encodeWithPayload (f.header_wellFormed hi) _

end SentFrame

/-- What the chunker returns is a frame in transit. -/
theorem exists_sentFrame {template : VideoDatagramHeader} {frameData : Bytes}
    {maxDatagram : ℕ} {parityPermille : UInt32} {datagrams : List Bytes}
    (hne : frameData ≠ []) (hshort : frameData.length < 2 ^ 32)
    (hok : chunkVideoFrame template frameData maxDatagram parityPermille =
      some (.ok datagrams)) :
    ∃ f : SentFrame, f.template = template ∧ f.frameData = frameData ∧
      f.maxPayload = maxDatagram - videoHeaderLen ∧
      f.parity =
        parityFor (chunks f.maxPayload frameData).length parityPermille ∧
      datagrams = (List.range f.total).map f.datagram := by
  obtain ⟨hpos, hcount, hdatagrams⟩ := chunkVideoFrame_eq hne hok
  generalize hpayload : maxDatagram - videoHeaderLen = maxPayload at *
  have hparity :=
    parityFor_le (chunks maxPayload frameData).length parityPermille
  refine ⟨⟨template, frameData, maxPayload,
    parityFor (chunks maxPayload frameData).length parityPermille, hne, hshort,
    hpos, ?_, ?_, parityFor_single parityPermille⟩, rfl, rfl, rfl, rfl, ?_⟩
  · omega
  · omega
  · rw [hdatagrams, zipIdx_eq_map, List.map_map, ← SentFrame.length_wire]
    rfl

end GameStreamer
