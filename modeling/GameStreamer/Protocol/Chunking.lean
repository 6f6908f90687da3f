import GameStreamer.Core.Checked
import GameStreamer.Fec.GroupLayout
import GameStreamer.Fec.ReedSolomon
import GameStreamer.Protocol.Datagram

/-!
# Chunking a frame

An encoded frame is cut into data shards, and parity shards are computed group
by group over the shards padded to one length.  Every shard travels in a
datagram of its own, at its index.  The functions follow the source; after them
the shards of a frame are described as a whole, for the receiver's side.
-/

namespace GameStreamer.Chunking

open Tiling Fec

/-- `resize(len, 0)`. -/
def resize (len : ℕ) (bytes : Bytes) : Bytes :=
  bytes.take len ++ List.replicate (len - bytes.length) 0

/-- Parity shards for `count` data shards, within the caps of the wire; a
single group that would not fit the field ships without parity. -/
def parityFor (count : ℕ) (parityPermille : UInt32) : ℕ :=
  let parity :=
    if parityPermille = 0 then 0
    else max (divCeil (count * parityPermille.toNat) 1000) 1
  let parity := min (min parity 255) (65535 - count)
  if count ≤ maxGroupData ∧ 255 < count + parity then 0 else parity

/-- The `hdr` closure of `chunk_video_frame`. -/
def shardHeader (template : VideoDatagramHeader) (count parity frameLen : ℕ)
    (i : ℕ) : VideoDatagramHeader :=
  { template with
    chunkIndex := UInt16.ofNat i
    chunkCount := UInt16.ofNat count
    parityCount := UInt8.ofNat parity
    frameLen := UInt32.ofNat frameLen }

def shardLength (frameData : Bytes) (maxPayload : ℕ) : ℕ :=
  max (min frameData.length maxPayload) 1

/-- The data shards with the last one zero-padded; `none` is the panic on a
frame without chunks. -/
def equalShards (frameData : Bytes) (maxPayload : ℕ) : Option (List Bytes) :=
  let shardLen := shardLength frameData maxPayload
  let shards := chunks maxPayload frameData
  let last := shards.getLast?.getD []
  if last.length < shardLen then
    if shards = [] then none
    else some (shards.dropLast ++ [resize shardLen last])
  else some shards

/-- The parity datagrams of one group. -/
def groupParity (hdr : ℕ → VideoDatagramHeader) (shards : List Bytes)
    (group : FecGroup) : Option (List Bytes) :=
  if group.parityLen = 0 then some []
  else
    (encodeParity (slice group.dataStart group.dataLen shards)
      group.parityLen).map fun parity =>
        parity.zipIdx.map fun (shard, p) =>
          (hdr (group.parityStart + p)).encodeWithPayload shard

/-- Split one encoded frame into datagrams; `none` is a panic.  The data shards
come first and the parity shards of the groups behind them, so that the index
of a shard says which one it is. -/
def chunkVideoFrame (template : VideoDatagramHeader) (frameData : Bytes)
    (maxDatagram : ℕ) (parityPermille : UInt32) :
    Option (Except ProtocolError (List Bytes)) :=
  let maxPayload := maxDatagram - videoHeaderLen
  if maxPayload = 0 then
    some (.error (.serialize "max_datagram smaller than header"))
  else
    let count := max (divCeil frameData.length maxPayload) 1
    if 65535 < count then
      some (.error (.serialize s!"frame needs {count} chunks (> u16::MAX)"))
    else
      let parity := parityFor count parityPermille
      let hdr := shardHeader template count parity frameData.length
      let data :=
        if frameData = [] then [(hdr 0).encodeWithPayload []]
        else (chunks maxPayload frameData).zipIdx.map fun (chunk, i) =>
          (hdr i).encodeWithPayload chunk
      if parity = 0 then some (.ok data)
      else
        (equalShards frameData maxPayload).bind fun shards =>
          ((groupLayout count parity).mapM (groupParity hdr shards)).map
            fun groups => .ok (data ++ groups.flatten)

/-! ## The shards of a frame -/

/-- The parity shards of all groups, in wire order. -/
def parityShards (shards : List Bytes) (m len : ℕ) : List Bytes :=
  (groupLayout shards.length m).flatMap fun group =>
    (List.range group.parityLen).map
      (parityShard (slice group.dataStart group.dataLen shards) len)

/-- The data shards padded to one length. -/
def paddedShards (frameData : Bytes) (maxPayload : ℕ) : List Bytes :=
  (chunks maxPayload frameData).map
    (resize (shardLength frameData maxPayload))

/-- The shards as the code sees them. -/
def codeShards (frameData : Bytes) (maxPayload m : ℕ) : List Bytes :=
  paddedShards frameData maxPayload ++
    parityShards (paddedShards frameData maxPayload) m
      (shardLength frameData maxPayload)

/-- The shards as they travel: the last data shard is not padded. -/
def wireShards (frameData : Bytes) (maxPayload m : ℕ) : List Bytes :=
  chunks maxPayload frameData ++
    parityShards (paddedShards frameData maxPayload) m
      (shardLength frameData maxPayload)

@[simp]
theorem length_resize (len : ℕ) (bytes : Bytes) :
    (resize len bytes).length = len := by
  rw [resize, List.length_append, List.length_take, List.length_replicate]
  omega

theorem resize_of_length {len : ℕ} {bytes : Bytes} (h : bytes.length = len) :
    resize len bytes = bytes := by
  rw [resize, h, Nat.sub_self, List.replicate_zero, List.append_nil,
    List.take_of_length_le h.le]

theorem length_parityShards (shards : List Bytes) (m len : ℕ) :
    (parityShards shards m len).length = m := by
  have htiles := tiles_parity shards.length m
  have hlength := htiles.length_flatMap (f := fun group =>
    (List.range group.parityLen).map
      (parityShard (slice group.dataStart group.dataLen shards) len))
    (fun group _ => by rw [List.length_map, List.length_range])
  exact Nat.add_left_cancel hlength

theorem length_mem_parityShards {shards : List Bytes} {m len : ℕ}
    {shard : Bytes} (h : shard ∈ parityShards shards m len) :
    shard.length = len := by
  obtain ⟨group, -, hmem⟩ := List.mem_flatMap.mp h
  obtain ⟨j, -, rfl⟩ := List.mem_map.mp hmem
  exact length_parityShard _ len j

section Padding

variable {frameData : Bytes} {maxPayload : ℕ}

theorem length_paddedShards :
    (paddedShards frameData maxPayload).length =
      (chunks maxPayload frameData).length := by
  rw [paddedShards, List.length_map]

theorem length_mem_paddedShards {shard : Bytes}
    (h : shard ∈ paddedShards frameData maxPayload) :
    shard.length = shardLength frameData maxPayload := by
  obtain ⟨chunk, -, rfl⟩ := List.mem_map.mp h
  exact length_resize _ chunk

theorem shardLength_eq (hne : frameData ≠ []) (hmax : 0 < maxPayload) :
    shardLength frameData maxPayload = min frameData.length maxPayload := by
  have hpos := List.length_pos_iff.mpr hne
  rw [shardLength]
  omega

/-- All chunks but the last have the common length. -/
theorem resize_dropLast_chunks (hne : frameData ≠ []) (hmax : 0 < maxPayload) :
    (chunks maxPayload frameData).dropLast.map
        (resize (shardLength frameData maxPayload)) =
      (chunks maxPayload frameData).dropLast := by
  apply (List.map_congr_left _).trans (List.map_id _)
  intro chunk hchunk
  apply resize_of_length
  rw [length_mem_dropLast_chunks hmax hchunk, shardLength_eq hne hmax]

theorem chunks_ne_nil (hne : frameData ≠ []) (hmax : 0 < maxPayload) :
    chunks maxPayload frameData ≠ [] := by
  intro hnil
  apply hne
  rw [← flatten_chunks hmax frameData, hnil, List.flatten_nil]

/-- The padded shards are all chunks but the last, and the last one padded. -/
theorem paddedShards_eq (hne : frameData ≠ []) (hmax : 0 < maxPayload) :
    paddedShards frameData maxPayload =
      (chunks maxPayload frameData).dropLast ++
        [resize (shardLength frameData maxPayload)
          ((chunks maxPayload frameData).getLast
            (chunks_ne_nil hne hmax))] := by
  have hsplit := List.dropLast_append_getLast (chunks_ne_nil hne hmax)
  rw [← resize_dropLast_chunks hne hmax, ← List.map_singleton,
    ← List.map_append, hsplit, paddedShards]

theorem equalShards_eq (hne : frameData ≠ []) (hmax : 0 < maxPayload) :
    equalShards frameData maxPayload =
      some (paddedShards frameData maxPayload) := by
  have hchunks := chunks_ne_nil hne hmax
  have hsplit := List.dropLast_append_getLast hchunks
  rw [equalShards, List.getLast?_eq_some_getLast hchunks, Option.getD_some,
    if_neg hchunks, paddedShards_eq hne hmax]
  split_ifs with hshort
  · rfl
  · have hle := length_mem_chunks (List.getLast_mem hchunks)
    rw [← shardLength_eq hne hmax] at hle
    rw [resize_of_length (by omega), hsplit]

/-- Padding only adds to the end of the frame. -/
theorem take_flatten_paddedShards (hne : frameData ≠ [])
    (hmax : 0 < maxPayload) :
    (paddedShards frameData maxPayload).flatten.take frameData.length =
      frameData := by
  have hchunks := chunks_ne_nil hne hmax
  have hle := length_mem_chunks (List.getLast_mem hchunks)
  rw [← shardLength_eq hne hmax] at hle
  have hflat := flatten_chunks hmax frameData
  rw [← List.dropLast_append_getLast hchunks, List.flatten_append,
    List.flatten_singleton] at hflat
  rw [paddedShards_eq hne hmax, List.flatten_append, List.flatten_singleton,
    resize, List.take_of_length_le hle, ← List.append_assoc, hflat,
    List.take_left]

end Padding

/-! ## What the chunker sends -/

theorem parityFor_le (count : ℕ) (parityPermille : UInt32) :
    parityFor count parityPermille ≤ min 255 (65535 - count) := by
  simp only [parityFor]
  split_ifs <;> omega

theorem parityFor_single {count : ℕ} (parityPermille : UInt32)
    (hcount : count ≤ maxGroupData) :
    count + parityFor count parityPermille ≤ 255 := by
  have hle : maxGroupData ≤ 255 := by decide
  simp only [parityFor]
  split_ifs <;> omega

/-- Shard `i` in its datagram. -/
def shardDatagram (hdr : ℕ → VideoDatagramHeader) (entry : Bytes × ℕ) :
    Bytes :=
  (hdr entry.2).encodeWithPayload entry.1

section Header

variable (template : VideoDatagramHeader) {count parity : ℕ} (frameLen i : ℕ)

theorem toNat_chunkCount_shardHeader (h : count ≤ 65535) :
    (shardHeader template count parity frameLen i).chunkCount.toNat =
      count := by
  rw [shardHeader, UInt16.toNat_ofNat', Nat.mod_eq_of_lt (by omega)]

theorem toNat_parityCount_shardHeader (h : parity ≤ 255) :
    (shardHeader template count parity frameLen i).parityCount.toNat =
      parity := by
  rw [shardHeader, UInt8.toNat_ofNat', Nat.mod_eq_of_lt (by omega)]

variable {i}

theorem toNat_chunkIndex_shardHeader (h : i ≤ 65535) :
    (shardHeader template count parity frameLen i).chunkIndex.toNat = i := by
  rw [shardHeader, UInt16.toNat_ofNat', Nat.mod_eq_of_lt (by omega)]

/-- Within the caps of the wire, every shard's header is one that parses. -/
theorem shardHeader_wellFormed (hpos : 0 < count)
    (htotal : count + parity ≤ 65535) (hparity : parity ≤ 255)
    (hi : i < count + parity) :
    (shardHeader template count parity frameLen i).WellFormed := by
  have hcount := @toNat_chunkCount_shardHeader template count parity frameLen i
    (by omega)
  constructor
  · intro hzero
    rw [hzero] at hcount
    exact absurd hcount.symm hpos.ne'
  · rw [totalShards, hcount,
      toNat_parityCount_shardHeader template frameLen i hparity,
      toNat_chunkIndex_shardHeader template frameLen (by omega)]
    exact hi

end Header

theorem groupParity_eq (hdr : ℕ → VideoDatagramHeader) {shards : List Bytes}
    {len m : ℕ} {group : FecGroup} (hne : 1 ≤ shards.length)
    (hlen : ∀ s ∈ shards, s.length = len)
    (hgroup : group ∈ groupLayout shards.length m)
    (hfits : group.dataLen + group.parityLen ≤ 255) :
    groupParity hdr shards group =
      some ((((List.range group.parityLen).map
        (parityShard (slice group.dataStart group.dataLen shards)
          len)).zipIdx group.parityStart).map (shardDatagram hdr)) := by
  have hbounds := (tiles_data shards.length m).bounds hgroup
  have hslice := length_slice (l := shards) hbounds.2
  rw [groupParity]
  split_ifs with hzero
  · rw [hzero]
    rfl
  · have hencode := encodeParity_eq len group.parityLen
      (hslice.symm ▸ dataLen_pos hne hgroup) (hslice.symm ▸ hfits)
      fun s hs => hlen s (mem_of_mem_slice hs)
    rw [hencode, Option.map_some,
      List.zipIdx_eq_map_add (i := group.parityStart), List.map_map]
    rfl

/-- Numbering each group's parity from its start numbers the wire shards. -/
theorem zipIdx_wireShards (frameData : Bytes) (maxPayload m : ℕ) :
    (wireShards frameData maxPayload m).zipIdx =
      (chunks maxPayload frameData).zipIdx ++
        (groupLayout (paddedShards frameData maxPayload).length m).flatMap
          fun group => ((List.range group.parityLen).map
            (parityShard (slice group.dataStart group.dataLen
              (paddedShards frameData maxPayload))
              (shardLength frameData maxPayload))).zipIdx
                group.parityStart := by
  have htiles := tiles_parity (paddedShards frameData maxPayload).length m
  rw [wireShards, List.zipIdx_append, parityShards, htiles.zipIdx_flatMap,
    length_paddedShards, Nat.zero_add]
  intro group _
  rw [List.length_map, List.length_range]

/-- A frame within the limits is sent as its wire shards, each in its own
datagram. -/
theorem chunkVideoFrame_of_count (template : VideoDatagramHeader)
    {frameData : Bytes} {maxDatagram : ℕ} (parityPermille : UInt32)
    (hne : frameData ≠ []) (hmax : 0 < maxDatagram - videoHeaderLen)
    {count : ℕ}
    (hcount : (chunks (maxDatagram - videoHeaderLen) frameData).length = count)
    (hle : count ≤ 65535) :
    chunkVideoFrame template frameData maxDatagram parityPermille =
      some (.ok ((wireShards frameData (maxDatagram - videoHeaderLen)
        (parityFor count parityPermille)).zipIdx.map
          (shardDatagram (shardHeader template count
            (parityFor count parityPermille) frameData.length)))) := by
  have hpos : 1 ≤ count := by
    rw [← hcount]
    exact List.length_pos_iff.mpr (chunks_ne_nil hne hmax)
  have hceil : max (divCeil frameData.length (maxDatagram - videoHeaderLen)) 1 =
      count := by
    rw [← length_chunks, hcount]
    exact Nat.max_eq_left hpos
  have hpadded : (paddedShards frameData
      (maxDatagram - videoHeaderLen)).length = count := by
    rw [length_paddedShards, hcount]
  have hparity := parityFor_le count parityPermille
  have hsingle : count ≤ maxGroupData →
      count + parityFor count parityPermille ≤ 255 :=
    parityFor_single parityPermille
  generalize hchosen : parityFor count parityPermille = parity at *
  rw [chunkVideoFrame, if_neg (Nat.ne_of_gt hmax), hceil,
    if_neg (Nat.not_lt.mpr hle), hchosen]
  dsimp only
  rw [if_neg hne]
  split_ifs with hnone
  · have hnil : parityShards (paddedShards frameData
        (maxDatagram - videoHeaderLen)) parity
        (shardLength frameData (maxDatagram - videoHeaderLen)) = [] := by
      apply List.eq_nil_of_length_eq_zero
      rw [length_parityShards, hnone]
    rw [wireShards, hnil, List.append_nil]
    rfl
  · have hgroups := Checked.mapM_eq (l := groupLayout count parity)
      fun group hgroup => groupParity_eq
        (shardHeader template count parity frameData.length)
        (hpadded.symm ▸ hpos) (fun s hs => length_mem_paddedShards hs)
        (hpadded.symm ▸ hgroup)
        (group_fits (k := count) (by omega) (fun hk => hsingle hk) hgroup)
    rw [equalShards_eq hne hmax, Option.bind_some, hgroups, Option.map_some,
      zipIdx_wireShards, List.map_append, hpadded, List.map_flatMap,
      ← List.flatMap_def]
    rfl

/-- What the chunker returned is the wire shards, each in its own datagram. -/
theorem chunkVideoFrame_eq {template : VideoDatagramHeader}
    {frameData : Bytes} {maxDatagram : ℕ} {parityPermille : UInt32}
    {datagrams : List Bytes} (hne : frameData ≠ [])
    (hok : chunkVideoFrame template frameData maxDatagram parityPermille =
      some (.ok datagrams)) :
    let maxPayload := maxDatagram - videoHeaderLen
    let count := (chunks maxPayload frameData).length
    let parity := parityFor count parityPermille
    0 < maxPayload ∧ count ≤ 65535 ∧
      datagrams = (wireShards frameData maxPayload parity).zipIdx.map
        (shardDatagram
          (shardHeader template count parity frameData.length)) := by
  intro maxPayload count parity
  by_cases hmax : maxPayload = 0
  · rw [chunkVideoFrame, if_pos hmax] at hok
    cases hok
  · have hpos := Nat.pos_of_ne_zero hmax
    have hcount := length_chunks maxPayload frameData
    by_cases hle : count ≤ 65535
    · have heq := chunkVideoFrame_of_count template parityPermille hne hpos rfl
        hle
      rw [heq] at hok
      exact ⟨hpos, hle, (Except.ok.inj (Option.some.inj hok)).symm⟩
    · have hmany : 65535 < max (divCeil frameData.length maxPayload) 1 := by
        omega
      rw [chunkVideoFrame, if_neg hmax, if_pos hmany] at hok
      cases hok

end GameStreamer.Chunking
