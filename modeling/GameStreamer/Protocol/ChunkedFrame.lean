import GameStreamer.Protocol.Chunking

/-!
# What the chunker guarantees

For a frame with bytes, the chunker returns, and the datagrams that it returns
parse to the shards in order.  An empty frame has no chunk that could be
padded: as soon as it is to get parity, the chunker panics.
-/

namespace GameStreamer.Chunking

open Tiling Fec

/-- `groupParity`, which indexes the shards of its group. -/
def groupParityChecked (hdr : ℕ → VideoDatagramHeader) (shards : List Bytes)
    (group : FecGroup) : Option (List Bytes) :=
  if group.parityLen = 0 then some []
  else
    (Checked.slice group.dataStart group.dataLen shards).bind fun data =>
      (encodeParity data group.parityLen).map fun parity =>
        parity.zipIdx.map fun (shard, p) =>
          (hdr (group.parityStart + p)).encodeWithPayload shard

/-- `chunkVideoFrame` with the bounds checks of its slices. -/
def chunkVideoFrameChecked (template : VideoDatagramHeader)
    (frameData : Bytes) (maxDatagram : ℕ) (parityPermille : UInt32) :
    Option (Except ProtocolError (List Bytes)) :=
  let maxPayload := maxDatagram - videoHeaderLen
  if maxPayload = 0 then
    some (.error (.serialize "max_datagram smaller than header"))
  else
    let count := max (divCeil frameData.length maxPayload) 1
    if 65535 < count then
      some (.error (.serialize s!"frame needs {count} chunks (> u16::MAX)"))
    else
      let parity := parityFor count parityPermille
      let hdr := shardHeader template count parity frameData.length
      let data :=
        if frameData = [] then [(hdr 0).encodeWithPayload []]
        else (chunks maxPayload frameData).zipIdx.map fun (chunk, i) =>
          (hdr i).encodeWithPayload chunk
      if parity = 0 then some (.ok data)
      else
        (equalShards frameData maxPayload).bind fun shards =>
          ((groupLayout count parity).mapM
            (groupParityChecked hdr shards)).map
              fun groups => .ok (data ++ groups.flatten)

/-- An empty frame has no last chunk to pad. -/
theorem equalShards_nil (maxPayload : ℕ) :
    equalShards [] maxPayload = none := by
  have hchunks : chunks maxPayload ([] : Bytes) = [] := by
    apply List.eq_nil_of_length_eq_zero
    rw [length_chunks, divCeil, List.length_nil, Nat.zero_mod, if_pos rfl,
      Nat.zero_div]
  rw [equalShards, hchunks, if_pos, if_pos rfl]
  exact Nat.lt_of_lt_of_le Nat.zero_lt_one (Nat.le_max_right _ _)

theorem length_equalShards {frameData : Bytes} {maxPayload : ℕ}
    (hpos : 0 < maxPayload) {shards : List Bytes}
    (hshards : equalShards frameData maxPayload = some shards) :
    shards.length = max (divCeil frameData.length maxPayload) 1 := by
  by_cases hne : frameData = []
  · rw [hne, equalShards_nil] at hshards
    cases hshards
  · have hone := List.length_pos_iff.mpr (chunks_ne_nil hne hpos)
    rw [equalShards_eq hne hpos] at hshards
    rw [← Option.some.inj hshards, length_paddedShards, ← length_chunks]
    exact (Nat.max_eq_left hone).symm

/-- The groups cover the shards, so no slice is out of range. -/
theorem chunkVideoFrameChecked_eq (template : VideoDatagramHeader)
    (frameData : Bytes) (maxDatagram : ℕ) (parityPermille : UInt32) :
    chunkVideoFrameChecked template frameData maxDatagram parityPermille =
      chunkVideoFrame template frameData maxDatagram parityPermille := by
  rw [chunkVideoFrameChecked, chunkVideoFrame]
  by_cases hmax : maxDatagram - videoHeaderLen = 0
  · rw [if_pos hmax, if_pos hmax]
  rw [if_neg hmax, if_neg hmax]
  have hpos := Nat.pos_of_ne_zero hmax
  generalize maxDatagram - videoHeaderLen = maxPayload at hmax hpos
  dsimp only
  generalize hcount : max (divCeil frameData.length maxPayload) 1 = count
  have hgroups : ∀ hdr shards, equalShards frameData maxPayload = some shards →
      ∀ group ∈ groupLayout count (parityFor count parityPermille),
        groupParityChecked hdr shards group = groupParity hdr shards group := by
    intro hdr shards hshards group hgroup
    have hlength := length_equalShards hpos hshards
    rw [hcount] at hlength
    have hbounds := ((tiles_data _ _).bounds hgroup).2
    rw [groupParityChecked, groupParity,
      Checked.slice_of_le (hbounds.trans_eq hlength.symm), Option.bind_some]
  have hmapM : ∀ hdr shards, equalShards frameData maxPayload = some shards →
      (groupLayout count (parityFor count parityPermille)).mapM
          (groupParityChecked hdr shards) =
        (groupLayout count (parityFor count parityPermille)).mapM
          (groupParity hdr shards) :=
    fun hdr shards hshards => Checked.mapM_congr (hgroups hdr shards hshards)
  have hbind : ∀ hdr (data : List Bytes),
      ((equalShards frameData maxPayload).bind fun shards =>
        ((groupLayout count (parityFor count parityPermille)).mapM
          (groupParityChecked hdr shards)).map fun groups =>
            (Except.ok (data ++ groups.flatten) :
              Except ProtocolError (List Bytes))) =
      (equalShards frameData maxPayload).bind fun shards =>
        ((groupLayout count (parityFor count parityPermille)).mapM
          (groupParity hdr shards)).map fun groups =>
            .ok (data ++ groups.flatten) := by
    intro hdr data
    cases hshards : equalShards frameData maxPayload with
    | none => rfl
    | some shards => rw [Option.bind_some, Option.bind_some, hmapM _ _ hshards]
  rw [hbind]

/-- The datagrams parse to `count` data shards and `parity` parity shards of
one frame, in order. -/
structure Chunked (template : VideoDatagramHeader) (frameData : Bytes)
    (maxDatagram count parity : ℕ) (datagrams : List Bytes)
    (shards : List (VideoDatagramHeader × Bytes)) : Prop where
  parses : datagrams.map VideoDatagramHeader.parse = shards.map .ok
  length : datagrams.length = count + parity
  index : shards.map (fun shard => shard.1.chunkIndex.toNat) =
    List.range (count + parity)
  frameId : ∀ shard ∈ shards, shard.1.frameId = template.frameId
  chunkCount : ∀ shard ∈ shards, shard.1.chunkCount.toNat = count
  parityCount : ∀ shard ∈ shards, shard.1.parityCount.toNat = parity
  frameLen : ∀ shard ∈ shards,
    shard.1.frameLen = UInt32.ofNat frameData.length
  size : ∀ datagram ∈ datagrams, datagram.length ≤ maxDatagram
  payload : ((shards.take count).map Prod.snd).flatten = frameData

/-- The chunker does not panic, and what it returns are the shards of the
frame. -/
def ChunksWell (template : VideoDatagramHeader) (frameData : Bytes)
    (maxDatagram : ℕ) (parityPermille : UInt32) : Prop :=
  ∃ result,
    chunkVideoFrameChecked template frameData maxDatagram parityPermille =
      some result ∧
    ∀ datagrams, result = .ok datagrams →
      ∃ count parity shards,
        Chunked template frameData maxDatagram count parity datagrams shards

/-- A frame with no bytes, room for a payload, and parity that is wanted and
that one group can hold. -/
def EmptyWithParity (frameData : Bytes) (maxDatagram : ℕ)
    (parityPermille : UInt32) : Prop :=
  frameData = [] ∧ videoHeaderLen < maxDatagram ∧
    1 ≤ parityPermille.toNat ∧ parityPermille.toNat ≤ 254000

/-- Shards within the caps of the wire, each in its own datagram. -/
theorem chunked_zipIdx (template : VideoDatagramHeader) {frameData : Bytes}
    {maxDatagram count parity : ℕ} {wire : List Bytes} (hpos : 0 < count)
    (htotal : count + parity ≤ 65535) (hparity : parity ≤ 255)
    (hmax : videoHeaderLen ≤ maxDatagram)
    (hwire : wire.length = count + parity)
    (hshort : ∀ shard ∈ wire, shard.length ≤ maxDatagram - videoHeaderLen)
    (hdata : (wire.take count).flatten = frameData) :
    Chunked template frameData maxDatagram count parity
      (wire.zipIdx.map (shardDatagram
        (shardHeader template count parity frameData.length)))
      (wire.zipIdx.map fun entry =>
        (shardHeader template count parity frameData.length entry.2,
          entry.1)) where
  parses := by
    rw [List.map_map, List.map_map]
    apply List.map_congr_left
    rintro ⟨shard, i⟩ hentry
    have hi : i < count + parity := by
      rw [← hwire]
      exact List.snd_lt_of_mem_zipIdx hentry
    exact VideoDatagramHeader.parse_encodeWithPayload
      (shardHeader_wellFormed template _ hpos htotal hparity hi) shard
  length := by rw [List.length_map, List.length_zipIdx, hwire]
  index := by
    rw [List.map_map]
    calc
      wire.zipIdx.map ((fun shard : VideoDatagramHeader × Bytes =>
          shard.1.chunkIndex.toNat) ∘ fun entry =>
            (shardHeader template count parity frameData.length entry.2,
              entry.1)) = wire.zipIdx.map Prod.snd := by
        apply List.map_congr_left
        rintro ⟨shard, i⟩ hentry
        have hi : i < wire.length := List.snd_lt_of_mem_zipIdx hentry
        exact toNat_chunkIndex_shardHeader template _ (by omega)
      _ = List.range (count + parity) := by
        rw [List.zipIdx_map_snd, hwire, List.range_eq_range']
  frameId := by
    intro shard hshard
    obtain ⟨entry, -, rfl⟩ := List.mem_map.mp hshard
    rfl
  chunkCount := by
    intro shard hshard
    obtain ⟨entry, -, rfl⟩ := List.mem_map.mp hshard
    exact toNat_chunkCount_shardHeader template _ _ (by omega)
  parityCount := by
    intro shard hshard
    obtain ⟨entry, -, rfl⟩ := List.mem_map.mp hshard
    exact toNat_parityCount_shardHeader template _ _ hparity
  frameLen := by
    intro shard hshard
    obtain ⟨entry, -, rfl⟩ := List.mem_map.mp hshard
    rfl
  size := by
    intro datagram hdatagram
    obtain ⟨entry, hentry, rfl⟩ := List.mem_map.mp hdatagram
    have hle := hshort entry.1 (List.fst_mem_of_mem_zipIdx hentry)
    rw [shardDatagram, VideoDatagramHeader.length_encodeWithPayload]
    omega
  payload := by
    have hshards : (wire.zipIdx.map fun entry =>
        (shardHeader template count parity frameData.length entry.2,
          entry.1)).map Prod.snd = wire := by
      rw [List.map_map]
      exact List.zipIdx_map_fst 0 wire
    rw [List.map_take, hshards, hdata]

/-- A frame with bytes is chunked well, or refused. -/
theorem chunksWell_of_ne_nil (template : VideoDatagramHeader)
    {frameData : Bytes} (maxDatagram : ℕ) (parityPermille : UInt32)
    (hne : frameData ≠ []) :
    ChunksWell template frameData maxDatagram parityPermille := by
  rw [ChunksWell, chunkVideoFrameChecked_eq]
  by_cases hmax : maxDatagram - videoHeaderLen = 0
  · refine ⟨_, by rw [chunkVideoFrame, if_pos hmax], fun datagrams hok => ?_⟩
    cases hok
  have hpos := Nat.pos_of_ne_zero hmax
  have hcount := length_chunks (maxDatagram - videoHeaderLen) frameData
  have hone : 0 < (chunks (maxDatagram - videoHeaderLen) frameData).length :=
    List.length_pos_iff.mpr (chunks_ne_nil hne hpos)
  by_cases hmany :
      65535 < (chunks (maxDatagram - videoHeaderLen) frameData).length
  · have hrefused : 65535 < max (divCeil frameData.length
        (maxDatagram - videoHeaderLen)) 1 := by omega
    refine ⟨_, by rw [chunkVideoFrame, if_neg hmax, if_pos hrefused], ?_⟩
    intro datagrams hok
    cases hok
  have heq := chunkVideoFrame_of_count template parityPermille hne hpos rfl
    (Nat.not_lt.mp hmany)
  refine ⟨_, heq, fun datagrams hok => ?_⟩
  obtain rfl := Except.ok.inj hok
  have hparity := parityFor_le
    (chunks (maxDatagram - videoHeaderLen) frameData).length parityPermille
  refine ⟨_, _, _, chunked_zipIdx template hone (by omega) (by omega)
    (by omega) ?_ ?_ ?_⟩
  · rw [wireShards, List.length_append, length_parityShards]
  · intro shard hshard
    rcases List.mem_append.mp hshard with hchunk | hparityShard
    · exact (length_mem_chunks hchunk).trans (Nat.min_le_right _ _)
    · rw [length_mem_parityShards hparityShard, shardLength_eq hne hpos]
      exact Nat.min_le_right _ _
  · rw [wireShards, List.take_left, flatten_chunks hpos]

/-- One data shard gets no parity if none is wanted, or more than fits its
group. -/
theorem parityFor_one (parityPermille : UInt32) :
    parityFor 1 parityPermille = 0 ↔
      ¬(1 ≤ parityPermille.toNat ∧ parityPermille.toNat ≤ 254000) := by
  have hgroup : 1 ≤ maxGroupData := by decide
  have hceil := divCeil_le_iff (a := 1 * parityPermille.toNat) (b := 1000)
    (c := 254) (by decide)
  rw [parityFor]
  by_cases hzero : parityPermille = 0
  · subst hzero
    decide
  · have hpos : parityPermille.toNat ≠ 0 := fun h =>
      hzero (UInt32.toNat_inj.mp h)
    rw [if_neg hzero]
    split_ifs <;> omega

/-- An empty frame is one shard without bytes, unless it is to get parity. -/
theorem chunkVideoFrame_nil (template : VideoDatagramHeader)
    {maxDatagram : ℕ} (parityPermille : UInt32)
    (hmax : videoHeaderLen < maxDatagram) :
    chunkVideoFrame template [] maxDatagram parityPermille =
      if parityFor 1 parityPermille = 0 then
        some (.ok ([([], 0)].map (shardDatagram (shardHeader template 1 0 0))))
      else none := by
  have hpayload : maxDatagram - videoHeaderLen ≠ 0 := by omega
  have hceil : max (divCeil ([] : Bytes).length
      (maxDatagram - videoHeaderLen)) 1 = 1 := by
    have hempty : divCeil ([] : Bytes).length
        (maxDatagram - videoHeaderLen) = 0 := by
      rw [divCeil, List.length_nil, Nat.zero_mod, if_pos rfl, Nat.zero_div]
    rw [hempty]
    rfl
  rw [chunkVideoFrame, if_neg hpayload, hceil, if_neg (by decide)]
  dsimp only
  by_cases hparity : parityFor 1 parityPermille = 0
  · rw [if_pos hparity, if_pos hparity, if_pos rfl, hparity]
    rfl
  · rw [if_neg hparity, if_neg hparity, equalShards_nil, Option.bind_none]

/-- For every frame, size and parity: the chunker returns, and returns the
shards of the frame, exactly when the frame is not an empty one that is to get
parity. -/
theorem chunksWell_iff (template : VideoDatagramHeader) (frameData : Bytes)
    (maxDatagram : ℕ) (parityPermille : UInt32) :
    ChunksWell template frameData maxDatagram parityPermille ↔
      ¬EmptyWithParity frameData maxDatagram parityPermille := by
  by_cases hne : frameData = []
  · subst hne
    rw [ChunksWell, chunkVideoFrameChecked_eq]
    by_cases hmax : videoHeaderLen < maxDatagram
    · have heq := chunkVideoFrame_nil template parityPermille hmax
      have hwanted := parityFor_one parityPermille
      by_cases hparity : parityFor 1 parityPermille = 0
      · rw [if_pos hparity] at heq
        apply iff_of_true
        · refine ⟨_, heq, fun datagrams hok => ?_⟩
          obtain rfl := Except.ok.inj hok
          have hwell := @chunked_zipIdx template [] maxDatagram 1 0 [[]]
            (by decide) (by decide) (by decide) hmax.le rfl
          refine ⟨1, 0, _, hwell ?_ rfl⟩
          intro shard hshard
          rw [List.mem_singleton.mp hshard]
          exact Nat.zero_le _
        · rintro ⟨-, -, hrange⟩
          exact hwanted.mp hparity hrange
      · rw [if_neg hparity] at heq
        apply iff_of_false
        · rintro ⟨result, hresult, -⟩
          rw [heq] at hresult
          cases hresult
        · rw [not_not]
          exact ⟨rfl, hmax, not_not.mp (mt hwanted.mpr hparity)⟩
    · apply iff_of_true
      · have hpayload : maxDatagram - videoHeaderLen = 0 := by omega
        refine ⟨_, by rw [chunkVideoFrame, if_pos hpayload], ?_⟩
        intro datagrams hok
        cases hok
      · rintro ⟨-, hroom, -⟩
        exact hmax hroom
  · apply iff_of_true (chunksWell_of_ne_nil _ _ _ hne)
    rintro ⟨hempty, -⟩
    exact hne hempty

def plainTemplate : VideoDatagramHeader where
  seq := 0
  sessionEpoch := 0
  frameId := 1
  kind := .p
  chunkIndex := 0
  chunkCount := 0
  parityCount := 0
  frameLen := 0
  captureTsUs := 0

/-- With the parity floor that sessions start with, an empty frame panics. -/
theorem not_chunksWell_empty :
    chunkVideoFrameChecked plainTemplate [] 1200 60 = none ∧
      ¬ChunksWell plainTemplate [] 1200 60 := by
  have hpanic : chunkVideoFrameChecked plainTemplate [] 1200 60 = none := by
    decide +kernel
  refine ⟨hpanic, ?_⟩
  rintro ⟨result, hresult, -⟩
  rw [hpanic] at hresult
  cases hresult

end GameStreamer.Chunking
