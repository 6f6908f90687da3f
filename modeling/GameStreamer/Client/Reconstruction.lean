import GameStreamer.Client.Coverage
import GameStreamer.Protocol.SentFrame

/-!
# Reconstruction of a sent frame

A pending frame that holds some shards of a sent frame is complete when every
group has as many of them as it has data shards.  Its missing data shards then
come back group by group, and padding is cut off with the frame length.  The
erasure code is used at each group by itself.
-/

namespace GameStreamer

open Tiling Fec Chunking

/-! ## Slots -/

/-- The shards that arrived, each in its slot. -/
def slots (shards : List Bytes) (arrived : Finset ℕ) : Shards :=
  shards.zipIdx.map fun (shard, i) => if i ∈ arrived then some shard else none

@[simp]
theorem length_slots (shards : List Bytes) (arrived : Finset ℕ) :
    (slots shards arrived).length = shards.length := by
  rw [slots, List.length_map, List.length_zipIdx]

theorem getElem?_slots (shards : List Bytes) (arrived : Finset ℕ) (i : ℕ) :
    (slots shards arrived)[i]? =
      shards[i]?.map fun shard => if i ∈ arrived then some shard else none := by
  rw [slots, List.getElem?_map, List.getElem?_zipIdx, Option.map_map,
    Nat.zero_add]
  rfl

theorem mem_of_getElem?_slice_slots {shards : List Bytes}
    {arrived : Finset ℕ} {start len i : ℕ} {shard : Bytes}
    (h : (slice start len (slots shards arrived))[i]? = some (some shard)) :
    (slice start len shards)[i]? = some shard := by
  rcases Nat.lt_or_ge i len with hlt | hge
  · rw [getElem?_slice _ hlt, getElem?_slots] at h
    obtain ⟨s, hs, hvalue⟩ := Option.map_eq_some_iff.mp h
    rw [getElem?_slice _ hlt, hs]
    split_ifs at hvalue
    exact hvalue
  · rw [slice, List.getElem?_take, if_neg (Nat.not_lt.mpr hge)] at h
    cases h

/-- A range without an empty slot holds the shards. -/
theorem slice_slots_of_all {shards : List Bytes} {arrived : Finset ℕ}
    {start len : ℕ}
    (h : (slice start len (slots shards arrived)).all Option.isSome = true) :
    slice start len (slots shards arrived) =
      (slice start len shards).map some := by
  apply List.ext_getElem
  · simp only [slice, List.length_map, List.length_take, List.length_drop,
      length_slots]
  · intro i hi _
    have hsome := List.all_eq_true.mp h _ (List.getElem_mem hi)
    obtain ⟨shard, hshard⟩ := Option.isSome_iff_exists.mp hsome
    have hslot := List.getElem?_eq_getElem hi
    rw [hshard] at hslot
    obtain ⟨_, hget⟩ := List.getElem?_eq_some_iff.mp
      (mem_of_getElem?_slice_slots hslot)
    rw [List.getElem_map, hget, hshard]

theorem slots_empty (shards : List Bytes) :
    slots shards ∅ = List.replicate shards.length none := by
  apply List.ext_getElem?
  intro i
  rw [getElem?_slots, List.getElem?_replicate]
  rcases Nat.lt_or_ge i shards.length with hlt | hge
  · rw [List.getElem?_eq_getElem hlt, if_pos hlt]
    rfl
  · rw [List.getElem?_eq_none hge, if_neg (Nat.not_lt.mpr hge)]
    rfl

/-- Filling a slot. -/
theorem set_slots {shards : List Bytes} (arrived : Finset ℕ) {i : ℕ}
    (hi : i < shards.length) :
    (slots shards arrived).set i (some (shards.getD i [])) =
      slots shards (insert i arrived) := by
  apply List.ext_getElem?
  intro j
  rw [getElem?_slots]
  by_cases hij : i = j
  · subst hij
    rw [List.getElem?_set_self (by rwa [length_slots]),
      List.getElem?_eq_getElem hi, Option.map_some,
      if_pos (Finset.mem_insert_self i arrived), List.getD_eq_getElem _ _ hi]
  · rw [List.getElem?_set_ne hij, getElem?_slots]
    have hiff : j ∈ insert i arrived ↔ j ∈ arrived := by
      rw [Finset.mem_insert]
      exact or_iff_right (Ne.symm hij)
    simp only [hiff]

/-- The filled slots are those of the shards that arrived. -/
theorem filled_slots (shards : List Bytes) (arrived : Finset ℕ) :
    filled (slots shards arrived) =
      arrived.filter fun i => i < shards.length := by
  ext i
  rw [mem_filled, isPresent, List.getD_eq_getElem?_getD, getElem?_slots,
    Finset.mem_filter]
  rcases Nat.lt_or_ge i shards.length with hlt | hge
  · rw [List.getElem?_eq_getElem hlt]
    simp [hlt]
  · rw [List.getElem?_eq_none hge]
    simp [Nat.not_lt.mpr hge]

namespace SentFrame

variable (f : SentFrame) {arrived : Finset ℕ}

/-- The frame in assembly once the shards `arrived` have come in. -/
def pendingAfter (arrived : Finset ℕ) : Pending where
  shards := slots f.wire arrived
  dataCount := UInt16.ofNat f.count
  receivedData := UInt16.ofNat (arrived.filter (· < f.count)).card
  receivedTotal := UInt16.ofNat arrived.card
  frameLen := UInt32.ofNat f.frameData.length
  epoch := f.template.sessionEpoch

/-- Only shards of the frame arrive. -/
def Within (arrived : Finset ℕ) : Prop := arrived ⊆ Finset.range f.total

/-! ## Groups -/

theorem data_bounds {g : FecGroup} (hg : g ∈ f.groups) :
    g.dataStart + g.dataLen ≤ f.count :=
  ((tiles_data f.count f.parity).bounds hg).2

theorem parity_bounds {g : FecGroup} (hg : g ∈ f.groups) :
    f.count ≤ g.parityStart ∧ g.parityStart + g.parityLen ≤ f.total :=
  (tiles_parity f.count f.parity).bounds hg

/-- The data and the parity of a group are counted apart. -/
theorem card_has {g : FecGroup} (hg : g ∈ f.groups) (shards : List Bytes)
    (hlen : shards.length = f.total) (arrived : Finset ℕ) :
    (arrived.filter g.Has).card =
      Pending.present (slots shards arrived) g.dataStart g.dataLen +
        Pending.present (slots shards arrived) g.parityStart g.parityLen := by
  have hdata := f.data_bounds hg
  have hparity := f.parity_bounds hg
  have hk : f.count ≤ (slots shards arrived).length := by
    rw [length_slots, hlen, total]
    omega
  have hlayout : groupLayout f.count
      ((slots shards arrived).length - f.count) = f.groups := by
    rw [length_slots, hlen, total, Nat.add_sub_cancel_left]
    rfl
  rw [← GameStreamer.card_has hk (by rwa [hlayout]), filled_slots,
    Finset.filter_filter]
  congr 1
  refine Finset.filter_congr fun i _ => ?_
  rw [hlen]
  constructor
  · intro hhas
    refine ⟨?_, hhas⟩
    rcases hhas with hin | hin
    · rw [total]
      omega
    · omega
  · exact And.right

/-! ## Completion -/

theorem toNat_dataCount : (f.pendingAfter arrived).dataCount.toNat = f.count :=
  f.toNat_chunkCount 0

theorem shards_pendingAfter :
    (f.pendingAfter arrived).shards = slots f.wire arrived := rfl

theorem length_shards :
    (f.pendingAfter arrived).shards.length = f.count + f.parity := by
  rw [pendingAfter, length_slots, length_wire, total]

theorem filled_pendingAfter (hwithin : f.Within arrived) :
    filled (f.pendingAfter arrived).shards = arrived := by
  rw [shards_pendingAfter, filled_slots, length_wire]
  exact Finset.filter_true_of_mem fun i hi => Finset.mem_range.mp (hwithin hi)

theorem covered_iff (hwithin : f.Within arrived) :
    (f.pendingAfter arrived).Covered ↔ Covers f.groups arrived := by
  rw [Pending.Covered, f.filled_pendingAfter hwithin, Pending.groups,
    toNat_dataCount, length_shards, Nat.add_sub_cancel_left]
  rfl

/-- The counters of a frame in assembly count its shards. -/
theorem tallied (hwithin : f.Within arrived) :
    (f.pendingAfter arrived).Tallied := by
  have hle : f.count + f.parity ≤ 65535 := f.total_le
  have hparity := f.parity_le
  constructor
  case pos =>
    rw [toNat_dataCount]
    exact f.count_pos
  case data_le =>
    rw [toNat_dataCount, length_shards]
    exact Nat.le_add_right _ _
  case le_data =>
    rw [toNat_dataCount, length_shards]
    omega
  case addressed =>
    intro i hi
    rw [f.filled_pendingAfter hwithin] at hi
    have hlt : i < f.count + f.parity := Finset.mem_range.mp (hwithin hi)
    omega
  case data =>
    have hpresent := present_eq_card (f.pendingAfter arrived).shards 0 f.count
      (by rw [length_shards]; omega)
    rw [Pending.present, slice, List.drop_zero,
      f.filled_pendingAfter hwithin] at hpresent
    rw [toNat_dataCount, hpresent, pendingAfter]
    simp only [Nat.zero_le, true_and, Nat.zero_add]
  case total =>
    rw [← card_filled, f.filled_pendingAfter hwithin]
    rfl

/-- A covered frame has enough shards in all. -/
theorem count_le_card (hwithin : f.Within arrived)
    (hcovers : Covers f.groups arrived) : f.count ≤ arrived.card := by
  have hcount := le_countP_of_covers (f.tallied hwithin).data_le
    ((f.covered_iff hwithin).mpr hcovers)
  rwa [toNat_dataCount, ← card_filled, f.filled_pendingAfter hwithin]
    at hcount

/-- The data counter tells that all data has arrived. -/
theorem direct_iff (hwithin : f.Within arrived) :
    (f.pendingAfter arrived).receivedData =
        (f.pendingAfter arrived).dataCount ↔
      Finset.range f.count ⊆ arrived := by
  have hdirect := (f.tallied hwithin).direct_iff
  rwa [toNat_dataCount, f.filled_pendingAfter hwithin] at hdirect

/-- The receiver sees a complete frame exactly when the groups are covered. -/
theorem complete_iff (hwithin : f.Within arrived) :
    (f.pendingAfter arrived).Complete ↔ Covers f.groups arrived :=
  (f.tallied hwithin).complete_iff.trans (f.covered_iff hwithin)

/-- The direct path concatenates the data shards, and they are the frame. -/
theorem assembleData_eq (hdata : Finset.range f.count ⊆ arrived) :
    (f.pendingAfter arrived).assembleData = f.frameData := by
  have htake : (f.pendingAfter arrived).shards.take f.count =
      (chunks f.maxPayload f.frameData).map some := by
    apply List.ext_getElem?
    intro i
    rcases Nat.lt_or_ge i f.count with hlt | hge
    · have hmem := hdata (Finset.mem_range.mpr hlt)
      rw [List.getElem?_take_of_lt hlt, pendingAfter, getElem?_slots, wire,
        wireShards, List.getElem?_append_left hlt, List.getElem?_map]
      simp only [if_pos hmem]
    · rw [List.getElem?_take, if_neg (Nat.not_lt.mpr hge),
        List.getElem?_eq_none (by rwa [List.length_map])]
  rw [Pending.assembleData, toNat_dataCount, htake, List.map_map]
  exact (congrArg List.flatten (List.map_id _)).trans
    (flatten_chunks f.payload_pos f.frameData)

/-! ## Reconstruction -/

/-- The padded shards are the code's. -/
theorem padded_eq :
    (f.pendingAfter arrived).padded f.shardLen = slots f.code arrived := by
  apply List.ext_getElem?
  intro i
  rw [getElem?_slots, code_eq, Pending.padded, List.getElem?_map,
    List.getElem?_zipIdx, shards_pendingAfter, getElem?_slots,
    List.getElem?_map, Nat.zero_add, toNat_dataCount]
  cases hshard : f.wire[i]? with
  | none => rfl
  | some shard =>
      obtain ⟨hle, hlen⟩ := f.length_wire_shard hshard
      have hconsistent : ¬(f.shardLen < shard.length ∨
          (shard.length < f.shardLen ∧ i ≠ f.count - 1)) := by
        rintro (hlong | ⟨hshort, hlast⟩)
        · omega
        · have heq := hlen hlast
          omega
      by_cases hmem : i ∈ arrived
      · simp only [Option.map_some, if_pos hmem, Option.bind_some,
          if_neg hconsistent]
      · simp only [Option.map_some, if_neg hmem, Option.bind_none]

/-- A parity shard tells the common length. -/
theorem uniformLength_eq (hwithin : f.Within arrived)
    (hparity : ∃ i ∈ arrived, f.count ≤ i) :
    (f.pendingAfter arrived).uniformLength = some f.shardLen := by
  have hpos := f.count_pos
  rw [Pending.uniformLength, List.max?_eq_some_iff, toNat_dataCount,
    shards_pendingAfter]
  constructor
  · obtain ⟨i, hi, hge⟩ := hparity
    have hlt : i < f.wire.length := by
      rw [length_wire]
      exact Finset.mem_range.mp (hwithin hi)
    have hshard := List.getElem?_eq_getElem hlt
    refine List.mem_filterMap.mpr
      ⟨(some f.wire[i], i), List.mem_zipIdx_iff_getElem?.mpr ?_, ?_⟩
    · rw [getElem?_slots, hshard, Option.map_some, if_pos hi]
    · have hlast : i ≠ f.count - 1 := by omega
      simp only [Option.bind_some, if_pos hlast,
        (f.length_wire_shard hshard).2 hlast]
  · intro len hlen
    obtain ⟨⟨slot, i⟩, hentry, hlength⟩ := List.mem_filterMap.mp hlen
    have hslot : (slots f.wire arrived)[i]? = some slot :=
      List.mem_zipIdx_iff_getElem?.mp hentry
    rw [getElem?_slots] at hslot
    obtain ⟨shard, hshard, rfl⟩ := Option.map_eq_some_iff.mp hslot
    obtain ⟨s, hs, hvalue⟩ := Option.bind_eq_some_iff.mp hlength
    by_cases hmem : i ∈ arrived
    · obtain rfl := Option.some.inj ((if_pos hmem).symm.trans hs)
      by_cases hlast : i ≠ f.count - 1
      · rw [if_pos hlast] at hvalue
        obtain rfl := Option.some.inj hvalue
        exact (f.length_wire_shard hshard).1
      · rw [if_neg hlast] at hvalue
        cases hvalue
    · simp only [if_neg hmem] at hs
      cases hs

/-! ## Recovering a group -/

/-- The code's shards of a group are a codeword. -/
theorem codeword_group {g : FecGroup} (hg : g ∈ f.groups) :
    codeword (slice g.dataStart g.dataLen f.code) f.shardLen g.parityLen =
      slice g.dataStart g.dataLen f.code ++
        slice g.parityStart g.parityLen f.code := by
  have hbounds := f.data_bounds hg
  have hlength : f.padded.length = f.count := f.length_padded
  have hdata : slice g.dataStart g.dataLen f.code =
      slice g.dataStart g.dataLen f.padded :=
    slice_append_left _ (hlength.symm ▸ hbounds)
  have hparity := (tiles_parity f.count f.parity).slice_flatMap
    (f := fun group => (List.range group.parityLen).map
      (parityShard (slice group.dataStart group.dataLen f.padded) f.shardLen))
    (fun group _ => by rw [List.length_map, List.length_range]) hg f.padded
    hlength
  have hcode : f.code = f.padded ++ (groupLayout f.count f.parity).flatMap
      fun group => (List.range group.parityLen).map
        (parityShard (slice group.dataStart group.dataLen f.padded)
          f.shardLen) := by
    rw [← f.length_padded]
    rfl
  rw [codeword, hdata, ← hparity, ← hcode]

/-- The slots of a group are some shards of its codeword. -/
theorem received {g : FecGroup} (hg : g ∈ f.groups) (arrived : Finset ℕ) :
    Received (slice g.dataStart g.dataLen f.code) f.shardLen g.parityLen
      (slice g.dataStart g.dataLen (slots f.code arrived) ++
        slice g.parityStart g.parityLen (slots f.code arrived)) := by
  have hdata := f.data_bounds hg
  have hparity := f.parity_bounds hg
  have htotal : f.total = f.count + f.parity := rfl
  have hlength : (slice g.dataStart g.dataLen f.code).length = g.dataLen :=
    length_slice (by rw [length_code]; omega)
  have hpadded : slice g.dataStart g.dataLen f.code =
      slice g.dataStart g.dataLen f.padded :=
    slice_append_left _ (f.length_padded.symm ▸ hdata)
  have hslots : (slice g.dataStart g.dataLen (slots f.code arrived)).length =
      g.dataLen := length_slice (by rw [length_slots, length_code]; omega)
  constructor
  · rw [hlength]
    exact dataLen_pos f.count_pos hg
  · rw [hlength]
    exact group_fits f.parity_le f.single hg
  · exact f.shardLen_pos
  · intro shard hshard
    rw [hpadded] at hshard
    exact length_mem_paddedShards (mem_of_mem_slice hshard)
  · rw [List.length_append, hslots, hlength,
      length_slice (by rw [length_slots, length_code]; omega)]
  · intro i shard hshard
    rw [f.codeword_group hg]
    rcases Nat.lt_or_ge i g.dataLen with hlt | hge
    · rw [List.getElem?_append_left (by rwa [hslots])] at hshard
      rw [List.getElem?_append_left (by rwa [hlength])]
      exact mem_of_getElem?_slice_slots hshard
    · rw [List.getElem?_append_right (by rwa [hslots]), hslots] at hshard
      rw [List.getElem?_append_right (by rwa [hlength]), hlength]
      exact mem_of_getElem?_slice_slots hshard

/-- Recovering a group completes its data and touches no other group. -/
theorem recoverGroup_eq {g : FecGroup} (hg : g ∈ f.groups)
    (henough : g.dataLen ≤ (arrived.filter g.Has).card) {shards : Shards}
    (hlength : shards.length = f.total)
    (hdata : slice g.dataStart g.dataLen shards =
      slice g.dataStart g.dataLen (slots f.code arrived))
    (hparity : slice g.parityStart g.parityLen shards =
      slice g.parityStart g.parityLen (slots f.code arrived)) :
    ∃ out, Pending.recoverGroup shards g = some out ∧
      out.length = f.total ∧
      slice g.dataStart g.dataLen out =
        (slice g.dataStart g.dataLen f.code).map some ∧
      ∀ i, ¬g.Has i → out[i]? = shards[i]? := by
  have hreceived := f.received hg arrived
  have hdataBounds := f.data_bounds hg
  have hparityBounds := f.parity_bounds hg
  have htotal : f.total = f.count + f.parity := rfl
  have hword : (slice g.dataStart g.dataLen f.code).length = g.dataLen :=
    length_slice (by rw [length_code]; omega)
  have hcount : (slice g.dataStart g.dataLen f.code).length ≤
      (slice g.dataStart g.dataLen (slots f.code arrived) ++
        slice g.parityStart g.parityLen (slots f.code arrived)).countP
          Option.isSome := by
    rw [hword, List.countP_append]
    exact (f.card_has hg f.code f.length_code arrived) ▸ henough
  have hrecovered := reconstructData_eq hreceived hcount
  have htake (rest : Shards) :
      ((slice g.dataStart g.dataLen f.code).map some ++ rest).take g.dataLen =
        (slice g.dataStart g.dataLen f.code).map some :=
    List.take_left' ((List.length_map some).trans hword)
  rw [hword] at hrecovered
  simp only [Pending.recoverGroup, hdata, hparity, hrecovered, if_true, htake]
  split_ifs with hall
  · refine ⟨shards, rfl, hlength, ?_, fun i _ => rfl⟩
    rw [hdata]
    exact slice_slots_of_all hall
  · have hinner : g.parityStart +
        (List.replicate g.parityLen (none : Option Bytes)).length ≤
          shards.length := by
      rw [List.length_replicate]
      omega
    have houter : g.dataStart +
        ((slice g.dataStart g.dataLen f.code).map some).length ≤
          (splice g.parityStart (List.replicate g.parityLen none)
            shards).length := by
      rw [length_splice hinner, List.length_map, hword]
      omega
    refine ⟨_, rfl, ?_, ?_, ?_⟩
    · rw [length_splice houter, length_splice hinner, hlength]
    · have hslice := slice_splice houter
      rwa [List.length_map, hword] at hslice
    · intro i hi
      simp only [FecGroup.Has] at hi
      rw [getElem?_splice_outside houter, getElem?_splice_outside hinner]
      · rw [List.length_replicate]
        omega
      · rw [List.length_map, hword]
        omega

/-- Recovering group after group completes the data: the groups before `first`
are done and those from it on are as they arrived. -/
theorem recoverGroups_eq (hcovers : Covers f.groups arrived)
    {groups : List FecGroup} {first parityFirst : ℕ}
    (hdata : Tiles FecGroup.dataStart FecGroup.dataLen first groups f.count)
    (hparity : Tiles FecGroup.parityStart FecGroup.parityLen parityFirst groups
      f.total)
    (hgroups : ∀ g ∈ groups, g ∈ f.groups) {shards : Shards}
    (hlength : shards.length = f.total)
    (hdone : ∀ i < first, shards[i]? = f.code[i]?.map some)
    (hkept : ∀ i, (first ≤ i ∧ i < f.count) ∨
      (parityFirst ≤ i ∧ i < f.total) →
        shards[i]? = (slots f.code arrived)[i]?) :
    ∃ out, groups.foldlM Pending.recoverGroup shards = some out ∧
      out.take f.count = (f.code.take f.count).map some := by
  induction groups generalizing first parityFirst shards with
  | nil =>
      cases hdata
      refine ⟨shards, rfl, List.ext_getElem? fun i => ?_⟩
      rcases Nat.lt_or_ge i f.count with hlt | hge
      · rw [List.getElem?_take_of_lt hlt, hdone i hlt, List.getElem?_map,
          List.getElem?_take_of_lt hlt]
      · rw [List.getElem?_map, List.getElem?_take, List.getElem?_take,
          if_neg (Nat.not_lt.mpr hge), if_neg (Nat.not_lt.mpr hge)]
        rfl
  | cons g groups ih =>
      cases hdata with
      | cons hdataRest =>
          cases hparity with
          | cons hparityRest =>
              have hg := hgroups g List.mem_cons_self
              have hdataBounds := f.data_bounds hg
              have hparityBounds := f.parity_bounds hg
              obtain ⟨next, hnext, hnextLength, hnextData, hframe⟩ :=
                f.recoverGroup_eq hg (hcovers g hg) hlength
                  (slice_congr fun i hlow hhigh =>
                    hkept i (Or.inl (by omega)))
                  (slice_congr fun i hlow hhigh =>
                    hkept i (Or.inr (by omega)))
              rw [List.foldlM_cons, hnext, Option.bind_eq_bind,
                Option.bind_some]
              apply ih hdataRest hparityRest
                (fun g hg => hgroups g (List.mem_cons_of_mem _ hg)) hnextLength
              · intro i hi
                rcases Nat.lt_or_ge i g.dataStart with hlt | hge
                · rw [hframe i (by simp only [FecGroup.Has]; omega)]
                  exact hdone i hlt
                · obtain ⟨j, rfl⟩ := Nat.exists_eq_add_of_le hge
                  have hj : j < g.dataLen := by omega
                  rw [← getElem?_slice next hj, hnextData, List.getElem?_map,
                    getElem?_slice _ hj]
              · intro i hi
                rw [hframe i (by simp only [FecGroup.Has]; omega)]
                exact hkept i (by omega)

theorem mapM_id_map_some {α : Type*} (l : List α) :
    (l.map some).mapM id = some l := by
  induction l with
  | nil => rfl
  | cons a l ih =>
      rw [List.map_cons, List.mapM_cons, ih]
      rfl

/-- Reconstruction gives the frame. -/
theorem reconstruct_eq (hwithin : f.Within arrived)
    (hcovers : Covers f.groups arrived)
    (hlost : ¬Finset.range f.count ⊆ arrived) :
    (f.pendingAfter arrived).reconstruct = some f.frameData := by
  have hparityArrived : ∃ i ∈ arrived, f.count ≤ i := by
    by_contra hnone
    apply hlost
    have hsub : arrived ⊆ Finset.range f.count := by
      intro i hi
      by_contra hge
      exact hnone ⟨i, hi, Nat.not_lt.mp fun h => hge (Finset.mem_range.mpr h)⟩
    have hcard := f.count_le_card hwithin hcovers
    rw [Finset.eq_of_subset_of_card_le hsub (by rwa [Finset.card_range])]
  have hparity : f.parity ≠ 0 := by
    obtain ⟨i, hi, hge⟩ := hparityArrived
    have hlt : i < f.count + f.parity := Finset.mem_range.mp (hwithin hi)
    omega
  obtain ⟨out, hout, htake⟩ := f.recoverGroups_eq hcovers
    (tiles_data f.count f.parity) (tiles_parity f.count f.parity)
    (fun g hg => hg) (by rw [length_slots, length_code])
    (fun i hi => absurd hi (Nat.not_lt_zero i)) (fun i _ => rfl)
  have hcode : f.code.take f.count = f.padded := List.take_left' f.length_padded
  have hframe : f.padded.flatten.take f.frameData.length = f.frameData :=
    take_flatten_paddedShards f.nonempty f.payload_pos
  have hlen : (f.pendingAfter arrived).frameLen.toNat = f.frameData.length :=
    f.toNat_frameLen 0
  have htrim : min f.frameData.length f.padded.flatten.length =
      f.frameData.length := by
    have hlength := congrArg List.length hframe
    rwa [List.length_take] at hlength
  simp only [Pending.reconstruct, toNat_dataCount, length_shards,
    Nat.add_sub_cancel_left, if_neg hparity,
    f.uniformLength_eq hwithin hparityArrived, Option.bind_some,
    if_neg f.shardLen_pos.ne', padded_eq]
  have hrecovered : (groupLayout f.count f.parity).foldlM Pending.recoverGroup
      (slots f.code arrived) = some out := hout
  rw [hrecovered, Option.bind_some, htake, hcode, mapM_id_map_some,
    Option.map_some, hlen, htrim, hframe]

end SentFrame

end GameStreamer
