import GameStreamer.Core.Tiling

/-!
# Group layout

The shards of a frame are split evenly into groups that are encoded on their
own, so that no group outgrows the field of the code.  Chunker and reassembler
derive the layout from the two shard counts alone: both compute the same
partition of the data shards and of the parity shards behind them.
-/

namespace GameStreamer.Fec

open Tiling

/-- Maximum data shards of a group. -/
def maxGroupData : ℕ := 32

/-- One group's slice of a frame's shards. -/
structure FecGroup where
  dataStart : ℕ
  dataLen : ℕ
  parityStart : ℕ
  parityLen : ℕ
  deriving DecidableEq, Repr

def groupCount (k : ℕ) : ℕ := max (divCeil k maxGroupData) 1

/-- How many of `n` shards group `g` gets. -/
def shareLen (n groups g : ℕ) : ℕ :=
  n / groups + if g < n % groups then 1 else 0

/-- `count` groups from group `g` on, with the two running starts. -/
def groupsFrom (k m groups : ℕ) : (count g dataStart parityStart : ℕ) →
    List FecGroup
  | 0, _, _, _ => []
  | count + 1, g, dataStart, parityStart =>
      let group : FecGroup :=
        { dataStart := dataStart
          dataLen := shareLen k groups g
          parityStart := parityStart
          parityLen := shareLen m groups g }
      group :: groupsFrom k m groups count (g + 1)
        (dataStart + group.dataLen) (parityStart + group.parityLen)

/-- The groups of a frame with `k` data and `m` parity shards. -/
def groupLayout (k m : ℕ) : List FecGroup :=
  groupsFrom k m (groupCount k) (groupCount k) 0 0 k

/-! ## Even shares -/

/-- How many of `n` shards the groups before `g` get. -/
def shareStart (n groups g : ℕ) : ℕ := g * (n / groups) + min g (n % groups)

theorem shareStart_add (n groups g : ℕ) :
    shareStart n groups g + shareLen n groups g =
      shareStart n groups (g + 1) := by
  rw [shareStart, shareStart, shareLen, Nat.succ_mul]
  split_ifs <;> omega

theorem shareStart_zero (n groups : ℕ) : shareStart n groups 0 = 0 := by
  rw [shareStart, Nat.zero_mul, Nat.zero_min]

theorem shareStart_groups {groups : ℕ} (n : ℕ) (hpos : 0 < groups) :
    shareStart n groups groups = n := by
  rw [shareStart, Nat.min_eq_right (Nat.le_of_lt (Nat.mod_lt n hpos)),
    Nat.div_add_mod]

theorem groupCount_pos (k : ℕ) : 0 < groupCount k :=
  Nat.lt_of_lt_of_le Nat.one_pos (Nat.le_max_right _ _)

theorem le_groupCount_mul (k : ℕ) : k ≤ groupCount k * maxGroupData :=
  Nat.le_trans (le_divCeil_mul k (show 0 < maxGroupData by decide))
    (Nat.mul_le_mul_right _ (Nat.le_max_left _ _))

theorem groupCount_le {k : ℕ} (hk : 1 ≤ k) : groupCount k ≤ k := by
  apply Nat.max_le.mpr ⟨(divCeil_le_iff (by decide)).mpr _, hk⟩
  exact Nat.le_mul_of_pos_right k (by decide)

theorem two_le_groupCount {k : ℕ} (hk : maxGroupData < k) :
    2 ≤ groupCount k := by
  have hle := le_groupCount_mul k
  by_contra hlt
  have hone : groupCount k = 1 := by
    have hpos := groupCount_pos k
    omega
  rw [hone, Nat.one_mul] at hle
  omega

/-! ## The layout is a partition -/

theorem tiles_dataFrom (k m groups count g parityStart : ℕ) :
    Tiles FecGroup.dataStart FecGroup.dataLen (shareStart k groups g)
      (groupsFrom k m groups count g (shareStart k groups g) parityStart)
      (shareStart k groups (g + count)) := by
  induction count generalizing g parityStart with
  | zero => exact Tiles.nil _
  | succ count ih =>
      have hrest := ih (g + 1) (parityStart + shareLen m groups g)
      rw [← shareStart_add, Nat.add_right_comm] at hrest
      exact @Tiles.cons _ _ FecGroup.dataLen ⟨_, _, _, _⟩ _ _ hrest

theorem tiles_parityFrom (k m groups count g dataStart : ℕ) :
    Tiles FecGroup.parityStart FecGroup.parityLen
      (k + shareStart m groups g)
      (groupsFrom k m groups count g dataStart (k + shareStart m groups g))
      (k + shareStart m groups (g + count)) := by
  induction count generalizing g dataStart with
  | zero => exact Tiles.nil _
  | succ count ih =>
      have hrest := ih (g + 1) (dataStart + shareLen k groups g)
      rw [← shareStart_add, ← Nat.add_assoc, Nat.add_right_comm g 1] at hrest
      exact @Tiles.cons _ _ FecGroup.parityLen ⟨_, _, _, _⟩ _ _ hrest

/-- The data ranges tile the data shards. -/
theorem tiles_data (k m : ℕ) :
    Tiles FecGroup.dataStart FecGroup.dataLen 0 (groupLayout k m) k := by
  have htiles := tiles_dataFrom k m (groupCount k) (groupCount k) 0 k
  rwa [shareStart_zero, Nat.zero_add,
    shareStart_groups k (groupCount_pos k)] at htiles

/-- The parity ranges tile the parity shards. -/
theorem tiles_parity (k m : ℕ) :
    Tiles FecGroup.parityStart FecGroup.parityLen k (groupLayout k m)
      (k + m) := by
  have htiles := tiles_parityFrom k m (groupCount k) (groupCount k) 0 0
  rwa [shareStart_zero, Nat.zero_add, Nat.add_zero,
    shareStart_groups m (groupCount_pos k)] at htiles

theorem mem_groupsFrom {k m groups count g dataStart parityStart : ℕ}
    {group : FecGroup}
    (h : group ∈ groupsFrom k m groups count g dataStart parityStart) :
    ∃ i, group.dataLen = shareLen k groups i ∧
      group.parityLen = shareLen m groups i := by
  induction count generalizing g dataStart parityStart with
  | zero => cases h
  | succ count ih =>
      rcases List.mem_cons.mp h with rfl | htail
      · exact ⟨g, rfl, rfl⟩
      · exact ih htail

theorem dataLen_pos {k m : ℕ} (hk : 1 ≤ k) {group : FecGroup}
    (h : group ∈ groupLayout k m) : 1 ≤ group.dataLen := by
  obtain ⟨i, hdata, -⟩ := mem_groupsFrom h
  have hbase : 1 ≤ k / groupCount k :=
    (Nat.le_div_iff_mul_le (groupCount_pos k)).mpr
      (by rw [Nat.one_mul]; exact groupCount_le hk)
  rw [hdata, shareLen]
  omega

theorem shareLen_le {n groups bound : ℕ} (hpos : 0 < groups)
    (h : n ≤ groups * bound) (g : ℕ) : shareLen n groups g ≤ bound := by
  have hdiv := Nat.div_add_mod n groups
  rw [shareLen]
  split_ifs with hrem
  · have hlt : groups * (n / groups) < groups * bound := by omega
    exact Nat.lt_of_mul_lt_mul_left hlt
  · have hle : groups * (n / groups) ≤ groups * bound := by omega
    exact Nat.le_of_mul_le_mul_left hle hpos

theorem dataLen_le {k m : ℕ} {group : FecGroup} (h : group ∈ groupLayout k m) :
    group.dataLen ≤ maxGroupData := by
  obtain ⟨i, hdata, -⟩ := mem_groupsFrom h
  rw [hdata]
  exact shareLen_le (groupCount_pos k) (le_groupCount_mul k) i

/-- With the sender's caps, every group fits the field. -/
theorem group_fits {k m : ℕ} (hm : m ≤ 255)
    (hsingle : k ≤ maxGroupData → k + m ≤ 255) {group : FecGroup}
    (h : group ∈ groupLayout k m) : group.dataLen + group.parityLen ≤ 255 := by
  rcases Nat.lt_or_ge maxGroupData k with hmany | hfew
  · obtain ⟨i, -, hparity⟩ := mem_groupsFrom h
    have hgroups := two_le_groupCount hmany
    have hdata := dataLen_le h
    have hle : group.parityLen ≤ 128 := by
      rw [hparity]
      exact shareLen_le (groupCount_pos k) (by omega) i
    simp only [maxGroupData] at hdata
    omega
  · have hbounds := (tiles_data k m).bounds h
    have hparity := (tiles_parity k m).bounds h
    have hfit := hsingle hfew
    omega

/-! ## The layout is balanced -/

theorem map_dataLen_groupsFrom (k m groups count g dataStart
    parityStart : ℕ) :
    (groupsFrom k m groups count g dataStart parityStart).map
        FecGroup.dataLen =
      (List.range' g count).map (shareLen k groups) := by
  induction count generalizing g dataStart parityStart with
  | zero => rfl
  | succ count ih =>
      rw [groupsFrom, List.map_cons, ih, List.range'_succ, List.map_cons]

theorem map_parityLen_groupsFrom (k m groups count g dataStart
    parityStart : ℕ) :
    (groupsFrom k m groups count g dataStart parityStart).map
        FecGroup.parityLen =
      (List.range' g count).map (shareLen m groups) := by
  induction count generalizing g dataStart parityStart with
  | zero => rfl
  | succ count ih =>
      rw [groupsFrom, List.map_cons, ih, List.range'_succ, List.map_cons]

/-- Sizes that differ by at most one, the larger ones first. -/
def Balanced (sizes : List ℕ) : Prop :=
  sizes.Pairwise fun earlier later => later ≤ earlier ∧ earlier ≤ later + 1

theorem shareLen_balanced (n groups : ℕ) {left right : ℕ}
    (h : left < right) :
    shareLen n groups right ≤ shareLen n groups left ∧
      shareLen n groups left ≤ shareLen n groups right + 1 := by
  rw [shareLen, shareLen]
  constructor
  · apply Nat.add_le_add_left
    by_cases hright : right < n % groups
    · have hleft : left < n % groups := Nat.lt_trans h hright
      exact Nat.le_of_eq ((if_pos hright).trans (if_pos hleft).symm)
    · rw [if_neg hright]
      exact Nat.zero_le _
  · rw [Nat.add_assoc]
    apply Nat.add_le_add_left
    split_ifs <;> decide

theorem balanced_shareLen (n groups g count : ℕ) :
    Balanced ((List.range' g count).map (shareLen n groups)) := by
  rw [Balanced, List.pairwise_map]
  apply List.Pairwise.imp _ (List.pairwise_lt_range' (s := g) (n := count))
  exact fun h => shareLen_balanced n groups h

theorem length_groupLayout (k m : ℕ) :
    (groupLayout k m).length = groupCount k := by
  have hmap := congrArg List.length
    (map_dataLen_groupsFrom k m (groupCount k) (groupCount k) 0 0 k)
  rwa [List.length_map, List.length_map, List.length_range'] at hmap

theorem groupCount_eq {k : ℕ} (hk : 1 ≤ k) :
    groupCount k = divCeil k maxGroupData := by
  apply Nat.max_eq_left
  rw [Nat.one_le_iff_ne_zero]
  intro hzero
  have hle := le_divCeil_mul k (show 0 < maxGroupData by decide)
  rw [hzero, Nat.zero_mul] at hle
  exact absurd (Nat.le_trans hk hle) (by decide)

theorem lt_of_two_le_groupCount {k : ℕ} (h : 2 ≤ groupCount k) :
    maxGroupData < k := by
  by_contra hle
  have hone : divCeil k maxGroupData ≤ 1 := by
    rw [divCeil_le_iff (by decide), Nat.one_mul]
    exact Nat.le_of_not_lt hle
  rw [groupCount, Nat.max_eq_right hone] at h
  exact absurd h (by decide)

/-- The layout is an exact balanced partition of data and parity shards, and
the groups of a split frame fit the field. -/
theorem groupLayout_partition (k m : ℕ) (hk : 1 ≤ k) :
    (groupLayout k m).length = divCeil k 32 ∧
      Tiles FecGroup.dataStart FecGroup.dataLen 0 (groupLayout k m) k ∧
      Tiles FecGroup.parityStart FecGroup.parityLen k (groupLayout k m)
        (k + m) ∧
      (∀ group ∈ groupLayout k m,
        1 ≤ group.dataLen ∧ group.dataLen ≤ 32) ∧
      Balanced ((groupLayout k m).map FecGroup.dataLen) ∧
      Balanced ((groupLayout k m).map FecGroup.parityLen) ∧
      (m ≤ 255 → 2 ≤ (groupLayout k m).length →
        ∀ group ∈ groupLayout k m,
          group.dataLen + group.parityLen ≤ 255) := by
  have hlength : (groupLayout k m).length = divCeil k maxGroupData :=
    (length_groupLayout k m).trans (groupCount_eq hk)
  have hdata : Balanced ((groupLayout k m).map FecGroup.dataLen) := by
    rw [groupLayout, map_dataLen_groupsFrom]
    exact balanced_shareLen k _ _ _
  have hparity : Balanced ((groupLayout k m).map FecGroup.parityLen) := by
    rw [groupLayout, map_parityLen_groupsFrom]
    exact balanced_shareLen m _ _ _
  have hfits (hm : m ≤ 255) (htwo : 2 ≤ (groupLayout k m).length)
      (group : FecGroup) (hgroup : group ∈ groupLayout k m) :
      group.dataLen + group.parityLen ≤ 255 := by
    rw [length_groupLayout] at htwo
    have hmany := lt_of_two_le_groupCount htwo
    exact group_fits hm (fun hfew => absurd hfew (Nat.not_le.mpr hmany))
      hgroup
  exact ⟨hlength, tiles_data k m, tiles_parity k m,
    fun group hgroup => ⟨dataLen_pos hk hgroup, dataLen_le hgroup⟩,
    hdata, hparity, hfits⟩

theorem groupLayout_partition_at_sixty_five :
    1 ≤ 65 ∧
      (groupLayout 65 2).length = divCeil 65 32 ∧
      Balanced ((groupLayout 65 2).map FecGroup.dataLen) :=
  ⟨by decide, (groupLayout_partition 65 2 (by decide)).1,
    (groupLayout_partition 65 2 (by decide)).2.2.2.2.1⟩

end GameStreamer.Fec
