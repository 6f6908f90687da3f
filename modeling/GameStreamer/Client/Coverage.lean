import GameStreamer.Client.Reassembly
import Mathlib.Algebra.Order.BigOperators.Group.List
import Mathlib.Data.Finset.Card
import Mathlib.Data.Finset.Range
import Mathlib.Order.Interval.Finset.Nat

/-!
# Covered groups

A frame can be put together when of every group at least as many shards are
there as it has data shards.  The receiver tests this with two counters and, if
they allow it, group by group.  The two tests agree on every assembly whose
counters say how many slots are filled.
-/

namespace GameStreamer

open Tiling Fec

/-- Shard `i` belongs to the group. -/
def Fec.FecGroup.Has (g : FecGroup) (i : ℕ) : Prop :=
  (g.dataStart ≤ i ∧ i < g.dataStart + g.dataLen) ∨
    (g.parityStart ≤ i ∧ i < g.parityStart + g.parityLen)

instance (g : FecGroup) : DecidablePred g.Has := fun _ =>
  inferInstanceAs (Decidable (_ ∨ _))

/-- Of every group, at least as many shards arrived as it has data shards. -/
def Covers (groups : List FecGroup) (arrived : Finset ℕ) : Prop :=
  ∀ g ∈ groups, g.dataLen ≤ (arrived.filter g.Has).card

instance (groups : List FecGroup) (arrived : Finset ℕ) :
    Decidable (Covers groups arrived) :=
  inferInstanceAs (Decidable (∀ g ∈ groups, _))

/-- The indices of the slots that hold a shard. -/
def filled (shards : Shards) : Finset ℕ :=
  (Finset.range shards.length).filter fun i => isPresent shards i

theorem mem_filled {shards : Shards} {i : ℕ} :
    i ∈ filled shards ↔ isPresent shards i = true := by
  rw [filled, Finset.mem_filter, Finset.mem_range]
  refine and_iff_right_of_imp fun hpresent => ?_
  by_contra hge
  rw [isPresent, List.getD_eq_default _ _ (Nat.not_lt.mp hge)] at hpresent
  cases hpresent

/-- How many slots of a range are filled. -/
theorem present_eq_card (shards : Shards) (start len : ℕ)
    (h : start + len ≤ shards.length) :
    Pending.present shards start len =
      ((filled shards).filter fun i => start ≤ i ∧ i < start + len).card := by
  have hset : (filled shards).filter (fun i => start ≤ i ∧ i < start + len) =
      ((List.range' start len).filter (isPresent shards)).toFinset := by
    ext i
    rw [Finset.mem_filter, mem_filled, List.mem_toFinset, List.mem_filter,
      List.mem_range'_1, and_comm]
  have hnodup : ((List.range' start len).filter (isPresent shards)).Nodup :=
    (List.nodup_range' 1).filter _
  rw [Pending.present, ← countP_isPresent h, hset,
    List.toFinset_card_of_nodup hnodup, List.countP_eq_length_filter]

theorem card_filled (shards : Shards) :
    (filled shards).card = shards.countP Option.isSome := by
  have hpresent := present_eq_card shards 0 shards.length (Nat.zero_add _).le
  have hall : (filled shards).filter
      (fun i => 0 ≤ i ∧ i < 0 + shards.length) = filled shards := by
    refine Finset.filter_true_of_mem fun i hi => ?_
    have hlt := Finset.mem_range.mp (Finset.mem_filter.mp hi).1
    omega
  rw [hall, Pending.present, slice, List.drop_zero, List.take_length]
    at hpresent
  exact hpresent.symm

/-- The first slots are all filled if there are as many shards in them. -/
theorem countP_take_eq_iff {shards : Shards} {k : ℕ}
    (hk : k ≤ shards.length) :
    (shards.take k).countP Option.isSome = k ↔
      Finset.range k ⊆ filled shards := by
  have hpresent := present_eq_card shards 0 k (by omega)
  rw [Pending.present, slice, List.drop_zero] at hpresent
  have hsub : (filled shards).filter (fun i => 0 ≤ i ∧ i < 0 + k) ⊆
      Finset.range k := by
    intro i hi
    have hrange := (Finset.mem_filter.mp hi).2
    exact Finset.mem_range.mpr (by omega)
  rw [hpresent]
  constructor
  · intro hcard
    have heq := Finset.eq_of_subset_of_card_le hsub
      (by rw [Finset.card_range, hcard])
    rw [← heq]
    exact Finset.filter_subset _ _
  · intro hall
    have heq : (filled shards).filter (fun i => 0 ≤ i ∧ i < 0 + k) =
        Finset.range k := by
      refine Finset.Subset.antisymm hsub fun i hi => ?_
      have hlt := Finset.mem_range.mp hi
      exact Finset.mem_filter.mpr ⟨hall hi, by omega⟩
    rw [heq, Finset.card_range]

section Groups

variable {shards : Shards} {k : ℕ} {g : FecGroup}

theorem data_bounds (hg : g ∈ groupLayout k (shards.length - k)) :
    g.dataStart + g.dataLen ≤ k :=
  ((tiles_data k (shards.length - k)).bounds hg).2

theorem parity_bounds (hk : k ≤ shards.length)
    (hg : g ∈ groupLayout k (shards.length - k)) :
    k ≤ g.parityStart ∧ g.parityStart + g.parityLen ≤ shards.length := by
  have hbounds := (tiles_parity k (shards.length - k)).bounds hg
  rwa [Nat.add_sub_cancel' hk] at hbounds

/-- The data and the parity of a group are counted apart. -/
theorem card_has (hk : k ≤ shards.length)
    (hg : g ∈ groupLayout k (shards.length - k)) :
    ((filled shards).filter g.Has).card =
      Pending.present shards g.dataStart g.dataLen +
        Pending.present shards g.parityStart g.parityLen := by
  have hdata := data_bounds hg
  have hparity := parity_bounds hk hg
  rw [present_eq_card shards _ _ (by omega),
    present_eq_card shards _ _ hparity.2, ← Finset.card_union_of_disjoint,
    ← Finset.filter_or]
  · rfl
  · apply Finset.disjoint_filter.mpr
    intro i _ hfirst hsecond
    omega

/-- The filled slots sum up over the groups. -/
theorem countP_eq_sum (hk : k ≤ shards.length) :
    shards.countP Option.isSome =
      ((groupLayout k (shards.length - k)).map fun g =>
        ((filled shards).filter g.Has).card).sum := by
  rw [List.map_congr_left fun g hg => card_has hk hg, List.sum_map_add]
  have hdata := (tiles_data k (shards.length - k)).countP_slice
    Option.isSome shards
  have hparity := (tiles_parity k (shards.length - k)).countP_slice
    Option.isSome shards
  rw [Nat.sub_zero] at hdata
  rw [Nat.add_sub_cancel_left] at hparity
  have hsplit : shards = slice 0 k shards ++
      slice k (shards.length - k) shards := by
    have hrest : slice k (shards.length - k) shards = shards.drop k :=
      List.take_of_length_le (by rw [List.length_drop])
    rw [hrest, slice, List.drop_zero, List.take_append_drop]
  calc shards.countP Option.isSome
      = (slice 0 k shards ++
          slice k (shards.length - k) shards).countP Option.isSome := by
        rw [← hsplit]
    _ = _ := by
        rw [List.countP_append, ← hdata, ← hparity]
        rfl

/-- Covered groups have enough shards in all. -/
theorem le_countP_of_covers (hk : k ≤ shards.length)
    (hcovers : Covers (groupLayout k (shards.length - k)) (filled shards)) :
    k ≤ shards.countP Option.isSome := by
  have hsum := (tiles_data k (shards.length - k)).sum_len
  rw [Nat.zero_add] at hsum
  rw [countP_eq_sum hk]
  exact hsum.symm.le.trans (List.sum_le_sum hcovers)

/-- With all data shards every group is covered. -/
theorem covers_of_data (hdata : Finset.range k ⊆ filled shards) :
    Covers (groupLayout k (shards.length - k)) (filled shards) := by
  intro g hg
  have hbounds := data_bounds hg
  have hsub : Finset.Ico g.dataStart (g.dataStart + g.dataLen) ⊆
      (filled shards).filter g.Has := by
    intro i hi
    have hrange := Finset.mem_Ico.mp hi
    exact Finset.mem_filter.mpr
      ⟨hdata (Finset.mem_range.mpr (by omega)), Or.inl hrange⟩
  have hcard := Finset.card_le_card hsub
  rwa [Nat.card_Ico, Nat.add_sub_cancel_left] at hcard

end Groups

namespace Pending

/-- All data is there, or enough of every group. -/
def Complete (pending : Pending) : Prop :=
  pending.receivedData = pending.dataCount ∨
    ¬pending.receivedData = pending.dataCount ∧
      pending.dataCount ≤ pending.receivedTotal ∧ pending.recoverable

instance (pending : Pending) : Decidable pending.Complete :=
  inferInstanceAs (Decidable (_ ∨ _))

def groups (pending : Pending) : List FecGroup :=
  groupLayout pending.dataCount.toNat
    (pending.shards.length - pending.dataCount.toNat)

/-- Every group has as many shards as it has data shards. -/
def Covered (pending : Pending) : Prop :=
  Covers pending.groups (filled pending.shards)

instance (pending : Pending) : Decidable pending.Covered :=
  inferInstanceAs (Decidable (Covers _ _))

/-- The counters are the numbers of filled slots, truncated to their width,
and the filled slots are within reach of a 16-bit index. -/
structure Tallied (pending : Pending) : Prop where
  pos : 0 < pending.dataCount.toNat
  data_le : pending.dataCount.toNat ≤ pending.shards.length
  le_data : pending.shards.length ≤ pending.dataCount.toNat + 255
  addressed : ∀ i ∈ filled pending.shards, i < 2 ^ 16
  data : pending.receivedData = UInt16.ofNat
    ((pending.shards.take pending.dataCount.toNat).countP Option.isSome)
  total : pending.receivedTotal =
    UInt16.ofNat (pending.shards.countP Option.isSome)

variable {pending : Pending}

/-- The receiver's group test. -/
theorem recoverable_iff
    (hle : pending.dataCount.toNat ≤ pending.shards.length) :
    pending.recoverable = true ↔ pending.Covered := by
  simp only [recoverable, List.all_eq_true, decide_eq_true_eq]
  apply forall₂_congr
  intro g hg
  rw [card_has hle hg]
  omega

theorem countP_take_le (pending : Pending) :
    (pending.shards.take pending.dataCount.toNat).countP Option.isSome ≤
      pending.dataCount.toNat :=
  (List.countP_le_length).trans (List.length_take_le _ _)

theorem Tallied.toNat_receivedData (h : pending.Tallied) :
    pending.receivedData.toNat =
      (pending.shards.take pending.dataCount.toNat).countP
        Option.isSome := by
  have hle := countP_take_le pending
  have hlt := pending.dataCount.toNat_lt
  rw [h.data, UInt16.toNat_ofNat', Nat.mod_eq_of_lt (by omega)]

/-- The data counter tells that all data has arrived. -/
theorem Tallied.direct_iff (h : pending.Tallied) :
    pending.receivedData = pending.dataCount ↔
      Finset.range pending.dataCount.toNat ⊆ filled pending.shards := by
  rw [← UInt16.toNat_inj, h.toNat_receivedData]
  exact countP_take_eq_iff h.data_le

/-- A counter that runs over has every slot in reach filled, and so all data:
otherwise it is exact. -/
theorem Tallied.toNat_receivedTotal (h : pending.Tallied)
    (hdirect : ¬pending.receivedData = pending.dataCount) :
    pending.receivedTotal.toNat =
      pending.shards.countP Option.isSome := by
  have hsub : filled pending.shards ⊆ Finset.range (2 ^ 16) := fun i hi =>
    Finset.mem_range.mpr (h.addressed i hi)
  have hle := Finset.card_le_card hsub
  rw [card_filled, Finset.card_range] at hle
  have hne : pending.shards.countP Option.isSome ≠ 2 ^ 16 := by
    intro hfull
    have heq := Finset.eq_of_subset_of_card_le hsub
      (by rw [card_filled, Finset.card_range, hfull])
    refine hdirect (h.direct_iff.mpr ?_)
    rw [heq]
    exact Finset.range_subset_range.mpr pending.dataCount.toNat_lt.le
  rw [h.total, UInt16.toNat_ofNat', Nat.mod_eq_of_lt (by omega)]

/-- The counters are only a shortcut for the group test. -/
theorem Tallied.complete_iff (h : pending.Tallied) :
    pending.Complete ↔ pending.Covered := by
  constructor
  · rintro (hdirect | ⟨-, -, hrecoverable⟩)
    · exact covers_of_data (h.direct_iff.mp hdirect)
    · exact (recoverable_iff h.data_le).mp hrecoverable
  · intro hcovered
    apply or_iff_not_imp_left.mpr
    intro hdirect
    refine ⟨hdirect, ?_, (recoverable_iff h.data_le).mpr hcovered⟩
    rw [UInt16.le_iff_toNat_le, h.toNat_receivedTotal hdirect]
    exact le_countP_of_covers h.data_le hcovered

end Pending

end GameStreamer
