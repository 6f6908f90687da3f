import GameStreamer.Core.SerialNumber

/-!
# The order of serial numbers

Truncated counters wrap, so no order on all of them agrees with the order in
which they were given out.  On half of the number space one does: the order of
the distances from where the half starts.  Comparisons by difference are this
order there.
-/

namespace GameStreamer.SerialNumber

/-- How far a number is from the base, across the wrap. -/
def place (base seq : UInt32) : ℕ := (seq - base).toNat

/-- The numbers of the half space that starts at the base. -/
def InHalf (base seq : UInt32) : Prop := place base seq < 2 ^ 31

/-- Not newer, in wrap order. -/
def AtOrBefore (seq mark : UInt32) : Prop := (mark - seq).toNat < 2 ^ 31

instance (base seq : UInt32) : Decidable (InHalf base seq) :=
  inferInstanceAs (Decidable (_ < _))

/-- All of the numbers are in the half space. -/
def AllInHalf (base : UInt32) (seqs : List UInt32) : Prop :=
  ∀ seq ∈ seqs, InHalf base seq

instance (base : UInt32) (seqs : List UInt32) :
    Decidable (AllInHalf base seqs) :=
  -- Decided along the list, not over all 32-bit numbers.
  List.decidableBAll _ _

instance (seq mark : UInt32) : Decidable (AtOrBefore seq mark) :=
  inferInstanceAs (Decidable (_ < _))

theorem place_injective (base : UInt32) :
    Function.Injective (place base) := by
  intro left right h
  have hsub := UInt32.toNat_inj.mp h
  rw [← UInt32.sub_add_cancel left base, hsub, UInt32.sub_add_cancel]

/-- Up to the wrap, a number is as far along as its value. -/
theorem toNat_of_le {base seq : UInt32} (h : base ≤ seq) :
    seq.toNat = base.toNat + place base seq := by
  have hbase := base.toNat_lt
  have hseq := seq.toNat_lt
  rw [UInt32.le_iff_toNat_le] at h
  rw [place, UInt32.toNat_sub]
  omega

/-- Beyond the wrap, the value starts again. -/
theorem toNat_of_lt {base seq : UInt32} (h : seq < base) :
    seq.toNat + 2 ^ 32 = base.toNat + place base seq := by
  have hbase := base.toNat_lt
  have hseq := seq.toNat_lt
  rw [UInt32.lt_iff_toNat_lt] at h
  rw [place, UInt32.toNat_sub]
  omega

/-- Later counter values are farther along. -/
theorem place_wire_add {base : UInt32} {value distance : ℕ}
    (h : place base (wire value) + distance < 2 ^ 32) :
    place base (wire (value + distance)) =
      place base (wire value) + distance := by
  have hbase := base.toNat_lt
  simp only [place, UInt32.toNat_sub, toNat_wire] at *
  omega

/-- A distance added to a number moves its place by as much. -/
theorem place_add_wire {base seq : UInt32} {distance : ℕ}
    (h : place base seq + distance < 2 ^ 32) :
    place base (seq + wire distance) = place base seq + distance := by
  have hbase := base.toNat_lt
  have hseq := seq.toNat_lt
  simp only [place, UInt32.toNat_sub, UInt32.toNat_add, toNat_wire] at *
  omega

/-- Wrapping subtraction recovers the distance of two places. -/
theorem toNat_sub_of_place_le {base earlier later : UInt32}
    (h : place base earlier ≤ place base later) :
    (later - earlier).toNat = place base later - place base earlier := by
  have hbase := base.toNat_lt
  have hearlier := earlier.toNat_lt
  have hlater := later.toNat_lt
  simp only [place, UInt32.toNat_sub] at *
  omega

/-- And against the order it runs around the number space. -/
theorem toNat_sub_of_place_lt {base earlier later : UInt32}
    (h : place base earlier < place base later) :
    (earlier - later).toNat + (place base later - place base earlier) =
      2 ^ 32 := by
  have hbase := base.toNat_lt
  have hearlier := earlier.toNat_lt
  have hlater := later.toNat_lt
  simp only [place, UInt32.toNat_sub] at *
  omega

/-- Within half the space, the wrapping distance tells the order. -/
theorem toNat_sub_of_inHalf {base earlier later : UInt32}
    (hearlier : InHalf base earlier) (hlater : InHalf base later) :
    (place base earlier ≤ place base later ∧ (later - earlier).toNat =
        place base later - place base earlier) ∨
      (place base later < place base earlier ∧
        2 ^ 31 < (later - earlier).toNat) := by
  rw [InHalf] at hearlier hlater
  cases Nat.lt_or_ge (place base later) (place base earlier) with
  | inl hlt =>
      have haround := toNat_sub_of_place_lt hlt
      exact Or.inr ⟨hlt, by omega⟩
  | inr hle => exact Or.inl ⟨hle, toNat_sub_of_place_le hle⟩

section Half

variable {base left right : UInt32}

/-- In a half space, wrap order is the order of the places. -/
theorem atOrBefore_iff (hleft : InHalf base left) (hright : InHalf base right) :
    AtOrBefore left right ↔ place base left ≤ place base right := by
  have hbase := base.toNat_lt
  have hl := left.toNat_lt
  have hr := right.toNat_lt
  simp only [InHalf, AtOrBefore, place, UInt32.toNat_sub] at *
  omega

/-- On one side of the wrap, values are in the order of the places. -/
theorem le_iff_place_le (hside : left < base ↔ right < base) :
    left ≤ right ↔ place base left ≤ place base right := by
  rw [UInt32.le_iff_toNat_le]
  by_cases h : left < base
  · have hl := toNat_of_lt h
    have hr := toNat_of_lt (hside.mp h)
    omega
  · have hl := toNat_of_le (UInt32.not_lt.mp h)
    have hr := toNat_of_le (UInt32.not_lt.mp (mt hside.mpr h))
    omega

/-- What lies before the wrap is behind what lies beyond it. -/
theorem place_lt_of_straddle (hleft : base ≤ left) (hright : right < base) :
    place base left < place base right := by
  have hl := toNat_of_le hleft
  have hr := toNat_of_lt hright
  have hlt := left.toNat_lt
  omega

end Half

end GameStreamer.SerialNumber
