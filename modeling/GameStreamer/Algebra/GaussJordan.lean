import Mathlib.LinearAlgebra.Matrix.ToLinearEquiv

/-!
# Gauss-Jordan inversion

The elimination runs over the columns and treats the matrix and an initially
identical copy of the unit matrix alike.  After each column the pair is the
matrix and its coefficients: what was done to the matrix is multiplication
from the left, and no kernel vector was gained.  So the sweep ends with an
inverse, or stops at a column that depends on the ones before it.
-/

namespace GameStreamer.GaussJordan

open Matrix

variable {F : Type*} [Field F] [DecidableEq F] {n : ℕ}

/-- The first row from `col` on that is nonzero in column `col`. -/
def pivot (a : Matrix (Fin n) (Fin n) F) (col : Fin n) : Option (Fin n) :=
  (List.finRange n).find? fun r => decide (col ≤ r ∧ a r col ≠ 0)

/-- Rows `col` and `row` exchanged. -/
def swapRows (col row : Fin n) (m : Matrix (Fin n) (Fin n) F) :
    Matrix (Fin n) (Fin n) F :=
  fun r => m (Equiv.swap col row r)

/-- Make column `col` of `a` a unit column: exchange, scale the pivot row and
clear the other rows.  The operations are read off `a` and applied to `m`. -/
def clearColumn (col row : Fin n) (a m : Matrix (Fin n) (Fin n) F) :
    Matrix (Fin n) (Fin n) F :=
  fun r j =>
    if r = col then
      (swapRows col row a col col)⁻¹ * swapRows col row m col j
    else
      swapRows col row m r j - swapRows col row a r col *
        ((swapRows col row a col col)⁻¹ * swapRows col row m col j)

/-- The matrix and its coefficients after the first `count` columns, unless
one of them has no pivot. -/
def sweep (a : Matrix (Fin n) (Fin n) F) : (count : ℕ) → count ≤ n →
    Option (Matrix (Fin n) (Fin n) F × Matrix (Fin n) (Fin n) F)
  | 0, _ => some (a, 1)
  | count + 1, h =>
      (sweep a count (Nat.le_of_succ_le h)).bind fun state =>
        (pivot state.1 ⟨count, h⟩).map fun row =>
          (clearColumn ⟨count, h⟩ row state.1 state.1,
            clearColumn ⟨count, h⟩ row state.1 state.2)

/-! ## One column -/

theorem pivot_spec {a : Matrix (Fin n) (Fin n) F} {col row : Fin n}
    (h : pivot a col = some row) : col ≤ row ∧ a row col ≠ 0 := by
  simpa using List.find?_some h

theorem pivot_eq_none {a : Matrix (Fin n) (Fin n) F} {col : Fin n}
    (h : pivot a col = none) (r : Fin n) (hr : col ≤ r) : a r col = 0 := by
  have hnone := List.find?_eq_none.mp h r (List.mem_finRange r)
  simpa [hr] using hnone

omit [DecidableEq F] in
/-- Row operations are multiplication from the left. -/
theorem clearColumn_mul (col row : Fin n) (a x y : Matrix (Fin n) (Fin n) F) :
    clearColumn col row a (x * y) = clearColumn col row a x * y := by
  ext r j
  simp only [clearColumn, swapRows, Matrix.mul_apply]
  split_ifs
  · rw [Finset.mul_sum]
    apply Finset.sum_congr rfl
    intro l _
    ring
  · rw [Finset.mul_sum, Finset.mul_sum, ← Finset.sum_sub_distrib]
    apply Finset.sum_congr rfl
    intro l _
    ring

omit [DecidableEq F] in
/-- No vector enters the kernel. -/
theorem mulVec_eq_zero_of_clearColumn {col row : Fin n}
    {a : Matrix (Fin n) (Fin n) F} (hrow : a row col ≠ 0) {v : Fin n → F}
    (h : clearColumn col row a a *ᵥ v = 0) : a *ᵥ v = 0 := by
  have hlead : swapRows col row a col col ≠ 0 := by
    rw [swapRows, Equiv.swap_apply_left]
    exact hrow
  have hcol : (swapRows col row a *ᵥ v) col = 0 := by
    have hentry := congrFun h col
    simp only [clearColumn, Matrix.mulVec, dotProduct, if_pos,
      Pi.zero_apply, mul_assoc, ← Finset.mul_sum] at hentry
    exact (mul_eq_zero.mp hentry).resolve_left (inv_ne_zero hlead)
  have hrows : ∀ r, (swapRows col row a *ᵥ v) r = 0 := by
    intro r
    by_cases hr : r = col
    · rw [hr]
      exact hcol
    · have hentry := congrFun h r
      simp only [clearColumn, Matrix.mulVec, dotProduct, if_neg hr,
        Pi.zero_apply, sub_mul, mul_assoc, Finset.sum_sub_distrib,
        ← Finset.mul_sum] at hentry
      simp only [Matrix.mulVec, dotProduct] at hcol ⊢
      rw [hcol] at hentry
      simpa using hentry
  funext r
  have hr := hrows (Equiv.swap col row r)
  simpa [swapRows, Matrix.mulVec, dotProduct] using hr

/-- The first `count` columns are unit columns. -/
def Reduced (count : ℕ) (a : Matrix (Fin n) (Fin n) F) : Prop :=
  ∀ j : Fin n, j < count → ∀ r, a r j = if r = j then 1 else 0

omit [DecidableEq F] in
theorem Reduced.swapRows {a : Matrix (Fin n) (Fin n) F} {col row : Fin n}
    (h : Reduced col a) (hle : col ≤ row) :
    Reduced col (swapRows col row a) := by
  intro j hj r
  have hjcol : j ≠ col := fun heq => absurd (heq ▸ hj) (lt_irrefl _)
  have hjrow : j ≠ row := fun heq => absurd (heq ▸ hj) (not_lt.mpr hle)
  rw [GaussJordan.swapRows, h j hj]
  have hiff : Equiv.swap col row r = j ↔ r = j := by
    rw [Equiv.swap_apply_eq_iff, Equiv.swap_apply_of_ne_of_ne hjcol hjrow]
  simp only [hiff]

omit [DecidableEq F] in
theorem Reduced.clearColumn {a : Matrix (Fin n) (Fin n) F} {col row : Fin n}
    (h : Reduced col a) (hle : col ≤ row) (hrow : a row col ≠ 0) :
    Reduced (col + 1) (clearColumn col row a a) := by
  have hlead : GaussJordan.swapRows col row a col col ≠ 0 := by
    rw [GaussJordan.swapRows, Equiv.swap_apply_left]
    exact hrow
  have hswap := h.swapRows hle
  intro j hj r
  rcases Nat.lt_succ_iff_lt_or_eq.mp hj with hlt | heq
  · have hne : col ≠ j := fun heq => absurd (heq ▸ hlt) (lt_irrefl _)
    simp only [GaussJordan.clearColumn, hswap j hlt, if_neg hne, mul_zero,
      sub_zero]
    by_cases hr : r = col
    · rw [if_pos hr, if_neg (by rw [hr]; exact hne)]
    · rw [if_neg hr]
  · obtain rfl : j = col := Fin.ext heq
    simp only [GaussJordan.clearColumn]
    by_cases hr : r = j
    · rw [if_pos hr, if_pos hr, inv_mul_cancel₀ hlead]
    · rw [if_neg hr, if_neg hr, inv_mul_cancel₀ hlead, mul_one, sub_self]

omit [DecidableEq F] in
/-- A column without a pivot depends on the unit columns before it. -/
theorem exists_kernel_of_dependent {a : Matrix (Fin n) (Fin n) F}
    {col : Fin n} (h : Reduced col a) (hbelow : ∀ r, col ≤ r → a r col = 0) :
    ∃ v ≠ 0, a *ᵥ v = 0 := by
  refine ⟨fun j => if j = col then 1 else if j < col then -a j col else 0,
    ?_, ?_⟩
  · intro hzero
    have hentry := congrFun hzero col
    simp at hentry
  · funext r
    simp only [Matrix.mulVec, dotProduct, Pi.zero_apply]
    have hterm : ∀ j, a r j *
        (if j = col then 1 else if j < col then -a j col else 0) =
          (if j = col then a r col else 0) +
            if j = r then (if r < col then -a r col else 0) else 0 := by
      intro j
      by_cases hj : j = col
      · subst hj
        by_cases hr : j = r
        · subst hr
          simp
        · simp [hr]
      · by_cases hlt : j < col
        · rw [h j hlt r]
          by_cases hr : r = j
          · subst hr
            simp [hj, hlt]
          · simp [hj, hr, Ne.symm hr]
        · by_cases hr : j = r
          · subst hr
            simp [hj, hlt]
          · simp [hj, hlt, hr]
    simp only [hterm, Finset.sum_add_distrib, Finset.sum_ite_eq',
      Finset.mem_univ, if_true]
    by_cases hr : r < col
    · rw [if_pos hr, add_neg_cancel]
    · rw [if_neg hr, add_zero, hbelow r (not_lt.mp hr)]

/-! ## The sweep -/

/-- What the sweep keeps: the coefficients give the matrix from the original
one, whose kernel has lost nothing. -/
structure Swept (a : Matrix (Fin n) (Fin n) F) (count : ℕ)
    (state : Matrix (Fin n) (Fin n) F × Matrix (Fin n) (Fin n) F) : Prop where
  coefficients : state.1 = state.2 * a
  reduced : Reduced count state.1
  kernel : ∀ v, state.1 *ᵥ v = 0 → a *ᵥ v = 0

theorem swept_of_sweep {a : Matrix (Fin n) (Fin n) F} {count : ℕ}
    {hle : count ≤ n}
    {state : Matrix (Fin n) (Fin n) F × Matrix (Fin n) (Fin n) F}
    (h : sweep a count hle = some state) : Swept a count state := by
  induction count generalizing state with
  | zero =>
      obtain rfl := Option.some.inj h
      exact ⟨(one_mul a).symm, fun j hj => absurd hj (Nat.not_lt_zero _),
        fun _ hv => hv⟩
  | succ count ih =>
      obtain ⟨before, hbefore, hstep⟩ := Option.bind_eq_some_iff.mp h
      obtain ⟨row, hrow, rfl⟩ := Option.map_eq_some_iff.mp hstep
      have hswept := ih hbefore
      obtain ⟨hpivot, hne⟩ := pivot_spec hrow
      constructor
      · dsimp only
        rw [← clearColumn_mul, ← hswept.coefficients]
      · exact hswept.reduced.clearColumn hpivot hne
      · exact fun v hv =>
          hswept.kernel v (mulVec_eq_zero_of_clearColumn hne hv)

/-- A completed sweep gives a left inverse. -/
theorem mul_eq_one_of_sweep {a : Matrix (Fin n) (Fin n) F}
    {state : Matrix (Fin n) (Fin n) F × Matrix (Fin n) (Fin n) F}
    (h : sweep a n le_rfl = some state) : state.2 * a = 1 := by
  have hswept := swept_of_sweep h
  rw [← hswept.coefficients]
  ext r j
  rw [hswept.reduced j j.isLt r, Matrix.one_apply]

/-- A sweep that stops has met a singular matrix. -/
theorem det_eq_zero_of_sweep {a : Matrix (Fin n) (Fin n) F} {count : ℕ}
    {hle : count ≤ n} (h : sweep a count hle = none) : a.det = 0 := by
  induction count with
  | zero => cases h
  | succ count ih =>
      rcases hbefore : sweep a count (Nat.le_of_succ_le hle) with _ | state
      · exact ih hbefore
      · have hswept := swept_of_sweep hbefore
        rw [sweep, hbefore, Option.bind_some, Option.map_eq_none_iff] at h
        obtain ⟨v, hne, hv⟩ := exists_kernel_of_dependent hswept.reduced
          (pivot_eq_none h)
        exact Matrix.exists_mulVec_eq_zero_iff.mp
          ⟨v, hne, hswept.kernel v hv⟩

/-- The sweep completes exactly on nonsingular matrices. -/
theorem sweep_isSome_iff (a : Matrix (Fin n) (Fin n) F) :
    (sweep a n le_rfl).isSome ↔ a.det ≠ 0 := by
  rcases h : sweep a n le_rfl with _ | state
  · simpa using det_eq_zero_of_sweep h
  · have hinverse := congrArg Matrix.det (mul_eq_one_of_sweep h)
    rw [Matrix.det_mul, Matrix.det_one] at hinverse
    simpa using right_ne_zero_of_mul (hinverse ▸ one_ne_zero)

end GameStreamer.GaussJordan
