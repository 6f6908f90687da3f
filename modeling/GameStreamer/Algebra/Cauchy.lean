import Mathlib.LinearAlgebra.Lagrange
import Mathlib.LinearAlgebra.Matrix.ToLinearEquiv

/-!
# Cauchy matrices

The matrix of inverse differences of two families of distinct field elements
that never meet is nonsingular.  A vector in its kernel gives, over the common
denominator, a polynomial of too low degree with too many roots; read at the
poles, its vanishing coefficients are those of the vector.
-/

namespace GameStreamer.Cauchy

open Polynomial Finset

variable {F : Type*} [Field F] {n : ℕ}

/-- Entry `(i, j)` is `1 / (x i - y j)`. -/
def cauchy (x y : Fin n → F) : Matrix (Fin n) (Fin n) F :=
  Matrix.of fun i j => (x i - y j)⁻¹

/-- The numerator of `∑ j, v j / (X - y j)` over the common denominator. -/
noncomputable def numerator (y v : Fin n → F) : F[X] :=
  ∑ j, C (v j) * ∏ l ∈ univ.erase j, (X - C (y l))

theorem degree_numerator_lt (y v : Fin n → F) :
    (numerator y v).degree < #(univ : Finset (Fin n)) := by
  apply (degree_sum_le _ _).trans_lt
  rw [card_univ, Fintype.card_fin]
  apply (Finset.sup_lt_iff (WithBot.bot_lt_coe n)).mpr
  intro j _
  calc (C (v j) * ∏ l ∈ univ.erase j, (X - C (y l))).degree
      ≤ (C (v j)).degree + (∏ l ∈ univ.erase j, (X - C (y l))).degree :=
        degree_mul_le _ _
    _ ≤ 0 + (∏ l ∈ univ.erase j, (X - C (y l))).degree := by
        gcongr
        exact degree_C_le
    _ = ((univ.erase j).card : WithBot ℕ) := by
        rw [degree_prod]
        simp only [degree_X_sub_C, sum_const, nsmul_eq_mul, mul_one, zero_add]
    _ < n := by
        rw [card_erase_of_mem (mem_univ j), card_univ, Fintype.card_fin]
        exact_mod_cast Nat.sub_one_lt (Nat.ne_of_gt j.pos)

theorem eval_numerator (y v : Fin n → F) {a : F} (ha : ∀ j, a ≠ y j) :
    (numerator y v).eval a =
      (∏ l, (a - y l)) * ∑ j, v j * (a - y j)⁻¹ := by
  rw [numerator, eval_finsetSum, mul_sum]
  apply sum_congr rfl
  intro j _
  have hsplit := mul_prod_erase univ (fun l => a - y l) (mem_univ j)
  have hne : a - y j ≠ 0 := sub_ne_zero.mpr (ha j)
  calc (C (v j) * ∏ l ∈ univ.erase j, (X - C (y l))).eval a
      = v j * ∏ l ∈ univ.erase j, (a - y l) := by
        simp [eval_prod]
    _ = ((a - y j) * ∏ l ∈ univ.erase j, (a - y l)) *
          (v j * (a - y j)⁻¹) := by
        field_simp
    _ = (∏ l, (a - y l)) * (v j * (a - y j)⁻¹) := by rw [hsplit]

theorem eval_numerator_pole (y v : Fin n → F) (j : Fin n) :
    (numerator y v).eval (y j) =
      v j * ∏ l ∈ univ.erase j, (y j - y l) := by
  rw [numerator, eval_finsetSum, sum_eq_single j]
  · simp [eval_prod]
  · intro i _ hij
    rw [eval_mul, eval_prod,
      prod_eq_zero (mem_erase.mpr ⟨Ne.symm hij, mem_univ j⟩) (by simp),
      mul_zero]
  · exact fun h => absurd (mem_univ j) h

theorem det_cauchy_ne_zero {x y : Fin n → F} (hx : Function.Injective x)
    (hy : Function.Injective y) (hxy : ∀ i j, x i ≠ y j) :
    (cauchy x y).det ≠ 0 := by
  intro hdet
  obtain ⟨v, hne, hkernel⟩ := Matrix.exists_mulVec_eq_zero_iff.mpr hdet
  have hroots : ∀ i ∈ (univ : Finset (Fin n)),
      (numerator y v).eval (x i) = 0 := by
    intro i _
    have hrow := congrFun hkernel i
    rw [eval_numerator y v (hxy i)]
    simp only [cauchy, Matrix.mulVec, dotProduct, Matrix.of_apply,
      Pi.zero_apply] at hrow
    simp only [mul_comm (v _), hrow, mul_zero]
  have hzero := eq_zero_of_degree_lt_of_eval_index_eq_zero univ hx.injOn
    (degree_numerator_lt y v) hroots
  apply hne
  funext j
  have hpole := eval_numerator_pole y v j
  rw [hzero, eval_zero] at hpole
  have hprod : ∏ l ∈ univ.erase j, (y j - y l) ≠ 0 := by
    apply prod_ne_zero_iff.mpr
    intro l hl
    exact sub_ne_zero.mpr fun h => (mem_erase.mp hl).1 (hy h).symm
  exact (mul_eq_zero.mp hpole.symm).resolve_right hprod

end GameStreamer.Cauchy
