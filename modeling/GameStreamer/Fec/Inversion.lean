import GameStreamer.Algebra.GaussJordan
import GameStreamer.Fec.Field256

/-!
# Matrix inversion over the field of the code

`invert` works in place on rows of bytes.  Read as matrices over GF(2^8), its
rows go through the same states as the Gauss-Jordan sweep of the library, so
that it answers exactly on the nonsingular matrices.
-/

namespace GameStreamer.Fec

open Matrix

/-- A square matrix as `n` rows of `n` bytes. -/
abbrev Rows (n : ℕ) := Vector (Vector UInt8 n) n

namespace Rows

variable {n : ℕ}

def build (f : Fin n → Fin n → UInt8) : Rows n :=
  Vector.ofFn fun r => Vector.ofFn (f r)

def entry (a : Rows n) (r c : Fin n) : UInt8 := a[r][c]

@[simp]
theorem entry_build (f : Fin n → Fin n → UInt8) (r c : Fin n) :
    (build f).entry r c = f r c := by
  simp [build, entry]

/-- `a.swap(col, row)`. -/
def swap (a : Rows n) (col row : Fin n) : Rows n :=
  build fun r j => a.entry (Equiv.swap col row r) j

/-- Row `col` times `factor`. -/
def scale (a : Rows n) (col : Fin n) (factor : UInt8) : Rows n :=
  build fun r j =>
    if r = col then mul (a.entry r j) factor else a.entry r j

/-- Row `col` of `m`, times the factor in column `col` of `a`, taken from
every other row whose factor is not zero. -/
def eliminate (a m : Rows n) (col : Fin n) : Rows n :=
  build fun r j =>
    if r ≠ col ∧ a.entry r col ≠ 0 then
      m.entry r j ^^^ mul (a.entry r col) (m.entry col j)
    else m.entry r j

def identity : Rows n := build fun i j => if i = j then 1 else 0

/-- The first row from `col` on with a nonzero entry in column `col`. -/
def pivot (a : Rows n) (col : Fin n) : Option (Fin n) :=
  (List.finRange n).find? fun r => decide (col ≤ r ∧ a.entry r col ≠ 0)

/-- One column of the elimination on the matrix and on its inverse. -/
def clearColumn (state : Rows n × Rows n) (col row : Fin n) :
    Rows n × Rows n :=
  let a := state.1.swap col row
  let invM := state.2.swap col row
  let pivInv := inv (a.entry col col)
  let a := a.scale col pivInv
  let invM := invM.scale col pivInv
  (a.eliminate a col, a.eliminate invM col)

/-- The state after the first `count` columns. -/
def sweep (a : Rows n) : (count : ℕ) → count ≤ n → Option (Rows n × Rows n)
  | 0, _ => some (a, identity)
  | count + 1, h =>
      (sweep a count (Nat.le_of_succ_le h)).bind fun state =>
        (pivot state.1 ⟨count, h⟩).map fun row =>
          clearColumn state ⟨count, h⟩ row

/-- Gauss-Jordan inverse; nothing if singular.  One column after the other gets
a pivot, is scaled, and is cleared in all other rows. -/
def invert (a : Rows n) : Option (Rows n) := (sweep a n le_rfl).map Prod.snd

/-! ## The sweep on matrices -/

def toMatrix (a : Rows n) : Matrix (Fin n) (Fin n) GF256 :=
  fun r c => ⟨a.entry r c⟩

theorem toMatrix_identity : toMatrix (identity (n := n)) = 1 := by
  ext r c
  by_cases h : r = c <;> simp [toMatrix, identity, h, Matrix.one_apply]

theorem pivot_toMatrix (a : Rows n) (col : Fin n) :
    GaussJordan.pivot a.toMatrix col = a.pivot col := by
  have hzero : ∀ r, a.toMatrix r col ≠ 0 ↔ a.entry r col ≠ 0 :=
    fun r => not_congr ⟨fun h => congrArg GF256.byte h, GF256.ext⟩
  simp only [GaussJordan.pivot, pivot, hzero]

/-- The elimination step is the one of the sweep, for either matrix. -/
theorem toMatrix_eliminate {a : Rows n} (m : Rows n) {col row : Fin n}
    (hrow : a.entry row col ≠ 0) :
    toMatrix (eliminate ((a.swap col row).scale col
        (inv ((a.swap col row).entry col col)))
      ((m.swap col row).scale col (inv ((a.swap col row).entry col col)))
      col) =
      GaussJordan.clearColumn col row a.toMatrix m.toMatrix := by
  have hlead : (a.swap col row).entry col col = a.entry row col := by
    simp [swap]
  have hinv : (⟨a.entry row col⟩ : GF256)⁻¹.byte = inv (a.entry row col) :=
    GF256.byte_inv fun h => hrow (congrArg GF256.byte h)
  funext r j
  apply GF256.ext
  rw [hlead]
  by_cases hr : r = col
  · subst hr
    simp [toMatrix, eliminate, scale, swap, GaussJordan.clearColumn, hinv,
      GaussJordan.swapRows, mul_comm]
  · by_cases hzero : a.entry (Equiv.swap col row r) col = 0
    · simp [toMatrix, eliminate, scale, swap, GaussJordan.clearColumn,
        GaussJordan.swapRows, hr, hzero]
    · simp [toMatrix, eliminate, scale, swap, GaussJordan.clearColumn, hinv,
        GaussJordan.swapRows, hr, hzero, mul_comm]

/-- Both sweeps go through the same states. -/
theorem sweep_toMatrix (a : Rows n) (count : ℕ) (hle : count ≤ n) :
    GaussJordan.sweep a.toMatrix count hle =
      (sweep a count hle).map fun state =>
        (state.1.toMatrix, state.2.toMatrix) := by
  induction count with
  | zero => rw [GaussJordan.sweep, sweep, Option.map_some, toMatrix_identity]
  | succ count ih =>
      rw [GaussJordan.sweep, sweep, ih]
      cases sweep a count (Nat.le_of_succ_le hle) with
      | none => rfl
      | some state =>
          simp only [Option.map_some, Option.bind_some, pivot_toMatrix]
          cases hpivot : pivot state.1 ⟨count, hle⟩ with
          | none => rfl
          | some row =>
              have hrow : state.1.entry row ⟨count, hle⟩ ≠ 0 := by
                have hfound := List.find?_some hpivot
                simp only [decide_eq_true_eq] at hfound
                exact hfound.2
              simp only [Option.map_some, clearColumn,
                toMatrix_eliminate _ hrow]

/-- `invert` answers on nonsingular matrices only. -/
theorem invert_isSome_iff (a : Rows n) :
    a.invert.isSome ↔ a.toMatrix.det ≠ 0 := by
  rw [← GaussJordan.sweep_isSome_iff, sweep_toMatrix, invert,
    Option.isSome_map, Option.isSome_map]

/-- What `invert` answers is the inverse. -/
theorem invert_mul {a b : Rows n} (h : a.invert = some b) :
    b.toMatrix * a.toMatrix = 1 := by
  obtain ⟨state, hstate, rfl⟩ := Option.map_eq_some_iff.mp h
  have hsweep := sweep_toMatrix a n le_rfl
  rw [hstate, Option.map_some] at hsweep
  exact GaussJordan.mul_eq_one_of_sweep hsweep

end Rows

end GameStreamer.Fec
