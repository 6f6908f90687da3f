import GameStreamer.Fec.Inversion

/-!
# Inversion in place

`invert` updates single bytes of both matrices in nested loops.  Each loop
does to a whole row or to all rows what `Rows` says, since what it reads lies
outside of what it has written: the factor of a row is read before the row is
changed, and the pivot row is not changed while the others are.
-/

namespace GameStreamer.Fec.Rows

variable {n : ℕ}

/-- `a[r][j] = x`. -/
def put (a : Rows n) (r j : Fin n) (x : UInt8) : Rows n :=
  a.set r ((a.get r).set j x j.isLt) r.isLt

/-- `for j in 0..n`: row `col` of both matrices times the pivot's inverse. -/
def scaleLoop (state : Rows n × Rows n) (col : Fin n) (pivInv : UInt8) :
    Rows n × Rows n :=
  (List.finRange n).foldl
    (fun state j =>
      (state.1.put col j (mul (state.1.entry col j) pivInv),
        state.2.put col j (mul (state.2.entry col j) pivInv)))
    state

/-- `for j in 0..n`: row `col` of both matrices, times `f`, taken from
row `r`. -/
def clearRow (state : Rows n × Rows n) (col r : Fin n) (f : UInt8) :
    Rows n × Rows n :=
  (List.finRange n).foldl
    (fun state j =>
      let arj := mul f (state.1.entry col j)
      let irj := mul f (state.2.entry col j)
      (state.1.put r j (state.1.entry r j ^^^ arj),
        state.2.put r j (state.2.entry r j ^^^ irj)))
    state

/-- `for r in 0..n`: every other row with a factor is cleared. -/
def clearRows (state : Rows n × Rows n) (col : Fin n) : Rows n × Rows n :=
  (List.finRange n).foldl
    (fun state r =>
      if r ≠ col ∧ state.1.entry r col ≠ 0 then
        clearRow state col r (state.1.entry r col)
      else state)
    state

/-- The body of `for col in 0..n`; nothing without a pivot. -/
def columnLoop (state : Rows n × Rows n) (col : Fin n) :
    Option (Rows n × Rows n) := do
  let row ← state.1.pivot col
  let state := (state.1.swap col row, state.2.swap col row)
  let pivInv := inv (state.1.entry col col)
  some (clearRows (scaleLoop state col pivInv) col)

/-- Gauss-Jordan inverse, in place; nothing if singular. -/
def invertInPlace (a : Rows n) : Option (Rows n) := do
  let state ← (List.finRange n).foldlM columnLoop (a, identity)
  some state.2

/-! ## Entries -/

@[ext]
theorem ext_entry {a b : Rows n} (h : ∀ r j, a.entry r j = b.entry r j) :
    a = b := by
  apply Vector.ext
  intro r hr
  apply Vector.ext
  intro j hj
  exact h ⟨r, hr⟩ ⟨j, hj⟩

theorem entry_put (a : Rows n) (r j : Fin n) (x : UInt8) (r' j' : Fin n) :
    (a.put r j x).entry r' j' =
      if r' = r ∧ j' = j then x else a.entry r' j' := by
  by_cases hr : r' = r
  · subst hr
    by_cases hj : j' = j
    · subst hj
      simp [put, entry]
    · have hne : (j : ℕ) ≠ j' := fun h => hj (Fin.ext h.symm)
      have hrow : a.get r' = a[r'] := rfl
      simp [put, entry, hj, hne, hrow]
  · have hne : (r : ℕ) ≠ r' := fun h => hr (Fin.ext h.symm)
    simp [put, entry, hr, hne]

/-! ## The loops over a row -/

/-- Two independent states are looped over one by one. -/
theorem foldl_pair {A B C : Type*} (f : A → C → A) (g : B → C → B)
    (l : List C) (state : A × B) :
    l.foldl (fun state c => (f state.1 c, g state.2 c)) state =
      (l.foldl f state.1, l.foldl g state.2) := by
  induction l generalizing state with
  | nil => rfl
  | cons c l ih => exact ih _

/-- A loop along row `r` whose values do not depend on the other entries of
the row writes what it would write at once. -/
theorem entry_foldl_put {r : Fin n} {value : Rows n → Fin n → UInt8}
    (hvalue : ∀ (a : Rows n) (j j' : Fin n) (x : UInt8), j' ≠ j →
      value (a.put r j' x) j = value a j)
    {l : List (Fin n)} (hnodup : l.Nodup) (a : Rows n) (r' j' : Fin n) :
    (l.foldl (fun a j => a.put r j (value a j)) a).entry r' j' =
      if r' = r ∧ j' ∈ l then value a j' else a.entry r' j' := by
  induction l generalizing a with
  | nil => simp
  | cons j l ih =>
      obtain ⟨hnotin, hrest⟩ := List.nodup_cons.mp hnodup
      rw [List.foldl_cons, ih hrest]
      by_cases hr : r' = r
      · by_cases hin : j' ∈ l
        · have hne : j ≠ j' := fun h => hnotin (h ▸ hin)
          rw [if_pos ⟨hr, hin⟩, hvalue _ _ _ _ hne,
            if_pos ⟨hr, List.mem_cons_of_mem _ hin⟩]
        · by_cases hj : j' = j
          · subst hj
            simp [entry_put, hr, hin]
          · simp [entry_put, hr, hin, hj]
      · simp [entry_put, hr]

theorem scaleLoop_eq (state : Rows n × Rows n) (col : Fin n)
    (pivInv : UInt8) :
    scaleLoop state col pivInv =
      (state.1.scale col pivInv, state.2.scale col pivInv) := by
  have hloop : ∀ a : Rows n, (List.finRange n).foldl
      (fun a j => a.put col j (mul (a.entry col j) pivInv)) a =
        a.scale col pivInv := by
    intro a
    ext r j
    rw [entry_foldl_put (fun a j j' x hne => by simp [entry_put, hne.symm])
      (List.nodup_finRange n), scale, entry_build]
    by_cases hr : r = col
    · simp [hr]
    · simp [hr]
  exact (foldl_pair _ _ _ state).trans
    (congrArg₂ Prod.mk (hloop state.1) (hloop state.2))

/-- Row `r` of `m` with row `col`, times `f`, taken from it. -/
def subtractRow (m : Rows n) (col r : Fin n) (f : UInt8) : Rows n :=
  build fun r' j =>
    if r' = r then m.entry r j ^^^ mul f (m.entry col j) else m.entry r' j

/-- The row that is subtracted is another one, so the loop does not change
it. -/
theorem clearRow_eq (state : Rows n × Rows n) {col r : Fin n} (hne : r ≠ col)
    (f : UInt8) :
    clearRow state col r f =
      (state.1.subtractRow col r f, state.2.subtractRow col r f) := by
  have hloop : ∀ m : Rows n, (List.finRange n).foldl
      (fun m j => m.put r j (m.entry r j ^^^ mul f (m.entry col j))) m =
        m.subtractRow col r f := by
    intro m
    ext r' j
    rw [entry_foldl_put
      (fun m j j' x hj => by simp [entry_put, hj.symm, hne.symm])
      (List.nodup_finRange n), subtractRow, entry_build]
    simp
  exact (foldl_pair _ _ _ state).trans
    (congrArg₂ Prod.mk (hloop state.1) (hloop state.2))

/-! ## The loop over the rows -/

/-- The rows of `m` in the list that have a factor in `a`, cleared. -/
def eliminateIn (a m : Rows n) (col : Fin n) (rows : List (Fin n)) : Rows n :=
  build fun r j =>
    if r ∈ rows ∧ r ≠ col ∧ a.entry r col ≠ 0 then
      m.entry r j ^^^ mul (a.entry r col) (m.entry col j)
    else m.entry r j

/-- A row is cleared on its own, before or after the others. -/
theorem eliminateIn_cons (a m : Rows n) {col r : Fin n} {rows : List (Fin n)}
    (hnotin : r ∉ rows) (hne : r ≠ col) (hfactor : a.entry r col ≠ 0) :
    eliminateIn (a.subtractRow col r (a.entry r col))
        (m.subtractRow col r (a.entry r col)) col rows =
      eliminateIn a m col (r :: rows) := by
  ext r' j
  by_cases hr : r' = r
  · subst hr
    simp [eliminateIn, subtractRow, hnotin, hne, hfactor]
  · simp [eliminateIn, subtractRow, hr, hne.symm]

theorem eliminateIn_cons_of_skip (a m : Rows n) {col r : Fin n}
    (rows : List (Fin n)) (hskip : ¬(r ≠ col ∧ a.entry r col ≠ 0)) :
    eliminateIn a m col (r :: rows) = eliminateIn a m col rows := by
  ext r' j
  by_cases hr : r' = r
  · subst hr
    simp [eliminateIn, hskip]
  · simp [eliminateIn, hr]

theorem foldl_clearRow {col : Fin n} {rows : List (Fin n)}
    (hnodup : rows.Nodup) (state : Rows n × Rows n) :
    rows.foldl
        (fun state r =>
          if r ≠ col ∧ state.1.entry r col ≠ 0 then
            clearRow state col r (state.1.entry r col)
          else state) state =
      (eliminateIn state.1 state.1 col rows,
        eliminateIn state.1 state.2 col rows) := by
  induction rows generalizing state with
  | nil =>
      have hnone : ∀ m : Rows n, eliminateIn state.1 m col [] = m := by
        intro m
        ext r j
        simp [eliminateIn]
      rw [List.foldl_nil, hnone, hnone]
  | cons r rows ih =>
      obtain ⟨hnotin, hrest⟩ := List.nodup_cons.mp hnodup
      rw [List.foldl_cons]
      split
      case isTrue h =>
          rw [ih hrest, clearRow_eq state h.1]
          dsimp only
          rw [eliminateIn_cons _ _ hnotin h.1 h.2,
            eliminateIn_cons _ _ hnotin h.1 h.2]
      case isFalse h =>
          rw [ih hrest, eliminateIn_cons_of_skip _ _ _ h,
            eliminateIn_cons_of_skip _ _ _ h]

theorem clearRows_eq (state : Rows n × Rows n) (col : Fin n) :
    clearRows state col =
      (eliminate state.1 state.1 col, eliminate state.1 state.2 col) := by
  have hall : ∀ m : Rows n,
      eliminateIn state.1 m col (List.finRange n) =
        eliminate state.1 m col := by
    intro m
    ext r j
    simp [eliminateIn, eliminate]
  rw [clearRows, foldl_clearRow (List.nodup_finRange n), hall, hall]

/-! ## The loop over the columns -/

theorem columnLoop_eq (state : Rows n × Rows n) (col : Fin n) :
    columnLoop state col =
      (pivot state.1 col).map fun row => clearColumn state col row := by
  rw [columnLoop]
  cases pivot state.1 col with
  | none => rfl
  | some row =>
      simp only [Option.bind_eq_bind, Option.bind_some, Option.map_some,
        scaleLoop_eq, clearRows_eq, clearColumn]

theorem foldlM_columnLoop (a : Rows n) {count : ℕ} (hle : count ≤ n) :
    ((List.finRange n).take count).foldlM columnLoop (a, identity) =
      sweep a count hle := by
  induction count with
  | zero => rfl
  | succ count ih =>
      have hlt : count < (List.finRange n).length := by
        rw [List.length_finRange]
        exact hle
      have hcol : (List.finRange n)[count] = ⟨count, hle⟩ := by simp
      rw [List.take_succ_eq_append_getElem hlt, List.foldlM_append,
        ih (Nat.le_of_succ_le hle), sweep, hcol]
      cases sweep a count (Nat.le_of_succ_le hle) with
      | none => rfl
      | some state =>
          simp only [Option.bind_eq_bind, Option.bind_some, List.foldlM_cons,
            List.foldlM_nil]
          rw [columnLoop_eq]
          cases pivot state.1 ⟨count, hle⟩ <;> rfl

/-- The loops compute the sweep. -/
theorem invertInPlace_eq (a : Rows n) : a.invertInPlace = a.invert := by
  have hfull : (List.finRange n).take n = List.finRange n :=
    List.take_of_length_le (List.length_finRange).le
  have hloop := foldlM_columnLoop a (le_refl n)
  rw [hfull] at hloop
  rw [invertInPlace, hloop, invert]
  cases sweep a n le_rfl <;> rfl

/-- Inversion in place is correct: for every size it answers exactly on the
nonsingular matrices, and its answer is the inverse on either side. -/
theorem invertInPlace_correct (a : Rows n) :
    (a.toMatrix.det ≠ 0 → ∃ b, a.invertInPlace = some b ∧
        a.toMatrix * b.toMatrix = 1 ∧ b.toMatrix * a.toMatrix = 1) ∧
      (a.toMatrix.det = 0 → a.invertInPlace = none) := by
  rw [invertInPlace_eq]
  constructor
  · intro hdet
    obtain ⟨b, hb⟩ := Option.isSome_iff_exists.mp
      (a.invert_isSome_iff.mpr hdet)
    have hleft := invert_mul hb
    exact ⟨b, hb, mul_eq_one_comm.mp hleft, hleft⟩
  · intro hdet
    rw [← Option.not_isSome_iff_eq_none, invert_isSome_iff]
    exact not_not.mpr hdet

end GameStreamer.Fec.Rows
