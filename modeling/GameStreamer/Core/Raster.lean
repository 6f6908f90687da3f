import Mathlib.Data.List.Basic
import Mathlib.Tactic.SplitIfs

/-!
# Drawing into a buffer

A drawing program stores values at computed addresses, in nested loops, and
stops at the first address out of range.  What it leaves behind is a picture,
a partial map from addresses to values, laid over the buffer that it found.
The pictures of the steps are put on top of one another in their order.
-/

namespace GameStreamer.Raster

universe u

variable {α : Type*}

/-! ## Pictures -/

abbrev Picture (α : Type*) := ℕ → Option α

namespace Picture

/-- One value at one address. -/
def dot (address : ℕ) (value : α) : Picture α :=
  fun i => if i = address then some value else none

/-- What shows when the one picture is put over the other. -/
def above (top bottom : Picture α) : Picture α :=
  fun i => (top i).or (bottom i)

/-- Layers on top of one another, the last of them on top. -/
def stack : ℕ → (ℕ → Picture α) → Picture α
  | 0, _ => fun _ => none
  | n + 1, layers => (layers n).above (stack n layers)

/-- Every address of the picture is an address of the buffer. -/
def Fits (picture : Picture α) (length : ℕ) : Prop :=
  ∀ i, (picture i).isSome → i < length

/-- The buffer with the picture over it. -/
def lay (picture : Picture α) (buf : List α) : List α :=
  buf.mapIdx fun i value => (picture i).getD value

@[simp]
theorem length_lay (picture : Picture α) (buf : List α) :
    (picture.lay buf).length = buf.length :=
  List.length_mapIdx

@[simp]
theorem getElem?_lay (picture : Picture α) (buf : List α) (i : ℕ) :
    (picture.lay buf)[i]? = buf[i]?.map fun value => (picture i).getD value :=
  List.getElem?_mapIdx

theorem lay_above (top bottom : Picture α) (buf : List α) :
    (top.above bottom).lay buf = top.lay (bottom.lay buf) := by
  apply List.ext_getElem?
  intro i
  rw [getElem?_lay, getElem?_lay, getElem?_lay, Option.map_map]
  apply congrArg (Option.map · buf[i]?)
  funext value
  unfold above
  cases top i <;> rfl

@[simp]
theorem lay_none (buf : List α) :
    lay (fun _ => none) buf = buf := by
  apply List.ext_getElem?
  intro i
  rw [getElem?_lay]
  exact Option.map_id' ..

/-- An address of the picture shows the picture. -/
theorem getElem?_lay_of_some {picture : Picture α} {buf : List α} {i : ℕ}
    {value : α} (hvalue : picture i = some value) (hrange : i < buf.length) :
    (picture.lay buf)[i]? = some value := by
  rw [getElem?_lay, List.getElem?_eq_getElem hrange, Option.map_some, hvalue,
    Option.getD_some]

theorem fits_above {top bottom : Picture α} {length : ℕ} :
    (top.above bottom).Fits length ↔ top.Fits length ∧ bottom.Fits length := by
  have habove : ∀ i, ((top.above bottom) i).isSome ↔
      (top i).isSome ∨ (bottom i).isSome := by
    intro i
    rw [above, Option.isSome_or, Bool.or_eq_true]
  unfold Fits
  simp only [habove, or_imp]
  exact forall_and

/-- A value that shows in a stack comes from one of the layers. -/
theorem mem_of_stack {n : ℕ} {layers : ℕ → Picture α} {i : ℕ} {value : α}
    (hvalue : stack n layers i = some value) :
    ∃ k < n, layers k i = some value := by
  induction n with
  | zero => cases hvalue
  | succ n ih =>
      rw [stack, above] at hvalue
      cases hlayer : layers n i with
      | none =>
          rw [hlayer, Option.none_or] at hvalue
          obtain ⟨k, hk, hlower⟩ := ih hvalue
          exact ⟨k, Nat.lt_succ_of_lt hk, hlower⟩
      | some top =>
          rw [hlayer, Option.some_or] at hvalue
          exact ⟨n, n.lt_succ_self, hlayer.trans hvalue⟩

theorem isSome_stack {n k : ℕ} {layers : ℕ → Picture α} {i : ℕ} (hk : k < n)
    (hlayer : (layers k i).isSome) : (stack n layers i).isSome := by
  induction n with
  | zero => exact absurd hk k.not_lt_zero
  | succ n ih =>
      rw [stack, above, Option.isSome_or, Bool.or_eq_true]
      rcases Nat.lt_succ_iff_lt_or_eq.mp hk with hlt | heq
      · exact Or.inr (ih hlt)
      · exact Or.inl (heq ▸ hlayer)

/-- A stack whose layers agree where they overlap shows each of them. -/
theorem stack_eq_some {n k : ℕ} {layers : ℕ → Picture α} {i : ℕ} {value : α}
    (hk : k < n) (hlayer : layers k i = some value)
    (hagree : ∀ other < n, ∀ shown, layers other i = some shown →
      shown = value) :
    stack n layers i = some value := by
  have hsome : (layers k i).isSome := by rw [hlayer]; rfl
  obtain ⟨shown, hshown⟩ :=
    Option.isSome_iff_exists.mp (isSome_stack hk hsome)
  obtain ⟨other, hother, hvalue⟩ := mem_of_stack hshown
  rw [hshown, hagree other hother shown hvalue]

end Picture

/-! ## Programs -/

/-- `buf[address] = value`; nothing for an address out of range. -/
def store (address : ℕ) (value : α) (buf : List α) : Option (List α) :=
  if address < buf.length then some (buf.set address value) else none

/-- `for k in 0..n { .. }`. -/
def forRange {σ : Type*} (n : ℕ) (body : ℕ → σ → Option σ) (state : σ) :
    Option σ :=
  (List.range n).foldlM (fun state k => body k state) state

section Loops

variable {σ τ : Type u}

@[simp]
theorem forRange_zero (body : ℕ → σ → Option σ) (state : σ) :
    forRange 0 body state = some state := rfl

theorem forRange_succ (n : ℕ) (body : ℕ → σ → Option σ) (state : σ) :
    forRange (n + 1) body state = forRange n body state >>= body n := by
  rw [forRange, List.range_succ, List.foldlM_append]
  apply bind_congr
  intro after
  exact bind_pure (body n after)

/-- Two bodies that agree in every round make one loop. -/
theorem forRange_congr {n : ℕ} {body other : ℕ → σ → Option σ}
    (heq : ∀ k < n, body k = other k) :
    forRange n body = forRange n other := by
  funext state
  induction n with
  | zero => rfl
  | succ n ih =>
      have hbefore := ih fun k hk => heq k (Nat.lt_succ_of_lt hk)
      rw [forRange_succ, forRange_succ, hbefore, heq n n.lt_succ_self]

/-- A step on each half of a pair. -/
def both (first : σ → Option σ) (second : τ → Option τ) (pair : σ × τ) :
    Option (σ × τ) := do
  let left ← first pair.1
  let right ← second pair.2
  some (left, right)

theorem both_bind (first first' : σ → Option σ)
    (second second' : τ → Option τ) (pair : σ × τ) :
    both first second pair >>= both first' second' =
      both (first · >>= first') (second · >>= second') pair := by
  simp only [both, Option.bind_eq_bind]
  cases first pair.1 with
  | none => rfl
  | some left =>
      cases second pair.2 with
      | none =>
          simp only [Option.bind_some, Option.bind_none]
          cases first' left <;> rfl
      | some right => rfl

/-- One loop over both halves of a pair is a loop over each. -/
theorem forRange_both (n : ℕ) (first : ℕ → σ → Option σ)
    (second : ℕ → τ → Option τ) :
    forRange n (fun k => both (first k) (second k)) =
      both (forRange n first) (forRange n second) := by
  funext pair
  induction n with
  | zero => rfl
  | succ n ih =>
      rw [forRange_succ, ih, both_bind]
      simp only [both, forRange_succ]

end Loops

/-- The program lays this picture over every buffer that holds it, and stops
on every other. -/
structure Draws (program : List α → Option (List α)) (picture : Picture α) :
    Prop where
  laid : ∀ {buf}, picture.Fits buf.length →
    program buf = some (picture.lay buf)
  stops : ∀ {buf}, ¬picture.Fits buf.length → program buf = none

theorem Draws.congr {program other : List α → Option (List α)}
    {picture : Picture α} (hdraws : Draws other picture)
    (heq : ∀ buf, program buf = other buf) : Draws program picture :=
  (funext heq : program = other) ▸ hdraws

theorem draws_store (address : ℕ) (value : α) :
    Draws (store address value) (Picture.dot address value) := by
  have hfits : ∀ length, (Picture.dot address value).Fits length ↔
      address < length := by
    intro length
    constructor
    · intro hfits
      apply hfits
      rw [Picture.dot, if_pos rfl]
      rfl
    · intro hrange i hi
      rw [Picture.dot] at hi
      split_ifs at hi with heq
      · exact heq ▸ hrange
      · cases hi
  constructor
  · intro buf hbuf
    rw [store, if_pos ((hfits _).mp hbuf), Option.some_inj]
    apply List.ext_getElem?
    intro i
    rw [Picture.getElem?_lay, List.getElem?_set', Picture.dot]
    by_cases heq : address = i
    · rw [if_pos heq, if_pos heq.symm]
      rfl
    · rw [if_neg heq, if_neg (Ne.symm heq)]
      exact (Option.map_id' ..).symm
  · intro buf hbuf
    rw [store, if_neg (mt (hfits _).mpr hbuf)]

theorem draws_nothing : Draws (α := α) some fun _ => none := by
  constructor
  · intro buf _
    rw [Picture.lay_none]
  · intro buf hbuf
    exact absurd (fun i hi => absurd hi Bool.false_ne_true) hbuf

theorem Draws.seq {first second : List α → Option (List α)}
    {bottom top : Picture α} (hfirst : Draws first bottom)
    (hsecond : Draws second top) :
    Draws (fun buf => first buf >>= second) (top.above bottom) := by
  constructor
  · intro buf hbuf
    obtain ⟨htop, hbottom⟩ := Picture.fits_above.mp hbuf
    have hlength := Picture.length_lay bottom buf
    rw [hfirst.laid hbottom, Option.bind_eq_bind, Option.bind_some,
      hsecond.laid (hlength ▸ htop), Picture.lay_above]
  · intro buf hbuf
    rw [Picture.fits_above, not_and_or] at hbuf
    by_cases hbottom : bottom.Fits buf.length
    · have hlength := Picture.length_lay bottom buf
      have htop := hbuf.resolve_right (not_not_intro hbottom)
      rw [hfirst.laid hbottom, Option.bind_eq_bind, Option.bind_some]
      exact hsecond.stops (hlength ▸ htop)
    · rw [hfirst.stops hbottom]
      rfl

/-- A loop draws the pictures of its rounds on top of one another. -/
theorem Draws.forRange {n : ℕ} {body : ℕ → List α → Option (List α)}
    {layers : ℕ → Picture α} (hbody : ∀ k < n, Draws (body k) (layers k)) :
    Draws (forRange n body) (Picture.stack n layers) := by
  induction n with
  | zero => exact draws_nothing
  | succ n ih =>
      have hbefore := ih fun k hk => hbody k (Nat.lt_succ_of_lt hk)
      apply (hbefore.seq (hbody n n.lt_succ_self)).congr
      exact forRange_succ n body

/-! ## Row by row -/

/-- The picture of a nested loop over rows and columns. -/
def grid (rows cols width : ℕ) (value : ℕ → ℕ → α) : Picture α :=
  .stack rows fun row => .stack cols fun col =>
    .dot (row * width + col) (value row col)

theorem eq_of_dot {address i : ℕ} {value shown : α}
    (h : Picture.dot address value i = some shown) :
    i = address ∧ shown = value := by
  rw [Picture.dot] at h
  split_ifs at h with heq
  exact ⟨heq, (Option.some.inj h).symm⟩

/-- A cell of a row-major buffer has one row and one column. -/
theorem cell_unique {width row row' col col' : ℕ} (hcol : col < width)
    (hcol' : col' < width) (heq : row * width + col = row' * width + col') :
    row = row' ∧ col = col' := by
  have hpos : 0 < width := Nat.zero_lt_of_lt hcol
  have hdiv := congrArg (· / width) heq
  have hmod := congrArg (· % width) heq
  simp only [Nat.mul_comm _ width, Nat.mul_add_div hpos, Nat.mul_add_mod,
    Nat.div_eq_of_lt hcol, Nat.div_eq_of_lt hcol', Nat.mod_eq_of_lt hcol,
    Nat.mod_eq_of_lt hcol', Nat.add_zero] at hdiv hmod
  exact ⟨hdiv, hmod⟩

theorem cell_of_grid {rows cols width : ℕ} {value : ℕ → ℕ → α} {i : ℕ}
    {shown : α} (h : grid rows cols width value i = some shown) :
    ∃ row < rows, ∃ col < cols,
      i = row * width + col ∧ shown = value row col := by
  obtain ⟨row, hrow, hline⟩ := Picture.mem_of_stack h
  obtain ⟨col, hcol, hdot⟩ := Picture.mem_of_stack hline
  exact ⟨row, hrow, col, hcol, eq_of_dot hdot⟩

/-- A nested loop leaves in each cell what it computed for that cell. -/
theorem grid_cell {rows cols width row col : ℕ} {value : ℕ → ℕ → α}
    (hwidth : cols ≤ width) (hrow : row < rows) (hcol : col < cols) :
    grid rows cols width value (row * width + col) = some (value row col) := by
  have hdot : Picture.dot (row * width + col) (value row col)
      (row * width + col) = some (value row col) := if_pos rfl
  have hunique : ∀ row' col', col' < cols →
      row * width + col = row' * width + col' → row = row' ∧ col = col' :=
    fun _ _ hcol' =>
      cell_unique (Nat.lt_of_lt_of_le hcol hwidth)
      (Nat.lt_of_lt_of_le hcol' hwidth)
  apply Picture.stack_eq_some hrow
  · apply Picture.stack_eq_some hcol hdot
    intro col' hcol' shown hshown
    obtain ⟨heq, rfl⟩ := eq_of_dot hshown
    rw [← (hunique row col' hcol' heq).2]
  · intro row' _ shown hshown
    obtain ⟨col', hcol', hdot'⟩ := Picture.mem_of_stack hshown
    obtain ⟨heq, rfl⟩ := eq_of_dot hdot'
    obtain ⟨rfl, rfl⟩ := hunique row' col' hcol' heq
    rfl

/-- The rows of a buffer of this size hold a whole grid. -/
theorem grid_fits {rows cols width length : ℕ} {value : ℕ → ℕ → α}
    (hwidth : cols ≤ width) (hlength : rows * width ≤ length) :
    (grid rows cols width value).Fits length := by
  intro i hi
  obtain ⟨shown, hshown⟩ := Option.isSome_iff_exists.mp hi
  obtain ⟨row, hrow, col, hcol, rfl, -⟩ := cell_of_grid hshown
  calc row * width + col < row * width + width := by omega
    _ = (row + 1) * width := by rw [Nat.add_mul, Nat.one_mul]
    _ ≤ rows * width := Nat.mul_le_mul_right width hrow
    _ ≤ length := hlength

theorem draws_grid {rows cols width : ℕ} {value : ℕ → ℕ → α}
    {body : ℕ → ℕ → List α → Option (List α)}
    (hbody : ∀ row < rows, ∀ col < cols, ∀ buf,
      body row col buf = store (row * width + col) (value row col) buf) :
    Draws (forRange rows fun row => forRange cols fun col => body row col)
      (grid rows cols width value) := by
  apply Draws.forRange
  intro row hrow
  apply Draws.forRange
  intro col hcol
  apply (draws_store _ _).congr
  exact hbody row hrow col hcol

end GameStreamer.Raster
