import GameStreamer.Core.Tiling

/-!
# Computations that may panic

A value that a debug build computes is `some`, and a panic is `none`: an index
out of range, an overflow, an `expect` on nothing or a failed assertion.  The
rules take a loop whose steps do not panic to the loop without the checks, so
that results on the latter carry over.
-/

namespace GameStreamer.Checked

variable {α β : Type*}

/-- The most bytes of an allocation on a 64-bit target, `isize::MAX`. -/
def maxCapacity : ℕ := 2 ^ 63 - 1

/-- `assert!`. -/
def ensure (condition : Prop) [Decidable condition] : Option Unit :=
  if condition then some () else none

/-- `Vec::with_capacity`. -/
def reserve (capacity : ℕ) : Option Unit := ensure (capacity ≤ maxCapacity)

/-- `a - b` on `usize`. -/
def sub (a b : ℕ) : Option ℕ := if b ≤ a then some (a - b) else none

/-- `a + 1` on `u16`. -/
def succ16 (a : UInt16) : Option UInt16 :=
  if a.toNat + 1 < 2 ^ 16 then some (a + 1) else none

/-- `&l[start..start + len]`. -/
def slice (start len : ℕ) (l : List α) : Option (List α) :=
  if start + len ≤ l.length then some (Tiling.slice start len l) else none

/-- `l[i] = a`. -/
def set (l : List α) (i : ℕ) (a : α) : Option (List α) :=
  if i < l.length then some (l.set i a) else none

section Steps

variable {condition : Prop} [Decidable condition]

theorem ensure_of (h : condition) : ensure condition = some () := if_pos h

theorem sub_of_le {a b : ℕ} (h : b ≤ a) : sub a b = some (a - b) := if_pos h

theorem slice_of_le {start len : ℕ} {l : List α}
    (h : start + len ≤ l.length) :
    slice start len l = some (Tiling.slice start len l) := if_pos h

theorem set_of_lt {l : List α} {i : ℕ} (h : i < l.length) (a : α) :
    set l i a = some (l.set i a) := if_pos h

theorem succ16_of_lt {a : UInt16} (h : a.toNat + 1 < 2 ^ 16) :
    succ16 a = some (a + 1) := if_pos h

end Steps

/-! ## Loops -/

/-- A loop whose steps go through under an invariant that they keep. -/
theorem foldlM_eq {inv : β → Prop} {step : β → α → Option β}
    {plain : β → α → β} {l : List α}
    (hstep : ∀ state, inv state → ∀ a ∈ l, step state a = some (plain state a))
    (hinv : ∀ state, inv state → ∀ a ∈ l, inv (plain state a))
    {init : β} (hinit : inv init) :
    l.foldlM step init = some (l.foldl plain init) := by
  induction l generalizing init with
  | nil => rfl
  | cons a l ih =>
      rw [List.foldlM_cons, hstep init hinit a List.mem_cons_self]
      exact ih (fun state h b hb => hstep state h b (List.mem_cons_of_mem _ hb))
        (fun state h b hb => hinv state h b (List.mem_cons_of_mem _ hb))
        (hinv init hinit a List.mem_cons_self)

theorem mapM_eq {f : α → Option β} {plain : α → β} {l : List α}
    (h : ∀ a ∈ l, f a = some (plain a)) : l.mapM f = some (l.map plain) := by
  induction l with
  | nil => rfl
  | cons a l ih =>
      rw [List.mapM_cons, h a List.mem_cons_self,
        ih fun b hb => h b (List.mem_cons_of_mem _ hb)]
      rfl

theorem mapM_congr {f g : α → Option β} {l : List α}
    (h : ∀ a ∈ l, f a = g a) : l.mapM f = l.mapM g := by
  induction l with
  | nil => rfl
  | cons a l ih =>
      rw [List.mapM_cons, List.mapM_cons, h a List.mem_cons_self,
        ih fun b hb => h b (List.mem_cons_of_mem _ hb)]

/-- `all`, which stops at the first element that fails. -/
theorem allM_eq {f : α → Option Bool} {plain : α → Bool} {l : List α}
    (h : ∀ a ∈ l, f a = some (plain a)) : l.allM f = some (l.all plain) := by
  induction l with
  | nil => rfl
  | cons a l ih =>
      have hrest := ih fun b hb => h b (List.mem_cons_of_mem _ hb)
      rw [List.allM_cons, h a List.mem_cons_self, List.all_cons]
      cases plain a with
      | false => rfl
      | true => exact hrest

end GameStreamer.Checked
