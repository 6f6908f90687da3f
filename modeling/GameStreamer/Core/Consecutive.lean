import Mathlib.Algebra.BigOperators.Group.List.Basic
import Mathlib.Algebra.Order.Group.Unbundled.Basic
import Mathlib.Data.List.Chain

/-!
# Neighbours in a list

A log that reports how each entry differs from the one before it is the list
of values of a function on the neighbours of another list.  This file collects
how such a list grows, what its differences add up to, and how far a list
reaches whose neighbours keep a distance.
-/

namespace GameStreamer.Consecutive

variable {α β : Type*}

/-- The values of `f` on the neighbours of a list. -/
def neighbours (f : α → α → β) (values : List α) : List β :=
  List.zipWith f values values.tail

@[simp]
theorem neighbours_nil (f : α → α → β) : neighbours f [] = [] := rfl

@[simp]
theorem neighbours_singleton (f : α → α → β) (value : α) :
    neighbours f [value] = [] := rfl

@[simp]
theorem neighbours_cons_cons (f : α → α → β) (first second : α)
    (rest : List α) :
    neighbours f (first :: second :: rest) =
      f first second :: neighbours f (second :: rest) := rfl

theorem length_neighbours (f : α → α → β) (values : List α) :
    (neighbours f values).length = values.length - 1 := by
  rw [neighbours, List.length_zipWith, List.length_tail]
  exact Nat.min_eq_right (Nat.sub_le _ _)

/-- A new last entry adds its difference from the previous one. -/
theorem neighbours_concat (f : α → α → β) (values : List α) (last : α) :
    neighbours f (values ++ [last]) =
      neighbours f values ++
        (values.getLast?.map fun previous => f previous last).toList := by
  induction values with
  | nil => rfl
  | cons first rest ih =>
      cases rest with
      | nil => rfl
      | cons second rest =>
          rw [List.cons_append, List.cons_append, neighbours_cons_cons,
            neighbours_cons_cons, ← List.cons_append, ih,
            List.getLast?_cons_cons, List.cons_append]

/-- A relation between all neighbours passes to the reported values. -/
theorem forall_mem_neighbours {R : α → α → Prop} {P : β → Prop}
    {f : α → α → β} {values : List α} (hchain : List.IsChain R values)
    (hstep : ∀ previous value, R previous value → P (f previous value)) :
    ∀ reported ∈ neighbours f values, P reported := by
  induction hchain with
  | nil => exact fun _ hmem => absurd hmem List.not_mem_nil
  | singleton => exact fun _ hmem => absurd hmem List.not_mem_nil
  | cons_cons hfirst _ ih =>
      intro reported hmem
      rcases List.mem_cons.mp hmem with rfl | hrest
      · exact hstep _ _ hfirst
      · exact ih reported hrest

/-- Differences telescope. -/
theorem sum_map_neighbours {M : Type*} [AddCommGroup M] {f : α → α → β}
    (measure : α → M) (delta : β → M)
    (hdelta : ∀ previous value,
      delta (f previous value) = measure value - measure previous)
    (first : α) (rest : List α) :
    ((neighbours f (first :: rest)).map delta).sum =
      measure ((first :: rest).getLast (List.cons_ne_nil _ _))
        - measure first := by
  induction rest generalizing first with
  | nil => simp
  | cons second rest ih =>
      rw [neighbours_cons_cons, List.map_cons, List.sum_cons, ih, hdelta,
        List.getLast_cons_cons]
      exact sub_add_sub_cancel' _ _ _

/-- Neighbours that keep a distance spread the list out. -/
theorem add_length_mul_le_getLast {measure : α → ℕ} {distance : ℕ}
    {first : α} {rest : List α}
    (hchain : List.IsChain
      (fun previous value => measure previous + distance ≤ measure value)
      (first :: rest)) :
    measure first + rest.length * distance ≤
      measure ((first :: rest).getLast (List.cons_ne_nil _ _)) := by
  induction rest generalizing first with
  | nil => simp
  | cons second rest ih =>
      rw [List.isChain_cons_cons] at hchain
      have hrest := ih hchain.2
      rw [List.getLast_cons_cons, List.length_cons, Nat.succ_mul]
      have hfirst := hchain.1
      omega

end GameStreamer.Consecutive
