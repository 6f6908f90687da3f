import Mathlib.Data.List.Chain
import Mathlib.Data.Nat.Basic

/-!
# Numbering a stream of attempts

A counter advances with every attempt, and only some attempts produce an item,
which carries the number of its attempt.  The items are numbered without a
hole exactly when no failed attempt lies between two successful ones: failures
at the start or the end of the stream leave none.
-/

namespace GameStreamer.ConsecutiveIds

/-- Each number is the successor of the one before it. -/
def Consecutive (ids : List ℕ) : Prop :=
  ids.IsChain fun id next => next = id + 1

instance (ids : List ℕ) : Decidable (Consecutive ids) :=
  inferInstanceAs (Decidable (List.IsChain _ _))

theorem consecutive_range' (next count : ℕ) :
    Consecutive (List.range' next count) :=
  List.isChain_range' next count 1

/-- The numbers of the successful attempts, counted from `next` on. -/
def idsFrom : ℕ → List Bool → List ℕ
  | _, [] => []
  | next, true :: outcomes => next :: idsFrom (next + 1) outcomes
  | next, false :: outcomes => idsFrom (next + 1) outcomes

theorem le_of_mem_idsFrom {id next : ℕ} {outcomes : List Bool}
    (h : id ∈ idsFrom next outcomes) : next ≤ id := by
  induction outcomes generalizing next with
  | nil => cases h
  | cons outcome outcomes ih =>
      cases outcome with
      | true =>
          rcases List.mem_cons.mp h with rfl | hrest
          · exact le_refl _
          · exact Nat.le_of_succ_le (ih hrest)
      | false => exact Nat.le_of_succ_le (ih h)

theorem idsFrom_eq_nil_iff (next : ℕ) (outcomes : List Bool) :
    idsFrom next outcomes = [] ↔ true ∉ outcomes := by
  induction outcomes generalizing next with
  | nil => simp [idsFrom]
  | cons outcome outcomes ih =>
      cases outcome with
      | true => simp [idsFrom]
      | false => simpa [idsFrom] using ih (next + 1)

/-- After a success, a hole needs a failure and another success. -/
theorem consecutive_cons_idsFrom (next : ℕ) (outcomes : List Bool) :
    Consecutive (next :: idsFrom (next + 1) outcomes) ↔
      ¬[false, true].Sublist outcomes := by
  induction outcomes generalizing next with
  | nil => simp [Consecutive, idsFrom]
  | cons outcome outcomes ih =>
      cases outcome with
      | true =>
          have hskip : [false, true].Sublist (true :: outcomes) ↔
              [false, true].Sublist outcomes := by
            simp [List.sublist_cons_iff]
          rw [hskip, ← ih (next + 1), idsFrom, Consecutive,
            List.isChain_cons_cons, and_iff_right rfl]
          rfl
      | false =>
          have hlater : [false, true].Sublist (false :: outcomes) ↔
              true ∈ outcomes := by
            rw [List.cons_sublist_cons, List.singleton_sublist]
          rw [hlater, idsFrom]
          constructor
          · intro hchain hmem
            have hne : idsFrom (next + 1 + 1) outcomes ≠ [] := by
              rw [Ne, idsFrom_eq_nil_iff]
              exact not_not.mpr hmem
            obtain ⟨id, ids, hids⟩ := List.exists_cons_of_ne_nil hne
            have hge : next + 1 + 1 ≤ id :=
              le_of_mem_idsFrom (hids ▸ List.mem_cons_self)
            rw [hids, Consecutive, List.isChain_cons_cons] at hchain
            exact absurd hchain.1 (by omega)
          · intro hmem
            rw [(idsFrom_eq_nil_iff _ _).mpr hmem]
            exact List.isChain_singleton _

/-- The numbers have no hole exactly when no failure lies between two
successes. -/
theorem consecutive_idsFrom_iff (next : ℕ) (outcomes : List Bool) :
    Consecutive (idsFrom next outcomes) ↔
      ¬[true, false, true].Sublist outcomes := by
  induction outcomes generalizing next with
  | nil => simp [Consecutive, idsFrom]
  | cons outcome outcomes ih =>
      cases outcome with
      | true =>
          rw [List.cons_sublist_cons, ← consecutive_cons_idsFrom next]
          rfl
      | false =>
          have hskip : [true, false, true].Sublist (false :: outcomes) ↔
              [true, false, true].Sublist outcomes := by
            simp [List.sublist_cons_iff]
          rw [hskip, ← ih (next + 1)]
          rfl

end GameStreamer.ConsecutiveIds
