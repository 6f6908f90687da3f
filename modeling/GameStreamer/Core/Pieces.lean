import Mathlib.Data.List.Basic

/-!
# Streams in pieces

A reliable ordered stream hands its elements over in pieces of any sizes.  A
reader that asks for a number of elements takes as many pieces as it needs, so
what it reads depends on the stream alone and not on how it was split.  A
consumer that takes the pieces one after another does not see how the stream
was split either, if two pieces make no difference to their concatenation.
-/

namespace GameStreamer.Pieces

variable {α : Type*}

/-- Read `count` elements; nothing where the stream ends before. -/
def readExact : (count : ℕ) → List (List α) → Option (List α × List (List α))
  | 0, pieces => some ([], pieces)
  | _ + 1, [] => none
  | count + 1, piece :: pieces =>
      if count + 1 ≤ piece.length then
        some (piece.take (count + 1), piece.drop (count + 1) :: pieces)
      else
        (readExact (count + 1 - piece.length) pieces).map fun (front, rest) =>
          (piece ++ front, rest)

/-- Where the stream is long enough, its front is read and the rest is left. -/
theorem readExact_of_le {count : ℕ} {pieces : List (List α)}
    (h : count ≤ pieces.flatten.length) :
    ∃ rest, readExact count pieces = some (pieces.flatten.take count, rest) ∧
      rest.flatten = pieces.flatten.drop count := by
  induction pieces generalizing count with
  | nil =>
      obtain rfl := Nat.le_zero.mp h
      exact ⟨[], rfl, rfl⟩
  | cons piece pieces ih =>
      cases count with
      | zero => exact ⟨piece :: pieces, rfl, rfl⟩
      | succ count =>
          rw [readExact]
          split_ifs with hpiece
          · refine ⟨piece.drop (count + 1) :: pieces, ?_, ?_⟩
            · rw [List.flatten_cons, List.take_append_of_le_length hpiece]
            · rw [List.flatten_cons, List.flatten_cons,
                List.drop_append_of_le_length hpiece]
          · have hlong : piece.length ≤ count + 1 := by omega
            have hleft : count + 1 - piece.length ≤ pieces.flatten.length := by
              rw [List.flatten_cons, List.length_append] at h
              omega
            obtain ⟨rest, hread, hrest⟩ := ih hleft
            refine ⟨rest, ?_, ?_⟩
            · rw [hread, Option.map_some, List.flatten_cons, List.take_append,
                List.take_of_length_le hlong]
            · rw [hrest, List.flatten_cons, List.drop_append,
                List.drop_eq_nil_of_le hlong, List.nil_append]

theorem readExact_of_lt {count : ℕ} {pieces : List (List α)}
    (h : pieces.flatten.length < count) : readExact count pieces = none := by
  induction pieces generalizing count with
  | nil =>
      cases count with
      | zero => exact absurd h (Nat.not_lt_zero _)
      | succ count => rfl
  | cons piece pieces ih =>
      rw [List.flatten_cons, List.length_append] at h
      cases count with
      | zero => exact absurd h (Nat.not_lt_zero _)
      | succ count =>
          rw [readExact, if_neg (by omega), ih (by omega), Option.map_none]

/-- A consumer for which a piece in two parts is one piece takes any pieces
like the whole stream. -/
theorem foldlM_eq_flatten {State : Type*}
    {step : State → List α → Option State} {inv : State → Prop}
    (hnil : ∀ state, step state [] = some state)
    (happend : ∀ state, inv state → ∀ front rest,
      step state (front ++ rest) =
        (step state front).bind fun after => step after rest)
    (hinv : ∀ state piece after, inv state → step state piece = some after →
      inv after)
    {state : State} (h : inv state) (pieces : List (List α)) :
    pieces.foldlM step state = step state pieces.flatten := by
  induction pieces generalizing state with
  | nil => exact (hnil state).symm
  | cons piece pieces ih =>
      rw [List.foldlM_cons, List.flatten_cons, happend state h]
      cases hstep : step state piece with
      | none => rfl
      | some after => exact ih (hinv state piece after h hstep)

end GameStreamer.Pieces
