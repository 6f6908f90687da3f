import Mathlib.Data.List.Basic
import Mathlib.Data.List.InsertIdx
import Mathlib.Data.List.Induction

/-!
# Windows on a sorted log

A log that keeps only its last entries inserts each newcomer behind the last
entry that is not after it, and then drops entries from the front.  Provided
that the relation orders the entries, the log always holds the end of the
sorted list of everything that ever came in.
-/

namespace GameStreamer.SortedWindow

variable {α : Type*} (r : α → α → Prop) [DecidableRel r]

/-- Insert behind the last entry that is not after the newcomer. -/
def insertSorted (newcomer : α) : List α → List α
  | [] => [newcomer]
  | entry :: entries =>
      if ∃ other ∈ entry :: entries, r other newcomer then
        entry :: insertSorted newcomer entries
      else newcomer :: entry :: entries

theorem insertSorted_of_forall {newcomer : α} {entries : List α}
    (hentries : ∀ other ∈ entries, ¬r other newcomer) :
    insertSorted r newcomer entries = newcomer :: entries := by
  cases entries with
  | nil => rfl
  | cons entry entries =>
      rw [insertSorted, if_neg]
      rintro ⟨other, hother, hr⟩
      exact hentries other hother hr

/-- The same with the position counted from the back. -/
theorem insertIdx_findIdx_reverse (newcomer : α) (entries : List α) :
    entries.insertIdx (entries.length -
        entries.reverse.findIdx fun entry => r entry newcomer) newcomer =
      insertSorted r newcomer entries := by
  induction entries with
  | nil => rfl
  | cons entry entries ih =>
      rw [insertSorted, List.reverse_cons, List.findIdx_append]
      by_cases hback : ∃ other ∈ entries, r other newcomer
      · obtain ⟨other, hother, hr⟩ := hback
        have hlt : entries.reverse.findIdx
            (fun entry => decide (r entry newcomer)) <
              entries.reverse.length :=
          List.findIdx_lt_length.mpr
            ⟨other, List.mem_reverse.mpr hother, decide_eq_true hr⟩
        rw [if_pos hlt, if_pos ⟨other, List.mem_cons_of_mem _ hother, hr⟩,
          ← ih, ← List.insertIdx_succ_cons]
        rw [List.length_reverse] at hlt
        rw [List.length_cons, Nat.succ_sub (Nat.le_of_lt hlt)]
      · have hnot : ¬entries.reverse.findIdx
            (fun entry => decide (r entry newcomer)) <
              entries.reverse.length := by
          rw [List.findIdx_lt_length]
          rintro ⟨other, hother, hr⟩
          exact hback ⟨other, List.mem_reverse.mp hother,
            of_decide_eq_true hr⟩
        rw [if_neg hnot, List.length_reverse, List.length_cons]
        by_cases hentry : r entry newcomer
        · rw [if_pos ⟨entry, List.mem_cons_self, hentry⟩,
            insertSorted_of_forall r fun other hother hr =>
              hback ⟨other, hother, hr⟩]
          simp [List.findIdx_cons, hentry]
        · rw [if_neg]
          · simp [List.findIdx_cons, hentry, Nat.add_comm]
          · rintro ⟨other, hother, hr⟩
            rcases List.mem_cons.mp hother with rfl | hmem
            · exact hentry hr
            · exact hback ⟨other, hmem, hr⟩

@[simp]
theorem length_insertSorted (newcomer : α) (entries : List α) :
    (insertSorted r newcomer entries).length = entries.length + 1 := by
  induction entries with
  | nil => rfl
  | cons entry entries ih =>
      rw [insertSorted]
      split_ifs
      · rw [List.length_cons, ih, List.length_cons]
      · rfl

theorem perm_insertSorted (newcomer : α) (entries : List α) :
    (insertSorted r newcomer entries).Perm (newcomer :: entries) := by
  induction entries with
  | nil => exact List.Perm.refl _
  | cons entry entries ih =>
      rw [insertSorted]
      split_ifs
      · exact (ih.cons entry).trans (List.Perm.swap _ _ _)
      · exact List.Perm.refl _

/-- The newcomer passes everything in front of an entry that it follows. -/
theorem insertSorted_append_of_exists {newcomer : α} {back : List α}
    (hback : ∃ other ∈ back, r other newcomer) (front : List α) :
    insertSorted r newcomer (front ++ back) =
      front ++ insertSorted r newcomer back := by
  induction front with
  | nil => rfl
  | cons entry front ih =>
      obtain ⟨other, hother, hr⟩ := hback
      rw [List.cons_append, insertSorted, if_pos, ih, List.cons_append]
      exact ⟨other, by simp [hother], hr⟩

/-- The newcomer stays in front of entries that it does not follow. -/
theorem insertSorted_append_of_forall {newcomer : α} {back : List α}
    (hback : ∀ other ∈ back, ¬r other newcomer) (front : List α) :
    insertSorted r newcomer (front ++ back) =
      insertSorted r newcomer front ++ back := by
  induction front with
  | nil => exact insertSorted_of_forall r hback
  | cons entry front ih =>
      rw [List.cons_append, insertSorted, insertSorted]
      by_cases hfront : ∃ other ∈ entry :: front, r other newcomer
      · obtain ⟨other, hother, hr⟩ := hfront
        rw [if_pos ⟨other, List.mem_append_left back hother, hr⟩,
          if_pos ⟨other, hother, hr⟩, ih, List.cons_append]
      · rw [if_neg hfront, if_neg]
        · rfl
        · rintro ⟨other, hother, hr⟩
          rcases List.mem_append.mp (List.cons_append ▸ hother)
            with hmem | hmem
          · exact hfront ⟨other, hmem, hr⟩
          · exact hback other hmem hr

/-- Insertion keeps a log in order. -/
theorem pairwise_insertSorted (htotal : ∀ a b, r a b ∨ r b a)
    (htrans : ∀ a b c, r a b → r b c → r a c) (newcomer : α)
    {entries : List α} (hsorted : entries.Pairwise r) :
    (insertSorted r newcomer entries).Pairwise r := by
  induction entries with
  | nil => exact List.pairwise_singleton _ _
  | cons entry entries ih =>
      rw [List.pairwise_cons] at hsorted
      obtain ⟨hentry, hentries⟩ := hsorted
      rw [insertSorted]
      split_ifs with hback
      · rw [List.pairwise_cons]
        refine ⟨fun other hother => ?_, ih hentries⟩
        rcases List.mem_cons.mp
          ((perm_insertSorted r newcomer entries).subset hother)
          with rfl | hmem
        · obtain ⟨last, hlast, hr⟩ := hback
          rcases List.mem_cons.mp hlast with rfl | hmem
          · exact hr
          · exact htrans _ _ _ (hentry last hmem) hr
        · exact hentry other hmem
      · rw [List.pairwise_cons]
        refine ⟨fun other hother => ?_,
          List.pairwise_cons.mpr ⟨hentry, hentries⟩⟩
        exact (htotal newcomer other).resolve_right fun hr =>
          hback ⟨other, hother, hr⟩

/-- Everything that came in, in order. -/
def sorted (entries : List α) : List α :=
  entries.foldl (fun log newcomer => insertSorted r newcomer log) []

theorem sorted_concat (entries : List α) (newcomer : α) :
    sorted r (entries ++ [newcomer]) =
      insertSorted r newcomer (sorted r entries) := by
  rw [sorted, List.foldl_append]
  rfl

theorem pairwise_sorted (htotal : ∀ a b, r a b ∨ r b a)
    (htrans : ∀ a b c, r a b → r b c → r a c) (entries : List α) :
    (sorted r entries).Pairwise r := by
  induction entries using List.reverseRecOn with
  | nil => exact List.Pairwise.nil
  | append_singleton entries last ih =>
      rw [sorted_concat]
      exact pairwise_insertSorted r htotal htrans last ih

/-- The last entries, at most so many. -/
def lastOf (size : ℕ) (entries : List α) : List α :=
  entries.drop (entries.length - size)

omit [DecidableRel r] in
theorem lastOf_of_length_le {size : ℕ} {entries : List α}
    (hlength : entries.length ≤ size) : lastOf size entries = entries := by
  rw [lastOf, Nat.sub_eq_zero_of_le hlength, List.drop_zero]

theorem length_lastOf (size : ℕ) (entries : List α) :
    (lastOf size entries).length = min size entries.length := by
  rw [lastOf, List.length_drop]
  omega

theorem lastOf_append {size : ℕ} {front back : List α}
    (hlength : size ≤ back.length) :
    lastOf size (front ++ back) = lastOf size back := by
  rw [lastOf, lastOf, List.length_append, List.drop_append,
    List.drop_eq_nil_of_le (by omega), List.nil_append]
  congr 1
  omega

/-- A full window drops its first entry for a newcomer at the back. -/
theorem lastOf_concat {size : ℕ} (hsize : 0 < size) (entries : List α)
    (newcomer : α) :
    lastOf size (entries ++ [newcomer]) =
      (if (lastOf size entries).length = size then
        (lastOf size entries).tail else lastOf size entries) ++
        [newcomer] := by
  rw [length_lastOf]
  rcases Nat.lt_or_ge entries.length size with hshort | hlong
  · rw [if_neg (by omega), lastOf_of_length_le (Nat.le_of_lt hshort),
      lastOf_of_length_le (by rw [List.length_append]; exact hshort)]
  · rw [if_pos (by omega), lastOf, lastOf, List.tail_drop,
      List.length_append, List.length_singleton, List.drop_append,
      show entries.length + 1 - size = entries.length - size + 1 by omega,
      show entries.length - size + 1 - entries.length = 0 by omega,
      List.drop_zero]

/-- Dropping entries from the front before an insertion loses nothing that
the window would hold after it. -/
theorem lastOf_insertSorted_lastOf (size : ℕ) (newcomer : α)
    (entries : List α) :
    lastOf size (insertSorted r newcomer (lastOf size entries)) =
      lastOf size (insertSorted r newcomer entries) := by
  rcases Nat.le_total entries.length size with hshort | hlong
  · rw [lastOf_of_length_le hshort]
  · have hsplit : entries.take (entries.length - size) ++
        lastOf size entries = entries := List.take_append_drop _ _
    have hlength : (lastOf size entries).length = size := by
      rw [length_lastOf, Nat.min_eq_left hlong]
    conv_rhs => rw [← hsplit]
    by_cases hback : ∃ other ∈ lastOf size entries, r other newcomer
    · rw [insertSorted_append_of_exists r hback, lastOf_append]
      rw [length_insertSorted]
      omega
    · have hforall : ∀ other ∈ lastOf size entries, ¬r other newcomer :=
        fun other hother hr => hback ⟨other, hother, hr⟩
      rw [insertSorted_append_of_forall r hforall,
        lastOf_append (Nat.le_of_eq hlength.symm),
        insertSorted_of_forall r hforall]
      exact @lastOf_append _ size [newcomer] _ (Nat.le_of_eq hlength.symm)

end GameStreamer.SortedWindow
