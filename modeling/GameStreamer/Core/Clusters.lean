import Mathlib.Data.List.SplitBy

/-!
# Clusters of a growing list

`List.splitBy` cuts a list into its longest segments of neighbours that join.
Appending an element either extends the last segment or starts a new one, so a
program that sees the elements one by one needs to remember the last segment
only.
-/

namespace GameStreamer.Clusters

variable {α : Type*} {joins : α → α → Bool}

/-- An element that does not join the last one starts a segment. -/
theorem splitBy_concat_of_not_joins {l : List α} {a : α}
    (h : ∀ last ∈ l.getLast?, joins last a = false) :
    (l ++ [a]).splitBy joins = l.splitBy joins ++ [[a]] := by
  rw [List.splitBy_append_cons [] h]
  rfl

/-- The last segment ends where the list does. -/
theorem getLast?_of_splitBy {l cluster : List α} {closed : List (List α)}
    (h : l.splitBy joins = closed ++ [cluster]) :
    cluster ≠ [] ∧ cluster.getLast? = l.getLast? := by
  obtain ⟨hflatten, hempty, -, -⟩ := List.splitBy_eq_iff.mp h
  have hne : cluster ≠ [] := by
    rintro rfl
    exact hempty (List.mem_append_right _ List.mem_cons_self)
  refine ⟨hne, ?_⟩
  rw [hflatten, List.flatten_concat, List.getLast?_append_of_ne_nil _ hne]

/-- An element that joins the last one extends its segment. -/
theorem splitBy_concat_of_joins {l cluster : List α} {closed : List (List α)}
    {last a : α} (h : l.splitBy joins = closed ++ [cluster])
    (hlast : cluster.getLast? = some last) (hjoins : joins last a = true) :
    (l ++ [a]).splitBy joins = closed ++ [cluster ++ [a]] := by
  obtain ⟨hflatten, hempty, hchains, hbounds⟩ := List.splitBy_eq_iff.mp h
  have hne := (getLast?_of_splitBy h).1
  rw [List.isChain_append] at hbounds
  rw [List.splitBy_eq_iff]
  refine ⟨?_, ?_, ?_, ?_⟩
  · rw [hflatten, List.flatten_concat, List.flatten_concat, List.append_assoc]
  · intro hmem
    rcases List.mem_append.mp hmem with hclosed | hnew
    · exact hempty (List.mem_append_left _ hclosed)
    · exact List.append_ne_nil_of_left_ne_nil hne [a]
        (List.mem_singleton.mp hnew).symm
  · intro segment hsegment
    rcases List.mem_append.mp hsegment with hclosed | hnew
    · exact hchains segment (List.mem_append_left _ hclosed)
    · rw [List.mem_singleton.mp hnew, List.isChain_append]
      refine ⟨hchains cluster (List.mem_append_right _ List.mem_cons_self),
        List.isChain_singleton a, ?_⟩
      intro previous hprevious next hnext
      cases hnext
      rw [hlast] at hprevious
      cases hprevious
      exact hjoins
  · rw [List.isChain_append]
    refine ⟨hbounds.1, List.isChain_singleton _, ?_⟩
    intro previous hprevious next hnext
    cases hnext
    obtain ⟨hpreviousNe, hclusterNe, hapart⟩ :=
      hbounds.2.2 previous hprevious cluster rfl
    refine ⟨hpreviousNe, List.append_ne_nil_of_left_ne_nil hne [a], ?_⟩
    rw [List.head_append_of_ne_nil hclusterNe]
    exact hapart

end GameStreamer.Clusters
