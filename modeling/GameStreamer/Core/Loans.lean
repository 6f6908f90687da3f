import Mathlib.Data.List.Count
import Mathlib.Data.List.Nodup
import Mathlib.Data.List.Perm.Subperm
import Mathlib.Logic.Function.Basic

/-!
# Buffers under counted handles

An owner lends its buffers out by handles and writes a buffer again once
nobody holds it.  A count on every buffer says how many handles there are, the
owner's own included.  As long as the counts are right and only buffers with a
count of one are written, every holder goes on to find what it was lent.
-/

namespace GameStreamer.Loans

variable {Buffer Value Handle : Type*}

section Values

variable (buffer : Handle → Buffer) (value : Handle → Value)

/-- Every holder still finds the value that it was lent. -/
def Intact (contents : Buffer → Value) (held : List Handle) : Prop :=
  ∀ handle ∈ held, contents (buffer handle) = value handle

variable {buffer value} {contents : Buffer → Value} {held : List Handle}

theorem Intact.mono (h : Intact buffer value contents held)
    {kept : List Handle} (hkept : ∀ handle ∈ kept, handle ∈ held) :
    Intact buffer value contents kept :=
  fun handle hmem => h handle (hkept handle hmem)

theorem Intact.lend (h : Intact buffer value contents held) {handle : Handle}
    (hvalue : contents (buffer handle) = value handle) :
    Intact buffer value contents (handle :: held) :=
  List.forall_mem_cons.mpr ⟨hvalue, h⟩

/-- Writing a buffer that nobody holds. -/
theorem Intact.write [DecidableEq Buffer]
    (h : Intact buffer value contents held) {target : Buffer}
    (hfree : target ∉ held.map buffer) (new : Value) :
    Intact buffer value (Function.update contents target new) held := by
  intro handle hmem
  have hne : buffer handle ≠ target := by
    rintro rfl
    exact hfree (List.mem_map_of_mem hmem)
  rw [Function.update_of_ne hne]
  exact h handle hmem

end Values

section Counts

variable [DecidableEq Buffer]

/-- The counts are those of the owner's handles and of the lent ones. -/
def Counted (count : Buffer → ℕ) (owned lent : List Buffer) : Prop :=
  ∀ buffer, count buffer = owned.count buffer + lent.count buffer

variable {count : Buffer → ℕ} {owned lent : List Buffer}

theorem Counted.perm (h : Counted count owned lent) {lent' : List Buffer}
    (hperm : lent.Perm lent') : Counted count owned lent' := by
  intro buffer
  rw [← hperm.count_eq]
  exact h buffer

/-- One more handle. -/
theorem Counted.clone (h : Counted count owned lent) (target : Buffer) :
    Counted (Function.update count target (count target + 1)) owned
      (target :: lent) := by
  intro buffer
  by_cases hbuffer : buffer = target
  · subst hbuffer
    rw [Function.update_self, List.count_cons_self, h buffer, Nat.add_assoc]
  · rw [Function.update_of_ne hbuffer,
      List.count_cons_of_ne (Ne.symm hbuffer)]
    exact h buffer

/-- One handle less. -/
theorem Counted.drop {target : Buffer}
    (h : Counted count owned (target :: lent)) :
    Counted (Function.update count target (count target - 1)) owned lent := by
  intro buffer
  have hcount := h buffer
  by_cases hbuffer : buffer = target
  · subst hbuffer
    rw [List.count_cons_self] at hcount
    rw [Function.update_self, hcount]
    omega
  · rw [List.count_cons_of_ne (Ne.symm hbuffer)] at hcount
    rw [Function.update_of_ne hbuffer]
    exact hcount

/-- The owner drops all its handles. -/
theorem Counted.disown (h : Counted count owned lent) :
    Counted (fun buffer => count buffer - owned.count buffer) [] lent := by
  intro buffer
  dsimp only
  rw [h buffer, List.count_nil, Nat.add_sub_cancel_left, Nat.zero_add]

/-- The owner makes buffers that nobody has a handle on yet. -/
theorem Counted.make (h : Counted count [] lent) {made : List Buffer}
    (hnodup : made.Nodup) (hnew : ∀ buffer ∈ made, buffer ∉ lent) :
    Counted (fun buffer => if buffer ∈ made then 1 else count buffer) made
      lent := by
  intro buffer
  dsimp only
  by_cases hmade : buffer ∈ made
  · rw [if_pos hmade, List.count_eq_one_of_mem hnodup hmade,
      List.count_eq_zero_of_not_mem (hnew buffer hmade)]
  · rw [if_neg hmade, h buffer, List.count_nil,
      List.count_eq_zero_of_not_mem hmade]

/-- A count of one is the owner's own handle. -/
theorem Counted.free (h : Counted count owned lent) {buffer : Buffer}
    (howned : buffer ∈ owned) (hone : count buffer = 1) : buffer ∉ lent := by
  have hcount := h buffer
  have hpos := List.count_pos_iff.mpr howned
  rw [← List.count_eq_zero]
  omega

/-- With fewer handles out than buffers, one of the buffers is free. -/
theorem Counted.exists_free (h : Counted count owned lent)
    (hnodup : owned.Nodup) (hfew : lent.length < owned.length) :
    ∃ buffer ∈ owned, count buffer = 1 := by
  by_contra hnone
  have hlent : ∀ buffer ∈ owned, buffer ∈ lent := by
    intro buffer howned
    by_contra hfree
    apply hnone
    refine ⟨buffer, howned, ?_⟩
    rw [h buffer, List.count_eq_one_of_mem hnodup howned,
      List.count_eq_zero_of_not_mem hfree]
  have hle := (List.subperm_of_subset hnodup hlent).length_le
  exact absurd hfew (Nat.not_lt.mpr hle)

end Counts

end GameStreamer.Loans
