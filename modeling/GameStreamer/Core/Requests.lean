import Mathlib.Data.List.Pairwise
import Mathlib.Data.Nat.Basic
import Mathlib.Logic.Basic

/-!
# Requests and the outputs that answer them

Items go into a queue under increasing serial numbers, and outputs come out in
the same order; an item may be lost on the way.  A request asks that the first
output of an item that is submitted after it has some property.  This file
says which requests are still open, and how a queue keeps them: each open
request is either still armed for the next item, or has an item inside that
will come out and answer it.
-/

namespace GameStreamer.Requests

/-- What can be seen from outside, in order. -/
inductive Entry (Output : Type*) where
  /-- A request, with the serial number that the next item will have. -/
  | requested (serial : ℕ)
  | emitted (output : Output)
  deriving DecidableEq, Repr

variable {Output : Type*} (serialOf : Output → ℕ) (Answers : Output → Prop)

def outputs (history : List (Entry Output)) : List Output :=
  history.filterMap fun
    | .requested _ => none
    | .emitted output => some output

/-- After every request the first output of a later item answers it. -/
def Honoured (history : List (Entry Output)) : Prop :=
  ∀ before serial after, history = before ++ .requested serial :: after →
    ∀ output, (outputs after).find? (fun output => serial ≤ serialOf output) =
      some output → Answers output

/-- No item that was submitted after the request has come out yet. -/
def Pending (history : List (Entry Output)) (serial : ℕ) : Prop :=
  ∃ before after, history = before ++ .requested serial :: after ∧
    ∀ output ∈ outputs after, serialOf output < serial

variable {serialOf Answers} {history : List (Entry Output)}

theorem outputs_append (left right : List (Entry Output)) :
    outputs (left ++ right) = outputs left ++ outputs right :=
  List.filterMap_append

@[simp]
theorem outputs_requested (serial : ℕ) :
    outputs [(.requested serial : Entry Output)] = [] := rfl

@[simp]
theorem outputs_emitted (output : Output) :
    outputs [.emitted output] = [output] := rfl

/-- A request of an extended history is its last entry or one of the old
entries. -/
theorem append_eq_requested {last : Entry Output}
    {before after : List (Entry Output)} {serial : ℕ}
    (h : history ++ [last] = before ++ .requested serial :: after) :
    (last = .requested serial ∧ before = history ∧ after = []) ∨
      ∃ older, history = before ++ .requested serial :: older ∧
        after = older ++ [last] := by
  rcases List.eq_nil_or_concat after with rfl | ⟨older, final, rfl⟩
  · obtain ⟨hbefore, hlast⟩ := List.append_inj' h rfl
    exact Or.inl ⟨List.singleton_inj.mp hlast, hbefore.symm, rfl⟩
  · rw [List.concat_eq_append, ← List.cons_append, ← List.append_assoc] at h
    obtain ⟨hhistory, hlast⟩ := List.append_inj' h rfl
    rw [List.singleton_inj.mp hlast]
    exact Or.inr ⟨older, hhistory, List.concat_eq_append⟩

theorem Honoured.nil : Honoured serialOf Answers [] :=
  fun before serial after h => absurd h (by simp)

theorem Pending.not_nil {serial : ℕ} : ¬Pending serialOf [] serial := by
  rintro ⟨before, after, h, -⟩
  simp at h

/-- A new request is pending, and nothing has answered it yet. -/
theorem Honoured.append_requested (h : Honoured serialOf Answers history)
    (serial : ℕ) :
    Honoured serialOf Answers (history ++ [.requested serial]) := by
  intro before earlier after heq output hfind
  rcases append_eq_requested heq with ⟨-, -, rfl⟩ | ⟨older, hhistory, rfl⟩
  · cases hfind
  · rw [outputs_append, outputs_requested, List.append_nil] at hfind
    exact h before earlier older hhistory output hfind

theorem pending_append_requested {serial asked : ℕ}
    (h : Pending serialOf (history ++ [.requested serial]) asked) :
    asked = serial ∨ Pending serialOf history asked := by
  obtain ⟨before, after, heq, hlate⟩ := h
  rcases append_eq_requested heq with ⟨hlast, -, -⟩ | ⟨older, hhistory, rfl⟩
  · cases hlast
    exact Or.inl rfl
  · rw [outputs_append, outputs_requested, List.append_nil] at hlate
    exact Or.inr ⟨before, older, hhistory, hlate⟩

/-- An output keeps the requests honoured if it answers all of them that are
pending and old enough. -/
theorem Honoured.append_emitted (h : Honoured serialOf Answers history)
    {output : Output} (hanswers : ∀ serial, Pending serialOf history serial →
      serial ≤ serialOf output → Answers output) :
    Honoured serialOf Answers (history ++ [.emitted output]) := by
  intro before serial after heq found hfind
  rcases append_eq_requested heq with ⟨hlast, -, -⟩ | ⟨older, hhistory, rfl⟩
  · cases hlast
  · rw [outputs_append, outputs_emitted, List.find?_append] at hfind
    cases hold : (outputs older).find? fun output =>
        serial ≤ serialOf output with
    | some answer =>
        rw [hold, Option.some_or] at hfind
        exact h before serial older hhistory found (hold.trans hfind)
    | none =>
        rw [hold, Option.none_or, List.find?_singleton] at hfind
        split_ifs at hfind with hle
        cases hfind
        refine hanswers serial ⟨before, older, hhistory, ?_⟩
          (of_decide_eq_true hle)
        intro output hmem
        simpa using List.find?_eq_none.mp hold output hmem

/-- A request that is pending after an output is newer than its item. -/
theorem pending_append_emitted {output : Output} {serial : ℕ}
    (h : Pending serialOf (history ++ [.emitted output]) serial) :
    Pending serialOf history serial ∧ serialOf output < serial := by
  obtain ⟨before, after, heq, hlate⟩ := h
  rcases append_eq_requested heq with ⟨hlast, -, -⟩ | ⟨older, hhistory, rfl⟩
  · cases hlast
  · rw [outputs_append, outputs_emitted] at hlate
    exact ⟨⟨before, older, hhistory,
        fun other hmem => hlate other (List.mem_append_left _ hmem)⟩,
      hlate output (List.mem_append_right _ List.mem_cons_self)⟩

theorem honoured_emitted_cons_iff (output : Output) :
    Honoured serialOf Answers (.emitted output :: history) ↔
      Honoured serialOf Answers history := by
  constructor
  · intro h before serial after heq
    exact h (.emitted output :: before) serial after (by rw [heq]; rfl)
  · intro h before serial after heq
    rcases List.cons_eq_append_iff.mp heq with ⟨-, hcons⟩ | ⟨rest, -, hrest⟩
    · cases hcons
    · exact h rest serial after hrest

theorem honoured_requested_cons_iff (serial : ℕ) :
    Honoured serialOf Answers (.requested serial :: history) ↔
      (∀ output ∈ (outputs history).find? fun output =>
          serial ≤ serialOf output, Answers output) ∧
        Honoured serialOf Answers history := by
  constructor
  · intro h
    refine ⟨fun output hfind => h [] serial history rfl output hfind, ?_⟩
    intro before earlier after heq
    exact h (.requested serial :: before) earlier after (by rw [heq]; rfl)
  · rintro ⟨hfirst, h⟩ before earlier after heq
    rcases List.cons_eq_append_iff.mp heq with ⟨-, hcons⟩ | ⟨rest, -, hrest⟩
    · cases hcons
      exact hfirst
    · exact h rest earlier after hrest

instance decidableHonoured [DecidablePred Answers] :
    (history : List (Entry Output)) →
      Decidable (Honoured serialOf Answers history)
  | [] => isTrue Honoured.nil
  | .emitted output :: history =>
      have := decidableHonoured history
      decidable_of_iff _ (honoured_emitted_cons_iff output).symm
  | .requested serial :: history =>
      have := decidableHonoured history
      decidable_of_iff _ (honoured_requested_cons_iff serial).symm

/-! ## A queue that answers -/

/-- An item inside; a sure one will come out and answer a request. -/
structure QueueSlot where
  serial : ℕ
  sure : Bool
  deriving DecidableEq, Repr

/-- Items may get lost or become sure, but a sure item stays. -/
structure Keeps (slots after : List QueueSlot) : Prop where
  order : (after.map QueueSlot.serial).Sublist (slots.map QueueSlot.serial)
  sure : ∀ slot ∈ slots, slot.sure = true → slot ∈ after

theorem Keeps.refl (slots : List QueueSlot) : Keeps slots slots :=
  ⟨List.Sublist.refl _, fun _ hmem _ => hmem⟩

/-- An item that is not sure gets lost. -/
theorem Keeps.drop {slot : QueueSlot} (hunsure : slot.sure = false)
    (before after : List QueueSlot) :
    Keeps (before ++ slot :: after) (before ++ after) where
  order := by
    rw [List.map_append, List.map_append]
    exact (List.Sublist.refl _).append (List.sublist_cons_self _ _)
  sure other hmem hsure := by
    rcases List.mem_append.mp hmem with hbefore | htail
    · exact List.mem_append_left _ hbefore
    · refine List.mem_append_right _
        ((List.mem_cons.mp htail).resolve_left fun heq => ?_)
      rw [heq, hunsure] at hsure
      cases hsure

/-- An item may become sure, and stays so. -/
theorem Keeps.replace {slot made : QueueSlot}
    (hserial : made.serial = slot.serial)
    (hsure : slot.sure = true → made.sure = true)
    (before after : List QueueSlot) :
    Keeps (before ++ slot :: after) (before ++ made :: after) where
  order := by
    have hmap : (before ++ made :: after).map QueueSlot.serial =
        (before ++ slot :: after).map QueueSlot.serial := by
      simp only [List.map_append, List.map_cons, hserial]
    exact hmap ▸ List.Sublist.refl _
  sure other hmem hother := by
    rcases List.mem_append.mp hmem with hbefore | htail
    · exact List.mem_append_left _ hbefore
    · rcases List.mem_cons.mp htail with rfl | hafter
      · have hsame : made = other := by
          rw [QueueSlot.mk.injEq, hother]
          exact ⟨hserial, hsure hother⟩
        rw [hsame]
        exact List.mem_append_right _ List.mem_cons_self
      · exact List.mem_append_right _ (List.mem_cons_of_mem _ hafter)

/-- The queue holds the items below `submitted` in their order, and every
pending request is armed for the next item or has a sure item. -/
structure Tracks (serialOf : Output → ℕ) (history : List (Entry Output))
    (slots : List QueueSlot) (submitted : ℕ) (armed : Bool) : Prop where
  increasing : (slots.map QueueSlot.serial).Pairwise (· < ·)
  bounded : ∀ slot ∈ slots, slot.serial < submitted
  covered : ∀ serial, Pending serialOf history serial →
    (serial = submitted ∧ armed = true) ∨ ⟨serial, true⟩ ∈ slots

namespace Tracks

variable {slots : List QueueSlot} {submitted : ℕ} {armed : Bool}

theorem empty : Tracks serialOf [] [] 0 armed where
  increasing := List.Pairwise.nil
  bounded := by simp
  covered _ h := absurd h Pending.not_nil

/-- A request arms the next item. -/
theorem request (h : Tracks serialOf history slots submitted armed) :
    Tracks serialOf (history ++ [.requested submitted]) slots submitted
      true where
  increasing := h.increasing
  bounded := h.bounded
  covered serial hpending := by
    rcases pending_append_requested hpending with rfl | hold
    · exact Or.inl ⟨rfl, rfl⟩
    · exact (h.covered serial hold).imp_left fun hnext => ⟨hnext.1, rfl⟩

theorem keep (h : Tracks serialOf history slots submitted armed)
    {after : List QueueSlot} (hkeeps : Keeps slots after) :
    Tracks serialOf history after submitted armed where
  increasing := h.increasing.sublist hkeeps.order
  bounded slot hmem := by
    obtain ⟨old, hold, hserial⟩ := List.mem_map.mp
      (hkeeps.order.subset (List.mem_map_of_mem hmem))
    rw [← hserial]
    exact h.bounded old hold
  covered serial hpending :=
    (h.covered serial hpending).imp_right fun hmem => hkeeps.sure _ hmem rfl

/-- An item that is submitted while a request is armed must be sure. -/
theorem submit (h : Tracks serialOf history slots submitted armed)
    {sure : Bool} (hsure : armed = true → sure = true) :
    Tracks serialOf history (slots ++ [⟨submitted, sure⟩]) (submitted + 1)
      false where
  increasing := by
    rw [List.map_append, List.pairwise_append]
    refine ⟨h.increasing, List.pairwise_singleton _ _, ?_⟩
    intro serial hserial last hlast
    obtain ⟨slot, hslot, rfl⟩ := List.mem_map.mp hserial
    rw [List.mem_singleton.mp hlast]
    exact h.bounded slot hslot
  bounded slot hmem := by
    rcases List.mem_append.mp hmem with hold | hnew
    · exact Nat.lt_succ_of_lt (h.bounded slot hold)
    · rw [List.mem_singleton.mp hnew]
      exact Nat.lt_succ_self _
  covered serial hpending := by
    rcases h.covered serial hpending with ⟨rfl, harmed⟩ | hmem
    · rw [hsure harmed]
      exact Or.inr (List.mem_append_right _ List.mem_cons_self)
    · exact Or.inr (List.mem_append_left _ hmem)

/-- An item that gets lost at once needs that no request is armed. -/
theorem lose (h : Tracks serialOf history slots submitted false) :
    Tracks serialOf history slots (submitted + 1) false where
  increasing := h.increasing
  bounded slot hmem := Nat.lt_succ_of_lt (h.bounded slot hmem)
  covered serial hpending :=
    (h.covered serial hpending).imp_left fun hnext => absurd hnext.2 (by simp)

/-- The oldest item comes out. -/
theorem emit {output : Output} {sure : Bool} {rest : List QueueSlot}
    (h : Tracks serialOf history (⟨serialOf output, sure⟩ :: rest) submitted
      armed) :
    Tracks serialOf (history ++ [.emitted output]) rest submitted armed where
  increasing := h.increasing.of_cons
  bounded slot hmem := h.bounded slot (List.mem_cons_of_mem _ hmem)
  covered serial hpending := by
    obtain ⟨hold, hlt⟩ := pending_append_emitted hpending
    refine (h.covered serial hold).imp_right fun hmem => ?_
    refine (List.mem_cons.mp hmem).resolve_left fun heq => ?_
    rw [QueueSlot.mk.injEq] at heq
    exact absurd heq.1 (Nat.ne_of_gt hlt)

/-- The requests that the oldest item is late enough for are its own. -/
theorem sure_of_pending {output : Output} {sure : Bool} {rest : List QueueSlot}
    (h : Tracks serialOf history (⟨serialOf output, sure⟩ :: rest) submitted
      armed) {serial : ℕ} (hpending : Pending serialOf history serial)
    (hle : serial ≤ serialOf output) : sure = true := by
  have hbound : serialOf output < submitted := h.bounded _ List.mem_cons_self
  rcases h.covered serial hpending with ⟨rfl, -⟩ | hmem
  · exact absurd hbound (Nat.not_lt.mpr hle)
  · rcases List.mem_cons.mp hmem with heq | hrest
    · rw [QueueSlot.mk.injEq] at heq
      exact heq.2.symm
    · have hlater : serialOf output < serial :=
        (List.pairwise_cons.mp h.increasing).1 serial
          (List.mem_map_of_mem hrest)
      exact absurd hlater (Nat.not_lt.mpr hle)

end Tracks

end GameStreamer.Requests
