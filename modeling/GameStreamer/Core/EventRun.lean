import Mathlib.Logic.Basic
import Mathlib.Data.List.Basic

/-!
# Runs of event-driven machines

A machine is a step function on a state and an event, and a run is the left
fold of that function over a list of events.  Nondeterminism (delays, other
parties, failures) lives in the choice of the events.  This file collects the
induction rules that turn a fact about one step into a fact about every run:
invariants, conditions required of every step, and the exact correspondence
between two such conditions.
-/

namespace GameStreamer.EventRun

variable {State Event : Type*} (step : State → Event → State)

/-- Every event of the run satisfies `cond` in the state that it finds. -/
def Along (cond : State → Event → Prop) : State → List Event → Prop
  | _, [] => True
  | state, event :: events =>
      cond state event ∧ Along cond (step state event) events

instance decidableAlong (cond : State → Event → Prop)
    [∀ state event, Decidable (cond state event)] :
    (state : State) → (events : List Event) →
      Decidable (Along step cond state events)
  | _, [] => inferInstanceAs (Decidable True)
  | state, event :: events =>
      have := decidableAlong cond (step state event) events
      inferInstanceAs (Decidable (_ ∧ _))

variable {step}

@[simp]
theorem along_nil (cond : State → Event → Prop) (state : State) :
    Along step cond state [] := trivial

@[simp]
theorem along_cons (cond : State → Event → Prop) (state : State)
    (event : Event) (events : List Event) :
    Along step cond state (event :: events) ↔
      cond state event ∧ Along step cond (step state event) events :=
  Iff.rfl

theorem along_append (cond : State → Event → Prop) (state : State)
    (events rest : List Event) :
    Along step cond state (events ++ rest) ↔
      Along step cond state events ∧
        Along step cond (events.foldl step state) rest := by
  induction events generalizing state with
  | nil => exact (and_iff_right trivial).symm
  | cons event events ih =>
      rw [List.cons_append, along_cons, along_cons, ih, and_assoc,
        List.foldl_cons]

theorem along_and (left right : State → Event → Prop) (state : State)
    (events : List Event) :
    Along step (fun state event => left state event ∧ right state event)
        state events ↔
      Along step left state events ∧ Along step right state events := by
  induction events generalizing state with
  | nil => exact (and_iff_right trivial).symm
  | cons event events ih =>
      rw [along_cons, along_cons, along_cons, ih, and_and_and_comm]

/-- Some event of the run satisfies `cond` in the state that it finds. -/
def Sometime (cond : State → Event → Prop) (step : State → Event → State)
    (state : State) (events : List Event) : Prop :=
  ¬Along step (fun state event => ¬cond state event) state events

theorem sometime_concat (cond : State → Event → Prop) (state : State)
    (events : List Event) (event : Event) :
    Sometime cond step state (events ++ [event]) ↔
      Sometime cond step state events ∨
        cond (events.foldl step state) event := by
  rw [Sometime, along_append, not_and_or, Sometime, along_cons]
  refine or_congr Iff.rfl ?_
  rw [not_and_or, not_not]
  exact or_iff_left fun hnil => hnil (along_nil _ _)

/-- A property that every admissible step preserves holds after every run
whose steps are all admissible. -/
theorem foldl_invariant {inv : State → Prop} {cond : State → Event → Prop}
    (hstep : ∀ state event, inv state → cond state event →
      inv (step state event))
    {state : State} {events : List Event} (hinit : inv state)
    (halong : Along step cond state events) :
    inv (events.foldl step state) := by
  induction events generalizing state with
  | nil => exact hinit
  | cons event events ih =>
      exact ih (hstep state event hinit halong.1) halong.2

/-- A condition on the events alone holds along every run of such events. -/
theorem along_of_forall {cond : Event → Prop} {events : List Event}
    (hevents : ∀ event ∈ events, cond event) (state : State) :
    Along step (fun _ => cond) state events := by
  induction events generalizing state with
  | nil => trivial
  | cons event events ih =>
      exact ⟨hevents event List.mem_cons_self, ih (fun other hother =>
        hevents other (List.mem_cons_of_mem _ hother)) _⟩

/-- An unconditional invariant: the special case without admissibility. -/
theorem foldl_preserves {inv : State → Prop}
    (hstep : ∀ state event, inv state → inv (step state event))
    {state : State} (events : List Event) (hinit : inv state) :
    inv (events.foldl step state) := by
  induction events generalizing state with
  | nil => exact hinit
  | cons event events ih => exact ih (hstep state event hinit)

/-- Two conditions on the steps of a run ask for the same, if the first keeps
an invariant under which they agree on every single step. -/
theorem along_iff_along (inv : State → Prop)
    {left right : State → Event → Prop}
    (hinv : ∀ state event, inv state → left state event →
      inv (step state event))
    (hiff : ∀ state event, inv state →
      (left state event ↔ right state event))
    {state : State} (hinit : inv state) (events : List Event) :
    Along step left state events ↔ Along step right state events := by
  induction events generalizing state with
  | nil => exact Iff.rfl
  | cons event events ih =>
      rw [along_cons, along_cons]
      constructor
      · rintro ⟨hhead, htail⟩
        exact ⟨(hiff state event hinit).mp hhead,
          (ih (hinv state event hinit hhead)).mp htail⟩
      · rintro ⟨hhead, htail⟩
        have hleft := (hiff state event hinit).mpr hhead
        exact ⟨hleft, (ih (hinv state event hinit hleft)).mpr htail⟩

/-- A condition on the steps of a run asks for another, if it keeps an
invariant under which it does so on every single step. -/
theorem along_of_along (inv : State → Prop)
    {left right : State → Event → Prop}
    (hinv : ∀ state event, inv state → left state event →
      inv (step state event))
    (hright : ∀ state event, inv state → left state event →
      right state event)
    {state : State} (hinit : inv state) {events : List Event}
    (halong : Along step left state events) :
    Along step right state events := by
  induction events generalizing state with
  | nil => trivial
  | cons event events ih =>
      obtain ⟨hhead, htail⟩ := halong
      exact ⟨hright state event hinit hhead,
        ih (hinv state event hinit hhead) htail⟩

/-- If, from invariant states and under `base`, one step keeps `good` exactly
when it meets `cond`, and `good` can never be regained once lost, then a run
ends in `good` exactly when all its steps meet `cond`. -/
theorem good_iff_along (inv good : State → Prop)
    {base cond : State → Event → Prop}
    (hinv : ∀ state event, inv state → base state event →
      inv (step state event))
    (hlost : ∀ state event, inv state → good (step state event) → good state)
    (hexact : ∀ state event, inv state → good state → base state event →
      (good (step state event) ↔ cond state event))
    {state : State} (hinit : inv state) (hgood : good state)
    {events : List Event} (hbase : Along step base state events) :
    good (events.foldl step state) ↔ Along step cond state events := by
  have hlostRun : ∀ (rest : List Event) (state : State), inv state →
      Along step base state rest → good (rest.foldl step state) →
      good state := by
    intro rest
    induction rest with
    | nil => exact fun _ _ _ h => h
    | cons event rest ih =>
        exact fun state hstate halong h => hlost state event hstate
          (ih _ (hinv state event hstate halong.1) halong.2 h)
  induction events generalizing state with
  | nil => simpa using hgood
  | cons event events ih =>
      obtain ⟨hhead, htail⟩ := hbase
      have hnextInv := hinv state event hinit hhead
      constructor
      · intro hrun
        have hnext := hlostRun events _ hnextInv htail hrun
        exact ⟨(hexact state event hinit hgood hhead).mp hnext,
          (ih hnextInv hnext htail).mp hrun⟩
      · rintro ⟨hcond, hrest⟩
        have hnext := (hexact state event hinit hgood hhead).mpr hcond
        exact (ih hnextInv hnext htail).mpr hrest

/-- The special case where every step is admissible. -/
theorem good_iff_along_of_preserves (inv good : State → Prop)
    {cond : State → Event → Prop}
    (hinv : ∀ state event, inv state → inv (step state event))
    (hlost : ∀ state event, inv state → good (step state event) → good state)
    (hexact : ∀ state event, inv state → good state →
      (good (step state event) ↔ cond state event))
    {state : State} (hinit : inv state) (hgood : good state)
    {events : List Event} :
    good (events.foldl step state) ↔ Along step cond state events := by
  have hbase : Along step (fun _ _ => True) state events := by
    clear hinit hgood
    induction events generalizing state with
    | nil => trivial
    | cons event events ih => exact ⟨trivial, ih⟩
  exact good_iff_along inv good (fun state event h _ => hinv state event h)
    hlost (fun state event h hg _ => hexact state event h hg) hinit hgood
    hbase

/-- A party that either stays in its phase or returns, and is in a phase that
no return leads to, was in that phase before. -/
theorem eq_of_stays {Phase Result : Type*} {before after target : Phase}
    {returned : Result → Phase}
    (h : after = before ∨ ∃ result, after = returned result)
    (htarget : after = target)
    (hne : ∀ result, returned result ≠ target) : before = target := by
  rcases h with hsame | ⟨result, hreturned⟩
  · exact hsame.symm.trans htarget
  · exact absurd (hreturned.symm.trans htarget) (hne result)

end GameStreamer.EventRun
