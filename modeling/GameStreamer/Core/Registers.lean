import Mathlib.Data.List.Basic
import Mathlib.Data.List.Nodup
import Mathlib.Logic.Function.Basic

/-!
# Tables of registers

The keys of a keyboard are a table of registers, and each event on its way
overwrites one of them.  A register holds what its last writer wrote.  When
the registers of one table are the registers of another under other names, the
two stay mirrors of each other as long as no two names are mixed up.
-/

namespace GameStreamer.Registers

variable {Key Name Value : Type*}

/-- An association list whose second column has no duplicates maps no two
keys to one value. -/
theorem lookup_injective [BEq Key] [LawfulBEq Key] {table : List (Key × Value)}
    (hnodup : (table.map Prod.snd).Nodup) {left right : Key} {value : Value}
    (hleft : table.lookup left = some value)
    (hright : table.lookup right = some value) : left = right := by
  have hmemLeft := List.lookup_eq_some_iff.mp hleft
  have hmemRight := List.lookup_eq_some_iff.mp hright
  obtain ⟨front, back, rfl, -⟩ := hmemLeft
  obtain ⟨front', back', heq, -⟩ := hmemRight
  have hmem : (right, value) ∈ front ++ (left, value) :: back := by
    rw [heq]
    exact List.mem_append_right _ List.mem_cons_self
  have hinjective := List.inj_on_of_nodup_map hnodup
  have hpair := hinjective
    (List.mem_append_right front List.mem_cons_self) hmem rfl
  exact congrArg Prod.fst hpair

section Mirrors

variable [DecidableEq Key] [DecidableEq Name]

/-- The set registers of one table are, under their names there, the set
registers of the other. -/
def Mirrors (rename : Key → Option Name) (table : Key → Bool)
    (mirror : Name → Bool) : Prop :=
  ∀ name, mirror name = true ↔
    ∃ key, rename key = some name ∧ table key = true

variable {rename : Key → Option Name} {table : Key → Bool}
  {mirror : Name → Bool}

/-- Writing a register under both of its names. -/
theorem Mirrors.update (hmirrors : Mirrors rename table mirror)
    (hinjective : ∀ {left right name}, rename left = some name →
      rename right = some name → left = right)
    {key : Key} {name : Name} (hname : rename key = some name)
    (value : Bool) :
    Mirrors rename (Function.update table key value)
      (Function.update mirror name value) := by
  intro other
  by_cases hother : other = name
  · subst hother
    rw [Function.update_self]
    constructor
    · intro hvalue
      exact ⟨key, hname, by rw [Function.update_self, hvalue]⟩
    · rintro ⟨source, hsource, hset⟩
      rw [hinjective hsource hname, Function.update_self] at hset
      exact hset
  · rw [Function.update_of_ne hother, hmirrors other]
    apply exists_congr
    intro source
    apply and_congr_right
    intro hsource
    have hne : source ≠ key := by
      rintro rfl
      exact hother (Option.some.inj (hsource.symm.trans hname))
    rw [Function.update_of_ne hne]

omit [DecidableEq Name] in
/-- Writing a register that has no name in the mirror. -/
theorem Mirrors.update_unnamed (hmirrors : Mirrors rename table mirror)
    {key : Key} (hname : rename key = none) (value : Bool) :
    Mirrors rename (Function.update table key value) mirror := by
  intro other
  rw [hmirrors other]
  apply exists_congr
  intro source
  apply and_congr_right
  intro hsource
  have hne : source ≠ key := by
    rintro rfl
    exact Option.some_ne_none other (hsource.symm.trans hname)
  rw [Function.update_of_ne hne]

omit [DecidableEq Key] in
/-- Clearing a register of the mirror that is nobody's. -/
theorem Mirrors.clear_foreign (hmirrors : Mirrors rename table mirror)
    {name : Name} (hname : ∀ key, rename key ≠ some name) :
    Mirrors rename table (Function.update mirror name false) := by
  intro other
  by_cases hother : other = name
  · subst hother
    rw [Function.update_self]
    constructor
    · intro hset
      exact absurd hset Bool.false_ne_true
    · rintro ⟨source, hsource, hset⟩
      exact absurd hsource (hname source)
  · rw [Function.update_of_ne hother, hmirrors other]

omit [DecidableEq Key] [DecidableEq Name] in
/-- Nothing is set at the start. -/
theorem mirrors_unset (rename : Key → Option Name) :
    Mirrors rename (fun _ => false) fun _ => false := by
  intro name
  constructor
  · intro hset
    exact absurd hset Bool.false_ne_true
  · rintro ⟨source, hsource, hset⟩
    exact absurd hset Bool.false_ne_true

end Mirrors

section LastWrite

variable [DecidableEq Name]

/-- What the last of the writes to a register wrote, when there is one. -/
def lastWrite (writes : List (Name × Value)) (name : Name) : Option Value :=
  (writes.reverse.find? fun entry => entry.1 = name).map Prod.snd

theorem lastWrite_concat (writes : List (Name × Value)) (entry : Name × Value)
    (name : Name) :
    lastWrite (writes ++ [entry]) name =
      if entry.1 = name then some entry.2 else lastWrite writes name := by
  rw [lastWrite, List.reverse_append, List.reverse_singleton,
    List.singleton_append, List.find?_cons]
  by_cases hentry : entry.1 = name
  · rw [decide_eq_true hentry, if_pos hentry, Option.map_some]
  · rw [decide_eq_false hentry, if_neg hentry]
    rfl

/-- The table after a write that may be missing. -/
def write (table : Name → Value) : Option (Name × Value) → Name → Value
  | none => table
  | some entry => Function.update table entry.1 entry.2

/-- The table that a history of events leaves behind, when `writes` tells what
an event writes. -/
def tableOf {Event : Type*} (writes : Event → Option (Name × Value))
    (initial : Value) (history : List Event) (name : Name) : Value :=
  (lastWrite (history.filterMap writes) name).getD initial

theorem tableOf_concat {Event : Type*}
    (writes : Event → Option (Name × Value)) (initial : Value)
    (history : List Event) (event : Event) :
    tableOf writes initial (history ++ [event]) =
      write (tableOf writes initial history) (writes event) := by
  funext name
  unfold tableOf
  rw [List.filterMap_append, List.filterMap_cons, List.filterMap_nil]
  cases writes event with
  | none =>
      rw [List.append_nil]
      rfl
  | some entry =>
      simp only [lastWrite_concat, write]
      by_cases hentry : entry.1 = name
      · rw [if_pos hentry, hentry, Function.update_self, Option.getD_some]
      · rw [if_neg hentry, Function.update_of_ne (Ne.symm hentry)]

end LastWrite

end GameStreamer.Registers
