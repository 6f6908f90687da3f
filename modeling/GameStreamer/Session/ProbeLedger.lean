import Mathlib.Data.List.Basic
import Mathlib.Data.List.Perm.Basic
import Mathlib.Data.List.Nodup
import Mathlib.Order.Nat

/-!
# The life of a probe cluster

A ledger of clusters: one is launched at a time, ended at its deadline or
later, and finalized a second after its end.  As long as none is launched
while another is active, none is lost, and only a few are collecting at any
time.
-/

namespace GameStreamer

/-- A cluster that is still collecting. -/
structure Slot where
  cluster : ℕ
  createdAt : ℕ
  /-- A second after the end of the cluster. -/
  finalizeAt : Option ℕ
  deriving DecidableEq, Repr

/-- The ledger of all clusters of a run: which are still collecting, which one
is active, and when the others were ended and finalized. -/
@[ext]
structure ProbeLedger where
  slots : List Slot
  /-- The active cluster and its deadline. -/
  active : Option (ℕ × ℕ)
  registered : List ℕ
  /-- Ended clusters with the time of their end. -/
  ended : List (ℕ × ℕ)
  finalized : List ℕ
  lastTick : ℕ
  deriving DecidableEq, Repr

namespace Slot

def endAt (cluster now : ℕ) (slot : Slot) : Slot :=
  if slot.cluster = cluster then
    { slot with finalizeAt := some (now + 1000000) }
  else slot

def due (now : ℕ) (slot : Slot) : Bool := slot.finalizeAt.any (· ≤ now)

@[simp]
theorem cluster_endAt (cluster now : ℕ) (slot : Slot) :
    (slot.endAt cluster now).cluster = slot.cluster := by
  rw [endAt]
  split_ifs <;> rfl

@[simp]
theorem createdAt_endAt (cluster now : ℕ) (slot : Slot) :
    (slot.endAt cluster now).createdAt = slot.createdAt := by
  rw [endAt]
  split_ifs <;> rfl

theorem endAt_of_ne {cluster : ℕ} {slot : Slot} (h : slot.cluster ≠ cluster)
    (now : ℕ) : slot.endAt cluster now = slot := if_neg h

/-- Launched later, and after all but a second of the other's life. -/
def Before (earlier later : Slot) : Prop :=
  earlier.cluster < later.cluster ∧
    earlier.createdAt + 250000 ≤ later.createdAt ∧
    ∀ time ∈ earlier.finalizeAt, time ≤ later.createdAt + 1000000

end Slot

namespace ProbeLedger

def empty : ProbeLedger := ⟨[], none, [], [], [], 0⟩

/-- End the active cluster if its deadline has passed. -/
def expire (ledger : ProbeLedger) (now : ℕ) : ProbeLedger :=
  match ledger.active with
  | none => { ledger with lastTick := now }
  | some (cluster, deadline) =>
      if deadline ≤ now then
        { ledger with
          slots := ledger.slots.map (Slot.endAt cluster now)
          active := none
          ended := ledger.ended ++ [(cluster, now)]
          lastTick := now }
      else { ledger with lastTick := now }

/-- Finalize the clusters whose second is over. -/
def finalize (ledger : ProbeLedger) : ProbeLedger :=
  { ledger with
    slots := ledger.slots.filter fun slot => !slot.due ledger.lastTick
    finalized := ledger.finalized ++
      (ledger.slots.filter (Slot.due ledger.lastTick)).map Slot.cluster }

def launch (ledger : ProbeLedger) (cluster duration : ℕ) : ProbeLedger :=
  { ledger with
    slots := ledger.slots ++ [⟨cluster, ledger.lastTick, none⟩]
    active := some (cluster, ledger.lastTick + duration + 250000)
    registered := ledger.registered ++ [cluster] }

/-- The cluster was ended, at this time. -/
def EndedAt (ledger : ProbeLedger) (cluster time : ℕ) : Prop :=
  (cluster, time) ∈ ledger.ended

/-- Every registered cluster is collecting or finalized, and every collecting
one is active or ended. -/
structure Sound (ledger : ProbeLedger) : Prop where
  partition : (ledger.slots.map Slot.cluster ++ ledger.finalized).Perm
    ledger.registered
  distinct : ledger.registered.Nodup
  ordered : ledger.slots.Pairwise Slot.Before
  active : ∀ cluster deadline, ledger.active = some (cluster, deadline) →
    cluster ∈ ledger.registered ∧ (∀ time, ¬ledger.EndedAt cluster time) ∧
    ∀ slot ∈ ledger.slots, slot.cluster ≤ cluster ∧
      (slot.cluster = cluster → slot.finalizeAt = none ∧
        slot.createdAt + 250000 ≤ deadline)
  collecting : ∀ slot ∈ ledger.slots,
    (∃ deadline, ledger.active = some (slot.cluster, deadline)) ∨
    ∃ time, ledger.EndedAt slot.cluster time ∧
      slot.finalizeAt = some (time + 1000000) ∧
      slot.createdAt + 250000 ≤ time
  ended : ∀ cluster time, ledger.EndedAt cluster time →
    cluster ∈ ledger.registered ∧ time ≤ ledger.lastTick
  finalized : ∀ cluster ∈ ledger.finalized, ∃ time,
    ledger.EndedAt cluster time

/-- No cluster is kept beyond its second. -/
def Prompt (ledger : ProbeLedger) : Prop :=
  ∀ slot ∈ ledger.slots, ∀ time ∈ slot.finalizeAt, ledger.lastTick < time

theorem sound_empty : empty.Sound where
  partition := List.Perm.refl _
  distinct := List.nodup_nil
  ordered := List.Pairwise.nil
  active := nofun
  collecting := nofun
  ended := nofun
  finalized := nofun

variable {ledger : ProbeLedger} (h : ledger.Sound)

include h

theorem Sound.expire {now : ℕ} (hnow : ledger.lastTick ≤ now) :
    (ledger.expire now).Sound := by
  have hended : ∀ cluster time, ledger.EndedAt cluster time →
      cluster ∈ ledger.registered ∧ time ≤ now :=
    fun cluster time hin => ⟨(h.ended cluster time hin).1,
      le_trans (h.ended cluster time hin).2 hnow⟩
  have hkept : { ledger with lastTick := now }.Sound :=
    ⟨h.partition, h.distinct, h.ordered, h.active, h.collecting, hended,
      h.finalized⟩
  rw [ProbeLedger.expire]
  split
  case h_1 => exact hkept
  case h_2 cluster deadline hactive =>
    split_ifs with hpassed
    case neg => exact hkept
    obtain ⟨hregistered, -, hslots⟩ := h.active cluster deadline hactive
    have hold : ∀ {other time}, ledger.EndedAt other time →
        (other, time) ∈ ledger.ended ++ [(cluster, now)] :=
      fun hin => List.mem_append_left _ hin
    exact {
      partition := by
        have hsame : Slot.cluster ∘ Slot.endAt cluster now = Slot.cluster := by
          funext slot
          exact Slot.cluster_endAt cluster now slot
        rw [List.map_map, hsame]
        exact h.partition
      distinct := h.distinct
      ordered := by
        rw [List.pairwise_map]
        apply h.ordered.imp_of_mem
        intro earlier later _ hlater hbefore
        have hne : earlier.cluster ≠ cluster :=
          (lt_of_lt_of_le hbefore.1 (hslots later hlater).1).ne
        rw [Slot.endAt_of_ne hne, Slot.Before, Slot.cluster_endAt,
          Slot.createdAt_endAt]
        exact hbefore
      active := nofun
      collecting := by
        intro slot hslot
        obtain ⟨slot, hin, rfl⟩ := List.mem_map.mp hslot
        rw [Slot.cluster_endAt, Slot.createdAt_endAt]
        right
        by_cases hsame : slot.cluster = cluster
        · refine ⟨now, ?_, ?_, ?_⟩
          · rw [hsame]
            exact List.mem_append_right _ List.mem_cons_self
          · rw [Slot.endAt, if_pos hsame]
          · exact le_trans ((hslots slot hin).2 hsame).2 hpassed
        · rw [Slot.endAt_of_ne hsame]
          obtain ⟨other, hother⟩ | ⟨time, hin, hfinalize, hcreated⟩ :=
            h.collecting slot hin
          · rw [hactive] at hother
            exact absurd (congrArg Prod.fst (Option.some.inj hother)).symm
              hsame
          · exact ⟨time, hold hin, hfinalize, hcreated⟩
      ended := by
        intro other time hin
        obtain hin | hin := List.mem_append.mp hin
        · exact hended other time hin
        · obtain ⟨rfl, rfl⟩ := Prod.mk.inj (List.mem_singleton.mp hin)
          exact ⟨hregistered, le_rfl⟩
      finalized := by
        intro other hin
        obtain ⟨time, hin⟩ := h.finalized other hin
        exact ⟨time, hold hin⟩ }

theorem Sound.finalize : ledger.finalize.Sound where
  partition := by
    have hsplit := List.filter_append_perm (Slot.due ledger.lastTick)
      ledger.slots
    have hcomm := (List.perm_append_comm.trans hsplit).map Slot.cluster
    rw [List.map_append] at hcomm
    apply (List.Perm.append_left _ List.perm_append_comm).trans
    rw [← List.append_assoc]
    exact (hcomm.append_right _).trans h.partition
  distinct := h.distinct
  ordered := h.ordered.filter _
  active := fun cluster deadline hactive =>
    ⟨(h.active cluster deadline hactive).1,
      (h.active cluster deadline hactive).2.1, fun slot hin =>
        (h.active cluster deadline hactive).2.2 slot (List.mem_filter.mp hin).1⟩
  collecting := fun slot hin => h.collecting slot (List.mem_filter.mp hin).1
  ended := h.ended
  finalized := by
    intro cluster hin
    obtain hin | hin := List.mem_append.mp hin
    · exact h.finalized cluster hin
    · obtain ⟨slot, hslot, rfl⟩ := List.mem_map.mp hin
      obtain ⟨hin, hdue⟩ := List.mem_filter.mp hslot
      obtain ⟨deadline, hactive⟩ | ⟨time, hended, -⟩ := h.collecting slot hin
      · have hnone := ((h.active _ deadline hactive).2.2 slot hin).2 rfl
        rw [Slot.due, hnone.1] at hdue
        cases hdue
      · exact ⟨time, hended⟩

omit h in
theorem prompt_finalize (ledger : ProbeLedger) : ledger.finalize.Prompt := by
  intro slot hin time htime
  have hdue := (List.mem_filter.mp hin).2
  rw [Slot.due, htime] at hdue
  have hlater : ledger.lastTick < time := by simpa using hdue
  exact hlater

/-- Where nothing is active, every collecting cluster was ended. -/
theorem Sound.ended_of_idle (hidle : ledger.active = none) {slot : Slot}
    (hslot : slot ∈ ledger.slots) :
    ∃ time, ledger.EndedAt slot.cluster time ∧ time ≤ ledger.lastTick ∧
      slot.finalizeAt = some (time + 1000000) ∧
      slot.createdAt + 250000 ≤ time := by
  obtain ⟨deadline, hactive⟩ | ⟨time, hended, hslot⟩ := h.collecting slot hslot
  · rw [hidle] at hactive
    cases hactive
  · exact ⟨time, hended, (h.ended _ time hended).2, hslot⟩

/-- Nothing is active, and the next id is new. -/
theorem Sound.launch {cluster : ℕ} (duration : ℕ) (hidle : ledger.active = none)
    (hfresh : ∀ other ∈ ledger.registered, other < cluster) :
    (ledger.launch cluster duration).Sound := by
  have hin : ∀ slot ∈ ledger.slots, slot.cluster ∈ ledger.registered :=
    fun slot hslot => h.partition.subset
      (List.mem_append_left _ (List.mem_map_of_mem hslot))
  have hnew : cluster ∉ ledger.registered :=
    fun hold => lt_irrefl _ (hfresh cluster hold)
  exact {
    partition := by
      change ((ledger.slots ++ [_]).map Slot.cluster ++ ledger.finalized).Perm
        (ledger.registered ++ [cluster])
      rw [List.map_append, List.append_assoc]
      apply (List.Perm.append_left _ List.perm_append_comm).trans
      rw [← List.append_assoc]
      exact h.partition.append_right _
    distinct := by
      apply h.distinct.append (List.nodup_singleton _)
      exact List.disjoint_singleton.mpr hnew
    ordered := by
      rw [ProbeLedger.launch, List.pairwise_append]
      refine ⟨h.ordered, List.pairwise_singleton _ _, ?_⟩
      intro slot hslot later hlater
      obtain rfl := List.mem_singleton.mp hlater
      obtain ⟨time, -, hpast, hfinalize, hcreated⟩ :=
        h.ended_of_idle hidle hslot
      refine ⟨hfresh _ (hin slot hslot), le_trans hcreated hpast, ?_⟩
      intro limit hlimit
      rw [hfinalize] at hlimit
      obtain rfl := Option.some.inj hlimit
      exact Nat.add_le_add_right hpast _
    active := by
      intro other deadline hactive
      obtain ⟨rfl, rfl⟩ := Prod.mk.inj (Option.some.inj hactive)
      refine ⟨List.mem_append_right _ List.mem_cons_self,
        fun time hended => hnew (h.ended _ time hended).1, ?_⟩
      intro slot hslot
      obtain hslot | hslot := List.mem_append.mp hslot
      · have hlt := hfresh _ (hin slot hslot)
        exact ⟨hlt.le, fun hsame => absurd hsame hlt.ne⟩
      · obtain rfl := List.mem_singleton.mp hslot
        exact ⟨le_rfl, fun _ => ⟨rfl,
          Nat.add_le_add_right (Nat.le_add_right _ _) _⟩⟩
    collecting := by
      intro slot hslot
      obtain hslot | hslot := List.mem_append.mp hslot
      · obtain ⟨time, hended, -, hfinalized⟩ := h.ended_of_idle hidle hslot
        exact Or.inr ⟨time, hended, hfinalized⟩
      · obtain rfl := List.mem_singleton.mp hslot
        exact Or.inl ⟨_, rfl⟩
    ended := fun other time hended =>
      ⟨List.mem_append_left _ (h.ended other time hended).1,
        (h.ended other time hended).2⟩
    finalized := h.finalized }

omit h in
/-- Slots a quarter of a second apart take that long each. -/
theorem createdAt_add_length_le {slot : Slot} {slots : List Slot} {now : ℕ}
    (hordered : (slot :: slots).Pairwise Slot.Before)
    (hpast : ∀ other ∈ slot :: slots, other.createdAt + 250000 ≤ now) :
    slot.createdAt + 250000 * (slots.length + 1) ≤ now := by
  induction slots generalizing slot with
  | nil =>
      rw [List.length_nil, Nat.zero_add, Nat.mul_one]
      exact hpast slot List.mem_cons_self
  | cons next slots ih =>
      obtain ⟨hhead, htail⟩ := List.pairwise_cons.mp hordered
      have hrest := ih htail
        (fun other hin => hpast other (List.mem_cons_of_mem _ hin))
      have hgap := (hhead next List.mem_cons_self).2.1
      calc slot.createdAt + 250000 * ((next :: slots).length + 1)
          = slot.createdAt + 250000 + 250000 * (slots.length + 1) := by
            rw [List.length_cons, Nat.mul_succ, Nat.add_comm _ 250000,
              Nat.add_assoc]
        _ ≤ next.createdAt + 250000 * (slots.length + 1) :=
            Nat.add_le_add_right hgap _
        _ ≤ now := hrest

/-- Where nothing is active, only the clusters of the last second are left. -/
theorem Sound.length_le (hprompt : ledger.Prompt)
    (hidle : ledger.active = none) : ledger.slots.length ≤ 4 := by
  have hordered := h.ordered
  have hended : ∀ slot ∈ ledger.slots, _ :=
    fun slot hslot => h.ended_of_idle hidle hslot
  cases hslots : ledger.slots with
  | nil => exact Nat.zero_le _
  | cons first rest =>
      rw [hslots] at hordered hended
      cases rest with
      | nil => exact Nat.le_add_left 1 3
      | cons second rest =>
          obtain ⟨hhead, htail⟩ := List.pairwise_cons.mp hordered
          obtain ⟨time, -, -, hfinalize, -⟩ :=
            hended first List.mem_cons_self
          have hkept := hprompt first (hslots ▸ List.mem_cons_self) _ hfinalize
          have hlimit := (hhead second List.mem_cons_self).2.2 _ hfinalize
          have hpast : ∀ other ∈ second :: rest,
              other.createdAt + 250000 ≤ ledger.lastTick := by
            intro other hin
            obtain ⟨time, -, hpast, -, hcreated⟩ :=
              hended other (List.mem_cons_of_mem _ hin)
            exact le_trans hcreated hpast
          have hspan := createdAt_add_length_le htail hpast
          rw [List.length_cons, List.length_cons]
          omega

end ProbeLedger

end GameStreamer
