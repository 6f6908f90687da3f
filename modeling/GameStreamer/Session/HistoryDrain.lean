import GameStreamer.Core.SerialOrder
import GameStreamer.Session.SendHistory
import Mathlib.Data.List.TakeWhile

/-!
# Draining the send history across the wrap

Transport numbers are stamped with wrapping addition, and the drain compares
them as plain values.  The two agree as long as the oldest retained record is
on the right side of the mark by value, and the mark is not the greatest value
with a newer record behind it.
-/

namespace GameStreamer.SendHistory

open SerialNumber

/-- What the history keeps of the records pushed on it. -/
def retained (records : List SendRecord) : List SendRecord :=
  records.foldl push []

/-- Stamped one after the other, from any number on. -/
def Consecutive (records : List SendRecord) : Prop :=
  ∃ start, records.map SendRecord.serial =
    List.range' start records.length

/-- The retained records and the mark are within half of the number space. -/
def WithinHalf (records : List SendRecord) (maxSeq : UInt32) : Prop :=
  ∃ base, InHalf base maxSeq ∧ ∀ record ∈ records, InHalf base record.seq

/-- The records up to the mark are taken, in order, and the others left. -/
def DrainsInOrder (records : List SendRecord) (maxSeq : UInt32) : Prop :=
  takeUpto records maxSeq =
    (records.filter fun record => decide (AtOrBefore record.seq maxSeq),
      records.filter fun record => !decide (AtOrBefore record.seq maxSeq))

instance (records : List SendRecord) (maxSeq : UInt32) :
    Decidable (DrainsInOrder records maxSeq) :=
  inferInstanceAs (Decidable (_ = _))

/-- The oldest record is on the same side of the mark by value as in wrap
order, and no record follows a mark of the greatest value. -/
def ValuesInOrder (records : List SendRecord) (maxSeq : UInt32) : Prop :=
  (∀ oldest ∈ records.head?,
      oldest.seq ≤ maxSeq ↔ AtOrBefore oldest.seq maxSeq) ∧
    ¬(maxSeq.toNat = 2 ^ 32 - 1 ∧
      ∃ record ∈ records, ¬AtOrBefore record.seq maxSeq)

theorem window_foldl_push {history records : List SendRecord} {stamped : ℕ}
    (hwindow : Window history stamped)
    (hserials : records.map SendRecord.serial =
      List.range' stamped records.length) :
    Window (records.foldl push history) (stamped + records.length) := by
  induction records generalizing history stamped with
  | nil => exact hwindow
  | cons record records ih =>
      rw [List.map_cons, List.length_cons, List.range'_succ,
        List.cons.injEq] at hserials
      have hrest := ih (hwindow.push hserials.1) hserials.2
      rw [List.foldl_cons, List.length_cons, Nat.add_comm records.length,
        ← Nat.add_assoc]
      exact hrest

/-- However many records were evicted, those that are left are consecutive. -/
theorem window_retained {records : List SendRecord}
    (hconsecutive : Consecutive records) :
    ∃ stamped, Window (retained records) stamped := by
  obtain ⟨start, hserials⟩ := hconsecutive
  have hempty : Window [] start := ⟨rfl, Nat.zero_le _, Nat.zero_le _⟩
  exact ⟨_, window_foldl_push hempty hserials⟩

/-- On a list on which a property holds of a prefix, that prefix is all that
has it. -/
theorem takeWhile_dropWhile_of_pairwise {α : Type*} {p : α → Bool} {l : List α}
    (h : l.Pairwise fun a b => p b = true → p a = true) :
    l.takeWhile p = l.filter p ∧
      l.dropWhile p = l.filter fun a => !p a := by
  induction l with
  | nil => exact ⟨rfl, rfl⟩
  | cons a l ih =>
      obtain ⟨hhead, htail⟩ := List.pairwise_cons.mp h
      by_cases ha : p a = true
      · have ih := ih htail
        rw [List.takeWhile_cons_of_pos ha, List.dropWhile_cons_of_pos ha,
          List.filter_cons_of_pos ha,
          List.filter_cons_of_neg (by simpa using ha),
          ih.1, ih.2]
        exact ⟨rfl, rfl⟩
      · have hnone : ∀ b ∈ l, ¬p b = true := fun b hb hpb => ha (hhead b hb hpb)
        rw [List.takeWhile_cons_of_neg ha, List.dropWhile_cons_of_neg ha,
          List.filter_cons_of_neg ha, List.filter_eq_nil_iff.mpr hnone,
          List.filter_eq_self.mpr]
        · exact ⟨rfl, rfl⟩
        · intro b hb
          rcases List.mem_cons.mp hb with rfl | hin
          · simpa using ha
          · simpa using hnone b hin

/-- The records up to the mark come first. -/
theorem atOrBefore_pairwise {history : List SendRecord} {stamped : ℕ}
    {maxSeq : UInt32} (hwindow : Window history stamped)
    (hhalf : WithinHalf history maxSeq) :
    history.Pairwise fun earlier later =>
      decide (AtOrBefore later.seq maxSeq) = true →
        decide (AtOrBefore earlier.seq maxSeq) = true := by
  obtain ⟨base, hmark, hrecords⟩ := hhalf
  apply hwindow.increasing.imp_of_mem
  intro earlier later hearlier hlater hlt
  rw [decide_eq_true_eq, decide_eq_true_eq,
    atOrBefore_iff (hrecords _ hearlier) hmark,
    atOrBefore_iff (hrecords _ hlater) hmark]
  apply le_trans
  have hfirst := hwindow.recent hearlier
  have hlast := hwindow.recent hlater
  have hcap : history.length ≤ 8192 := hwindow.bounded
  have hplace : place base (wire earlier.serial) < 2 ^ 31 := hrecords _ hearlier
  obtain ⟨distance, hserial⟩ := Nat.exists_eq_add_of_le hlt.le
  have hadd := @place_wire_add base earlier.serial distance (by omega)
  rw [← hserial] at hadd
  exact hadd.symm ▸ Nat.le_add_right _ _

/-- The record after one that the mark reaches is reached by value exactly
when it is in wrap order, unless the mark is the greatest value. -/
theorem le_succ_iff {serial : ℕ} {maxSeq : UInt32}
    (hle : wire serial ≤ maxSeq) (hbefore : AtOrBefore (wire serial) maxSeq)
    (hmax : ¬(maxSeq.toNat = 2 ^ 32 - 1 ∧
      ¬AtOrBefore (wire (serial + 1)) maxSeq)) :
    wire (serial + 1) ≤ maxSeq ↔ AtOrBefore (wire (serial + 1)) maxSeq := by
  have hbound := maxSeq.toNat_lt
  simp only [AtOrBefore, UInt32.le_iff_toNat_le, UInt32.toNat_sub,
    toNat_wire] at *
  omega

theorem Consecutive.tail {record : SendRecord} {rest : List SendRecord}
    (h : Consecutive (record :: rest)) :
    Consecutive rest ∧
      ∀ next ∈ rest.head?, next.serial = record.serial + 1 := by
  obtain ⟨start, hserials⟩ := h
  rw [List.map_cons, List.length_cons, List.range'_succ,
    List.cons.injEq] at hserials
  obtain ⟨hstart, hserials⟩ := hserials
  refine ⟨⟨_, hserials⟩, ?_⟩
  intro next hnext
  cases rest with
  | nil => cases hnext
  | cons other rest =>
      obtain rfl := Option.some.inj hnext
      rw [List.map_cons, List.length_cons, List.range'_succ,
        List.cons.injEq] at hserials
      rw [hserials.1, hstart]

/-- Behind a record that the mark reaches, the next one is the oldest. -/
theorem ValuesInOrder.tail {record : SendRecord} {rest : List SendRecord}
    {maxSeq : UInt32} (h : ValuesInOrder (record :: rest) maxSeq)
    (hconsecutive : Consecutive (record :: rest))
    (hle : record.seq ≤ maxSeq) : ValuesInOrder rest maxSeq := by
  obtain ⟨hhead, hmax⟩ := h
  have hbefore : AtOrBefore record.seq maxSeq := (hhead record rfl).mp hle
  constructor
  · intro next hnext
    have hserial := hconsecutive.tail.2 next hnext
    rw [SendRecord.seq, hserial]
    apply le_succ_iff hle hbefore
    rintro ⟨hgreatest, hafter⟩
    apply hmax
    refine ⟨hgreatest, next, ?_, ?_⟩
    · exact List.mem_cons_of_mem _ (List.mem_of_mem_head? hnext)
    · rwa [SendRecord.seq, hserial]
  · rintro ⟨hgreatest, next, hnext, hafter⟩
    exact hmax ⟨hgreatest, next, List.mem_cons_of_mem _ hnext, hafter⟩

/-- From the oldest record on, values and wrap order stop at one record. -/
theorem takeWhile_values {history : List SendRecord} {maxSeq : UInt32}
    (hconsecutive : Consecutive history)
    (hvalues : ValuesInOrder history maxSeq) :
    (history.takeWhile fun record => decide (record.seq ≤ maxSeq)) =
        history.takeWhile
          (fun record => decide (AtOrBefore record.seq maxSeq)) ∧
      (history.dropWhile fun record => decide (record.seq ≤ maxSeq)) =
        history.dropWhile
          fun record => decide (AtOrBefore record.seq maxSeq) := by
  induction history with
  | nil => exact ⟨rfl, rfl⟩
  | cons record rest ih =>
      have hsame : record.seq ≤ maxSeq ↔ AtOrBefore record.seq maxSeq :=
        hvalues.1 record rfl
      by_cases hle : record.seq ≤ maxSeq
      · have hbefore := hsame.mp hle
        obtain ⟨htake, hdrop⟩ := ih hconsecutive.tail.1
          (hvalues.tail hconsecutive hle)
        rw [List.takeWhile_cons_of_pos (by simpa using hle),
          List.takeWhile_cons_of_pos (by simpa using hbefore),
          List.dropWhile_cons_of_pos (by simpa using hle),
          List.dropWhile_cons_of_pos (by simpa using hbefore), htake, hdrop]
        exact ⟨rfl, rfl⟩
      · have hafter := mt hsame.mpr hle
        rw [List.takeWhile_cons_of_neg (by simpa using hle),
          List.takeWhile_cons_of_neg (by simpa using hafter),
          List.dropWhile_cons_of_neg (by simpa using hle),
          List.dropWhile_cons_of_neg (by simpa using hafter)]
        exact ⟨rfl, rfl⟩

theorem Window.consecutive {history : List SendRecord} {stamped : ℕ}
    (hwindow : Window history stamped) : Consecutive history :=
  ⟨_, hwindow.serials⟩

/-- The drain is right in wrap order exactly when the values of the oldest
record and of the mark are in order. -/
theorem Window.drainsInOrder_iff {history : List SendRecord} {stamped : ℕ}
    {maxSeq : UInt32} (hwindow : Window history stamped)
    (hhalf : WithinHalf history maxSeq) :
    DrainsInOrder history maxSeq ↔ ValuesInOrder history maxSeq := by
  have hprefix := takeWhile_dropWhile_of_pairwise
    (atOrBefore_pairwise hwindow hhalf)
  constructor
  · intro hdrains
    have htaken := congrArg Prod.fst hdrains
    rw [← hprefix.1] at htaken
    simp only [takeUpto] at htaken
    constructor
    · intro oldest holdest
      cases history with
      | nil => cases holdest
      | cons record rest =>
          obtain rfl := Option.some.inj holdest
          rw [List.takeWhile_cons, List.takeWhile_cons] at htaken
          by_cases hle : record.seq ≤ maxSeq
          · by_cases hbefore : AtOrBefore record.seq maxSeq
            · exact iff_of_true hle hbefore
            · simp [hle, hbefore] at htaken
          · by_cases hbefore : AtOrBefore record.seq maxSeq
            · simp [hle, hbefore] at htaken
            · exact iff_of_false hle hbefore
    · rintro ⟨hgreatest, record, hrecord, hafter⟩
      have hall : ∀ record ∈ history, decide (record.seq ≤ maxSeq) = true := by
        intro record _
        have hbound := record.seq.toNat_lt
        rw [decide_eq_true_eq, UInt32.le_iff_toNat_le]
        omega
      rw [List.takeWhile_eq_self_iff.mpr hall, hprefix.1] at htaken
      rw [htaken] at hrecord
      exact hafter (of_decide_eq_true (List.mem_filter.mp hrecord).2)
  · intro hvalues
    obtain ⟨htake, hdrop⟩ := takeWhile_values hwindow.consecutive hvalues
    rw [DrainsInOrder, takeUpto, htake, hdrop, hprefix.1, hprefix.2]

/-- Over all records pushed, however many were evicted, `take_upto` takes the
retained ones up to the mark and leaves the rest exactly when the oldest one's
value is on the right side of the mark's, and nothing follows a mark of the
greatest value. -/
theorem drainsInOrder_retained_iff (records : List SendRecord)
    (maxSeq : UInt32) (hconsecutive : Consecutive records)
    (hhalf : WithinHalf (retained records) maxSeq) :
    DrainsInOrder (retained records) maxSeq ↔
      ValuesInOrder (retained records) maxSeq := by
  obtain ⟨stamped, hwindow⟩ := window_retained hconsecutive
  exact hwindow.drainsInOrder_iff hhalf

/-- Records stamped from a number on. -/
def stampedFrom (start count : ℕ) : List SendRecord :=
  (List.range' start count).map fun serial =>
    { serial := serial, sentUs := 0, bytes := 1200, padding := false
      cluster := none }

theorem drainsInOrder_retained_early :
    DrainsInOrder (retained (stampedFrom 0 4)) 1 ↔
      ValuesInOrder (retained (stampedFrom 0 4)) 1 :=
  drainsInOrder_retained_iff _ _ ⟨0, by decide +kernel⟩
    ⟨0, by decide, by decide +kernel⟩

/-- Four records on both sides of the wrap, and a mark that covers them all:
nothing is taken. -/
theorem drainsInOrder_retained_wrapped :
    Consecutive (stampedFrom (2 ^ 32 - 2) 4) ∧
      WithinHalf (retained (stampedFrom (2 ^ 32 - 2) 4)) 1 ∧
      takeUpto (retained (stampedFrom (2 ^ 32 - 2) 4)) 1 =
        ([], stampedFrom (2 ^ 32 - 2) 4) ∧
      ¬DrainsInOrder (retained (stampedFrom (2 ^ 32 - 2) 4)) 1 := by
  refine ⟨⟨2 ^ 32 - 2, by decide +kernel⟩, ⟨2 ^ 32 - 2, ?_, ?_⟩, ?_, ?_⟩
  · decide
  · decide +kernel
  · decide +kernel
  · decide +kernel

end GameStreamer.SendHistory
