import GameStreamer.Core.SerialNumber
import Mathlib.Data.List.Pairwise

/-!
# The send history

Every datagram is stamped with a wrapping sequence number and recorded before
it is sent.  The feedback join later drains the records that a batch covers
from the front of this bounded queue.  The drain compares the truncated
numbers, where a record here also keeps the number that was truncated.
-/

namespace GameStreamer

open SerialNumber

/-- One sent datagram's bookkeeping: when it was sent, its size, and the probe
cluster that it belongs to, if any. -/
structure SendRecord where
  /-- How many datagrams were stamped before this one; the code keeps only its
  truncation. -/
  serial : ℕ
  sentUs : ℕ
  bytes : UInt32
  padding : Bool
  cluster : Option ℕ
  deriving DecidableEq, Repr

/-- The transport sequence number. -/
abbrev SendRecord.seq (record : SendRecord) : UInt32 := wire record.serial

namespace SendHistory

def cap : ℕ := 8192

/-- Record a datagram, dropping the oldest record of a full history. -/
def push (history : List SendRecord) (record : SendRecord) :
    List SendRecord :=
  (if history.length = cap then history.tail else history) ++ [record]

/-- The records that `take_upto` returns, and those it leaves.  It stops at the
first record above the mark by value. -/
def takeUpto (history : List SendRecord) (maxSeq : UInt32) :
    List SendRecord × List SendRecord :=
  (history.takeWhile fun record => decide (record.seq ≤ maxSeq),
    history.dropWhile fun record => decide (record.seq ≤ maxSeq))

/-- No record at or before this one is above the high-water mark. -/
def Reached (history : List SendRecord) (maxSeq : UInt32)
    (record : SendRecord) : Prop :=
  ∀ earlier ∈ history, earlier.serial ≤ record.serial → earlier.seq ≤ maxSeq

instance (history : List SendRecord) (maxSeq : UInt32) (record : SendRecord) :
    Decidable (Reached history maxSeq record) :=
  inferInstanceAs (Decidable (∀ _ ∈ _, _))

/-- The history holds the last records that were stamped, without a hole, and
never more than `cap` of them. -/
structure Window (history : List SendRecord) (stamped : ℕ) : Prop where
  serials : history.map SendRecord.serial =
    List.range' (stamped - history.length) history.length
  available : history.length ≤ stamped
  bounded : history.length ≤ cap

theorem window_nil : Window [] 0 := ⟨rfl, Nat.le_refl 0, Nat.zero_le _⟩

theorem Window.increasing {history : List SendRecord} {stamped : ℕ}
    (hwindow : Window history stamped) :
    history.Pairwise (·.serial < ·.serial) := by
  have hrange : (List.range' (stamped - history.length)
      history.length).Pairwise (· < ·) := List.pairwise_lt_range'
  rwa [← hwindow.serials, List.pairwise_map] at hrange

theorem Window.recent {history : List SendRecord} {stamped : ℕ}
    (hwindow : Window history stamped) {record : SendRecord}
    (hrecord : record ∈ history) :
    record.serial < stamped ∧ stamped ≤ record.serial + history.length := by
  have hmem : record.serial ∈ history.map SendRecord.serial :=
    List.mem_map_of_mem hrecord
  rw [hwindow.serials, List.mem_range'_1] at hmem
  have := hwindow.available
  omega

/-- Dropping records at the front leaves a window. -/
theorem Window.suffix {front back : List SendRecord} {stamped : ℕ}
    (hwindow : Window (front ++ back) stamped) : Window back stamped := by
  have hserials := hwindow.serials
  have havailable := hwindow.available
  have hbounded := hwindow.bounded
  rw [List.length_append] at hserials havailable hbounded
  refine ⟨?_, by omega, by omega⟩
  rw [List.map_append, ← List.range'_append_1] at hserials
  have hback := (List.append_inj hserials (by simp)).2
  rw [hback]
  congr 1
  omega

theorem Window.concat {history : List SendRecord} {stamped : ℕ}
    (hwindow : Window history stamped) (hroom : history.length < cap)
    {record : SendRecord} (hserial : record.serial = stamped) :
    Window (history ++ [record]) (stamped + 1) := by
  have havailable := hwindow.available
  refine ⟨?_, by simpa using havailable,
    by simpa using Nat.succ_le_of_lt hroom⟩
  rw [List.map_append, hwindow.serials, List.length_append,
    List.length_singleton, List.range'_1_concat]
  congr 2
  · omega
  · simp only [List.map_cons, List.map_nil, hserial]
    congr 1
    omega

theorem Window.push {history : List SendRecord} {stamped : ℕ}
    (hwindow : Window history stamped) {record : SendRecord}
    (hserial : record.serial = stamped) :
    Window (SendHistory.push history record) (stamped + 1) := by
  rw [SendHistory.push]
  split
  case isTrue hfull =>
      cases history with
      | nil => exact hwindow.concat (by simp [cap]) hserial
      | cons oldest rest =>
          have hrest : Window rest stamped :=
            Window.suffix (show Window ([oldest] ++ rest) stamped from hwindow)
          refine hrest.concat ?_ hserial
          rw [List.length_cons] at hfull
          exact Nat.lt_of_succ_le hfull.le
  case isFalse hroom =>
      exact hwindow.concat (lt_of_le_of_ne hwindow.bounded hroom) hserial

/-- Records of one window are told apart by their truncated numbers. -/
theorem Window.seq_injOn {history : List SendRecord} {stamped : ℕ}
    (hwindow : Window history stamped) {left right : SendRecord}
    (hleft : left ∈ history) (hright : right ∈ history)
    (hseq : left.seq = right.seq) : left.serial = right.serial := by
  have hl := hwindow.recent hleft
  have hr := hwindow.recent hright
  have hcap : history.length ≤ 8192 := hwindow.bounded
  rcases Nat.le_total left.serial right.serial with hle | hle
  · exact wire_injOn hle (by omega) hseq
  · exact (wire_injOn hle (by omega) hseq.symm).symm

/-- `take_upto` drains exactly the records that the high-water mark
reaches. -/
theorem mem_takeUpto_iff {history : List SendRecord} {maxSeq : UInt32}
    (hincreasing : history.Pairwise (·.serial < ·.serial))
    {record : SendRecord} :
    record ∈ (takeUpto history maxSeq).1 ↔
      record ∈ history ∧ Reached history maxSeq record := by
  induction history with
  | nil => simp [takeUpto]
  | cons first rest ih =>
      obtain ⟨hfirst, hrest⟩ := List.pairwise_cons.mp hincreasing
      have ih := ih hrest
      simp only [takeUpto, List.takeWhile_cons, Reached] at ih ⊢
      by_cases hmax : first.seq ≤ maxSeq
      · rw [if_pos (by simpa using hmax), List.mem_cons, List.mem_cons, ih]
        constructor
        · rintro (rfl | ⟨hmem, hreached⟩)
          · refine ⟨Or.inl rfl, fun earlier hearlier hle => ?_⟩
            rcases List.mem_cons.mp hearlier with rfl | hin
            · exact hmax
            · exact absurd (hfirst earlier hin) (Nat.not_lt.mpr hle)
          · refine ⟨Or.inr hmem, fun earlier hearlier hle => ?_⟩
            rcases List.mem_cons.mp hearlier with rfl | hin
            · exact hmax
            · exact hreached earlier hin hle
        · rintro ⟨rfl | hmem, hreached⟩
          · exact Or.inl rfl
          · exact Or.inr ⟨hmem, fun earlier hin =>
              hreached earlier (List.mem_cons_of_mem _ hin)⟩
      · rw [if_neg (by simpa using hmax)]
        refine iff_of_false List.not_mem_nil ?_
        rintro ⟨hmem, hreached⟩
        refine hmax (hreached first List.mem_cons_self ?_)
        rcases List.mem_cons.mp hmem with rfl | hin
        · exact Nat.le_refl _
        · exact (hfirst record hin).le

/-- A mark below the oldest record drains nothing. -/
theorem takeUpto_of_lt {history : List SendRecord} {maxSeq : UInt32}
    (hlt : ∀ record ∈ history.head?, maxSeq < record.seq) :
    (takeUpto history maxSeq).2 = history := by
  cases history with
  | nil => rfl
  | cons first rest =>
      have hfirst : ¬first.seq ≤ maxSeq :=
        UInt32.not_le.mpr (hlt first rfl)
      rw [takeUpto, List.dropWhile_cons_of_neg (by simpa using hfirst)]

theorem takeUpto_append (history : List SendRecord) (maxSeq : UInt32) :
    (takeUpto history maxSeq).1 ++ (takeUpto history maxSeq).2 = history :=
  List.takeWhile_append_dropWhile

end SendHistory

end GameStreamer
