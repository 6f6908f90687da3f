import GameStreamer.Core.Media
import GameStreamer.Protocol.Control
import Mathlib.Data.List.Range
import Mathlib.Data.UInt

/-!
# Arrivals at the client

The receive task notes every sequenced datagram, asks again for the ones that
a gap in send order shows missing, and acknowledges the arrivals in batches.
A budget limits what is requested in a second.  Clock readings are
microseconds, and a writer that is gone takes requests and batches with it.
-/

namespace GameStreamer

/-- The feedback fields of the receive task: what has arrived and was not
acknowledged yet, and what was requested. -/
structure Receiver where
  /-- Arrival samples for the next batch. -/
  feedbackBatch : List (UInt32 × ℕ)
  lastFeedbackUs : ℕ
  /-- Highest transport seq seen. -/
  highestSeq : Option UInt32
  /-- Recently requested seqs, each of which is requested once. -/
  nacked : List UInt32
  /-- Start of the budget window, and the seqs requested in it. -/
  nackWindow : ℕ × ℕ
  deriving DecidableEq, Repr

namespace Receiver

def feedbackIntervalUs : ℕ := 50000
def maxBatch : ℕ := 512
def nackBudgetPerSec : ℕ := 150

def new : Receiver where
  feedbackBatch := []
  lastFeedbackUs := 0
  highestSeq := none
  nacked := []
  nackWindow := (0, 0)

/-- Remember a requested seq, forgetting the oldest of 512. -/
def remember (nacked : List UInt32) (seq : UInt32) : List UInt32 :=
  (if nacked.length = 512 then nacked.tail else nacked) ++ [seq]

/-- The seqs between `high` and the one `ahead` of it that were not requested
yet, within the budget. -/
def missing (receiver : Receiver) (high ahead : UInt32) (budget : ℕ) :
    List UInt32 :=
  (((List.range' 1 (ahead.toNat - 1)).map fun i =>
      high + UInt32.ofNat i).filter fun seq =>
    !receiver.nacked.contains seq).take budget

/-- A gap in send order is loss (or reordering): request what is missing.  Only
a gap of up to 64 is looked at, within the budget of the second. -/
def detectGap (receiver : Receiver) (seq : UInt32) (now : ℕ) :
    Receiver × List UInt32 :=
  match receiver.highestSeq with
  | none => ({ receiver with highestSeq := some seq }, [])
  | some high =>
      let ahead := seq - high
      let (receiver, missing) : Receiver × List UInt32 :=
        if 1 < ahead ∧ ahead ≤ 64 then
          let nackWindow := if 1000000 ≤ now - receiver.nackWindow.1
            then (now, 0) else receiver.nackWindow
          let missing := receiver.missing high ahead
            (nackBudgetPerSec - nackWindow.2)
          ({ receiver with
              nacked := missing.foldl remember receiver.nacked
              nackWindow := (nackWindow.1, nackWindow.2 + missing.length) },
            missing)
        else (receiver, [])
      ({ receiver with
          highestSeq :=
            if 1 ≤ ahead ∧ ahead < halfRange then some seq else some high },
        missing)

/-- The batch as a message, with times relative to its first sample. -/
def batchMessage (batch : List (UInt32 × ℕ)) (now : ℕ) : PacketFeedback :=
  let base := (batch.head?.map Prod.snd).getD now
  { baseArrivalUs := base
    samples := batch.map fun sample =>
      (sample.1, UInt32.ofNat (sample.2 - base)) }

/-- Record one datagram's arrival and flush the batch when it is due.  Without
a control writer the requests and the batch are dropped. -/
def recordArrival (receiver : Receiver) (seq : UInt32) (now : ℕ)
    (writer : Bool) : Receiver × List UInt32 × Option PacketFeedback :=
  let batch := receiver.feedbackBatch ++ [(seq, now)]
  let (receiver, missing) := detectGap
    { receiver with feedbackBatch := batch } seq now
  let nack := if writer then missing else []
  if batch.length < maxBatch ∧
      now - receiver.lastFeedbackUs < feedbackIntervalUs then
    (receiver, nack, none)
  else
    ({ receiver with feedbackBatch := [], lastFeedbackUs := now }, nack,
      if writer then some (batchMessage batch now) else none)

@[simp]
theorem feedbackBatch_detectGap (receiver : Receiver) (seq : UInt32)
    (now : ℕ) :
    (receiver.detectGap seq now).1.feedbackBatch = receiver.feedbackBatch := by
  rw [detectGap]
  split
  · rfl
  · dsimp only
    split_ifs <;> rfl

/-- The batch keeps the new sample, or is emptied and sent whole if anything
is sent. -/
theorem recordArrival_cases (receiver : Receiver) (seq : UInt32) (now : ℕ)
    (writer : Bool) :
    ((receiver.recordArrival seq now writer).1.feedbackBatch =
        receiver.feedbackBatch ++ [(seq, now)] ∧
      (receiver.recordArrival seq now writer).2.2 = none) ∨
    ((receiver.recordArrival seq now writer).1.feedbackBatch = [] ∧
      ∀ batch ∈ (receiver.recordArrival seq now writer).2.2,
        batch = batchMessage (receiver.feedbackBatch ++ [(seq, now)]) now) := by
  have hkept := feedbackBatch_detectGap
    { receiver with feedbackBatch := receiver.feedbackBatch ++ [(seq, now)] }
    seq now
  simp only [recordArrival]
  split_ifs
  · exact Or.inl ⟨hkept, rfl⟩
  · exact Or.inl ⟨hkept, rfl⟩
  · exact Or.inr ⟨rfl, fun batch hbatch => (Option.some.inj hbatch).symm⟩
  · exact Or.inr ⟨rfl, nofun⟩

@[simp]
theorem length_samples_batchMessage (batch : List (UInt32 × ℕ)) (now : ℕ) :
    (batchMessage batch now).samples.length = batch.length :=
  List.length_map _

end Receiver

end GameStreamer
