import GameStreamer.Session.BweDriver
import GameStreamer.Session.Trendline
import Mathlib.Algebra.Order.Ring.Rat
import Mathlib.Data.List.Sort

/-!
# From feedback to the overuse signal

The delay controller takes each feedback report, keeps the packets that
arrived, sorts them by receive time and feeds them to the groups; every delta
that a group completes goes to the trendline.  This module puts the two halves
together and states what holds of the whole path from the reports.
-/

namespace GameStreamer

variable {Millis F : Type*} [LinearOrder Millis] (ops : FloatOps Millis F)

namespace AckedPacket

/-- The records of lost packets are no acknowledged packets.  The driver's
instants are microseconds. -/
def ofRecord (record : TwccSendRecord) : Option AckedPacket :=
  record.received.map fun (localRecvTime, remoteRecvTime) => {
    seqNo := record.record.seq.toNat
    size := min record.record.bytes.toNat 65535
    localSendTime := record.sentAt * 1000
    remoteRecvTime := remoteRecvTime * 1000
    localRecvTime := localRecvTime * 1000 }

/-- By receive time, then send time, then sequence number. -/
def orderByReceiveTime (lhs rhs : AckedPacket) : Ordering :=
  if lhs.remoteRecvTime ≠ rhs.remoteRecvTime then
    compare lhs.remoteRecvTime rhs.remoteRecvTime
  else if lhs.localSendTime ≠ rhs.localSendTime then
    compare lhs.localSendTime rhs.localSendTime
  else compare lhs.seqNo rhs.seqNo

def sortByReceiveTime (packets : List AckedPacket) : List AckedPacket :=
  packets.insertionSort fun lhs rhs => lhs.orderByReceiveTime rhs ≠ .gt

end AckedPacket

/-- The parts of the delay controller that look at packets: the grouping of
arrivals and the trendline over the groups. -/
structure DelayDetector (Millis F : Type*) where
  arrivalGroupAccumulator : ArrivalGroupAccumulator
  trendlineEstimator : TrendlineEstimator Millis F
  deriving DecidableEq, Repr

namespace DelayDetector

def trendlineWindow : ℕ := 20

def new : DelayDetector Millis F where
  arrivalGroupAccumulator := .default
  trendlineEstimator := .new ops trendlineWindow

/-- The body of the loop over the acknowledged packets; nothing is a panic. -/
def accumulate (detector : DelayDetector Millis F) (packet : AckedPacket) :
    Option (DelayDetector Millis F) :=
  match detector.arrivalGroupAccumulator.accumulatePacket packet with
  | none => none
  | some (none, accumulator) =>
      some { detector with arrivalGroupAccumulator := accumulator }
  | some (some delta, accumulator) =>
      (detector.trendlineEstimator.addDelayObservation ops delta
        delta.lastRemoteRecvTime).map fun trendline => {
          arrivalGroupAccumulator := accumulator
          trendlineEstimator := trendline }

/-- One feedback report: its acknowledged packets are sorted by receive time
and fed to the groups one by one. -/
def update (detector : DelayDetector Millis F)
    (records : List TwccSendRecord) : Option (DelayDetector Millis F) :=
  (AckedPacket.sortByReceiveTime
    (records.filterMap AckedPacket.ofRecord)).foldlM (accumulate ops) detector

/-- The packets of all reports in the order in which they are looked at. -/
def packetsOf (reports : List (List TwccSendRecord)) : List AckedPacket :=
  reports.flatMap fun records => AckedPacket.sortByReceiveTime
    (records.filterMap AckedPacket.ofRecord)

theorem foldlM_update (detector : DelayDetector Millis F)
    (reports : List (List TwccSendRecord)) :
    reports.foldlM (update ops) detector =
      (packetsOf reports).foldlM (accumulate ops) detector := by
  induction reports generalizing detector with
  | nil => rfl
  | cons records reports ih =>
      rw [packetsOf, List.flatMap_cons, List.foldlM_append, List.foldlM_cons]
      exact bind_congr fun next => ih next

/-- The groups do not hear of the trendline, so they can run ahead. -/
theorem foldlM_accumulate (detector : DelayDetector Millis F)
    (packets : List AckedPacket) (deltas : List InterGroupDelayDelta)
    (accumulator : ArrivalGroupAccumulator)
    (hrun : detector.arrivalGroupAccumulator.accumulateAll packets =
      some (deltas, accumulator)) :
    packets.foldlM (accumulate ops) detector =
      (detector.trendlineEstimator.observeAll ops deltas).map fun trendline =>
        { arrivalGroupAccumulator := accumulator
          trendlineEstimator := trendline } := by
  induction packets generalizing detector deltas with
  | nil =>
      rw [ArrivalGroupAccumulator.accumulateAll, Option.some.injEq,
        Prod.mk.injEq] at hrun
      obtain ⟨rfl, rfl⟩ := hrun
      rfl
  | cons packet packets ih =>
      rw [ArrivalGroupAccumulator.accumulateAll] at hrun
      simp only [Option.bind_eq_bind, Option.bind_eq_some_iff] at hrun
      obtain ⟨⟨delta, next⟩, hstep, ⟨rest, final⟩, hrest, hsome⟩ := hrun
      rw [Option.some.injEq, Prod.mk.injEq] at hsome
      obtain ⟨rfl, rfl⟩ := hsome
      rw [List.foldlM_cons, accumulate, hstep]
      cases delta with
      | none => exact ih _ rest hrest
      | some delta =>
          rw [Option.toList_some, List.singleton_append,
            TrendlineEstimator.observeAll]
          dsimp only
          cases hnext : detector.trendlineEstimator.addDelayObservation ops
              delta delta.lastRemoteRecvTime with
          | none => rfl
          | some trendline =>
              exact ih ⟨next, trendline⟩ rest hrest

/-- The deltas of all reports. -/
def deltasOf (reports : List (List TwccSendRecord)) :
    List InterGroupDelayDelta :=
  (PacketPartition.ofPackets (packetsOf reports)).deltas

theorem foldlM_update_new (reports : List (List TwccSendRecord)) :
    reports.foldlM (update ops) (new ops : DelayDetector Millis F) =
      ((new ops : DelayDetector Millis F).trendlineEstimator.observeAll ops
        (deltasOf reports)).map fun trendline =>
          { arrivalGroupAccumulator :=
              (PacketPartition.ofPackets (packetsOf reports)).summary
            trendlineEstimator := trendline } := by
  rw [foldlM_update]
  exact foldlM_accumulate ops (new ops) _ _ _
    (PacketPartition.accumulateAll_eq _)

/-- Whatever feedback arrives, no assertion of the detector fails, and its
line is fitted to the group deltas that arrived last, in the order of their
arrival. -/
theorem foldlM_update_history (reports : List (List TwccSendRecord)) :
    ∃ detector, reports.foldlM (update ops)
        (new ops : DelayDetector Millis F) = some detector ∧
      detector.trendlineEstimator.history =
        SortedWindow.lastOf trendlineWindow
          (SortedWindow.sorted TrendlineEstimator.NotAfter
            ((new ops : DelayDetector Millis F).trendlineEstimator.smoothing
              |>.recorded ops (deltasOf reports))) := by
  obtain ⟨trendline, hrun, hhistory⟩ :=
    TrendlineEstimator.observeAll_history ops trendlineWindow (by decide)
      (deltasOf reports)
  have hupdate := foldlM_update_new ops reports
  rw [new, hrun, Option.map_some] at hupdate
  exact ⟨_, hupdate, hhistory⟩

/-- The delay controller signals overuse only on a streak of detections over
the threshold that has lasted long enough and has not let up since. -/
theorem foldlM_update_overuse (reports : List (List TwccSendRecord))
    (detector : DelayDetector Millis F)
    (hrun : reports.foldlM (update ops) (new ops) = some detector)
    (hoveruse : detector.trendlineEstimator.hypothesis = .overuse) :
    TrendlineEstimator.Sustained
      ((new ops : DelayDetector Millis F).trendlineEstimator.detections ops
        (deltasOf reports)) := by
  rw [foldlM_update_new, Option.map_eq_some_iff] at hrun
  obtain ⟨trendline, hrun, rfl⟩ := hrun
  exact TrendlineEstimator.sustained_of_overuse ops trendlineWindow
    (deltasOf reports) trendline hrun hoveruse

/-- Exact arithmetic. -/
def exactOps : FloatOps ℚ ℚ where
  millis := fun delta => delta.toInt / 1000000
  ofMillis := id
  lit := id
  ofNat := fun count => count
  add := fun left right => left + right
  sub := fun left right => left - right
  mul := fun left right => left * right
  div := fun left right => left / right
  neg := fun value => -value
  abs := fun value => if value < 0 then -value else value
  square := fun value => value * value
  min := fun left right => if left ≤ right then left else right
  clamp := fun value low high =>
    if value < low then low else if high < value then high else value
  lt := fun left right => decide (left < right)
  eq := fun left right => decide (left = right)

/-- Packets that are sent every ten milliseconds and arrive every fifteen,
each reported on its own. -/
def slowingReports (count : ℕ) : List (List TwccSendRecord) :=
  (List.range count).map fun serial => [{
    record := {
      serial := serial
      sentUs := serial * 10000
      bytes := 1200
      padding := false
      cluster := none }
    sentAt := serial * 10000
    received := some (serial * 15000 + 40000, serial * 15000 + 20000) }]

theorem foldlM_update_overuse_slowing :
    TrendlineEstimator.Sustained
      ((new exactOps).trendlineEstimator.detections exactOps
        (deltasOf (slowingReports 24))) := by
  have hrun : ((slowingReports 24).foldlM (update exactOps)
      (new exactOps)).map (·.trendlineEstimator.hypothesis) =
        some .overuse := by decide +kernel
  rw [Option.map_eq_some_iff] at hrun
  obtain ⟨detector, hrun, hoveruse⟩ := hrun
  exact foldlM_update_overuse exactOps (slowingReports 24) detector hrun
    hoveruse

end DelayDetector

end GameStreamer
