import GameStreamer.Core.SortedWindow
import GameStreamer.Session.ArrivalGroups
import Mathlib.Data.Rat.Defs

/-!
# The trendline detector

The detector fits a line to the smoothed delay over the last twenty group
arrivals and compares its slope with an adaptive threshold.  The arithmetic is
that of 64-bit floats, which stays a parameter here: nothing below depends on
how it rounds.  What does not depend on it is the bookkeeping: which
observations the line is fitted to, and what it takes to call the link
overused.
-/

namespace GameStreamer

/-- The float arithmetic of the detector.  Milliseconds that come from a time
delta are never undefined, so they have a type of their own, with an order. -/
structure FloatOps (Millis F : Type*) where
  /-- `as_secs_f64() * 1000.0`. -/
  millis : TimeDelta → Millis
  ofMillis : Millis → F
  lit : ℚ → F
  ofNat : ℕ → F
  add : F → F → F
  sub : F → F → F
  mul : F → F → F
  div : F → F → F
  neg : F → F
  abs : F → F
  /-- `powi(2)`. -/
  square : F → F
  min : F → F → F
  clamp : F → F → F → F
  lt : F → F → Bool
  eq : F → F → Bool

inductive BandwidthUsage where
  | overuse
  | normal
  | underuse
  deriving DecidableEq, Repr

structure Timing (Millis F : Type*) where
  remoteRecvTimeMs : Millis
  smoothedDelayMs : F
  deriving DecidableEq, Repr

structure Overuse where
  count : ℕ
  timeOverusing : TimeDelta
  deriving DecidableEq, Repr

/-- The delay detector: the recent deltas with their smoothed accumulated
delay, the threshold that adapts to their slope, and the streak of detections
over it. -/
structure TrendlineEstimator (Millis F : Type*) where
  windowSize : ℕ
  zeroTime : Option ℕ
  history : List (Timing Millis F)
  numDelayVariations : ℕ
  accumulatedDelay : F
  smoothedDelay : F
  delayThreshold : F
  previousTrend : F
  overuse : Option Overuse
  lastThresholdUpdate : Option ℕ
  hypothesis : BandwidthUsage
  deriving DecidableEq, Repr

variable {Millis F : Type*} [LinearOrder Millis] (ops : FloatOps Millis F)

namespace TrendlineEstimator

def smoothingCoef : ℚ := 9 / 10
def overUseThresholdDefaultMs : ℚ := 125 / 10
def overUseTimeThreshold : ℕ := 10000000
def maxAdoptOffsetMs : ℚ := 15
def thresholdGain : ℚ := 4
def kUp : ℚ := 87 / 10000
def kDown : ℚ := 39 / 1000
def delayCountStart : ℕ := 60
def delayCountEnd : ℕ := 1000

def new (windowSize : ℕ) : TrendlineEstimator Millis F where
  windowSize := windowSize
  zeroTime := none
  history := []
  numDelayVariations := 0
  accumulatedDelay := ops.lit 0
  smoothedDelay := ops.lit 0
  delayThreshold := ops.lit overUseThresholdDefaultMs
  previousTrend := ops.lit 0
  overuse := none
  lastThresholdUpdate := none
  hypothesis := .normal

/-- The entries are kept in the order of these times. -/
def NotAfter (timing other : Timing Millis F) : Prop :=
  timing.remoteRecvTimeMs ≤ other.remoteRecvTimeMs

instance decidableNotAfter :
    DecidableRel (NotAfter : Timing Millis F → Timing Millis F → Prop) :=
  fun timing other =>
    inferInstanceAs
      (Decidable (timing.remoteRecvTimeMs ≤ other.remoteRecvTimeMs))

def doAddToHistory (estimator : TrendlineEstimator Millis F)
    (variation : InterGroupDelayDelta) : TrendlineEstimator Millis F :=
  let zeroTime := estimator.zeroTime.getD variation.lastRemoteRecvTime
  let delayDelta :=
    ops.sub (ops.ofMillis (ops.millis variation.arrivalDelta))
      (ops.ofMillis (ops.millis variation.sendDelta))
  let accumulatedDelay := ops.add estimator.accumulatedDelay delayDelta
  let smoothedDelay :=
    ops.add (ops.mul estimator.smoothedDelay (ops.lit smoothingCoef))
      (ops.mul (ops.sub (ops.lit 1) (ops.lit smoothingCoef))
        accumulatedDelay)
  let timing : Timing Millis F := {
    remoteRecvTimeMs := ops.millis
      ((Timestamp.exact variation.lastRemoteRecvTime).sub (.exact zeroTime))
    smoothedDelayMs := smoothedDelay }
  -- the position is counted from the back; nothing found means all of it
  let pos := estimator.history.reverse.findIdx fun other =>
    decide (NotAfter other timing)
  { estimator with
    zeroTime := some zeroTime
    numDelayVariations := min (estimator.numDelayVariations + 1) delayCountEnd
    accumulatedDelay := accumulatedDelay
    smoothedDelay := smoothedDelay
    history := estimator.history.insertIdx
      (estimator.history.length - pos) timing }

/-- Simple linear regression to compute the slope; the outer nothing is the
failed assertion on the length. -/
def linearFit (history : List (Timing Millis F)) : Option (Option F) :=
  if history.length ≤ 2 then none
  else
    let points := history.map fun timing =>
      (ops.ofMillis timing.remoteRecvTimeMs, timing.smoothedDelayMs)
    let sum := points.foldl (fun acc point =>
      (ops.add acc.1 point.1, ops.add acc.2 point.2)) (ops.lit 0, ops.lit 0)
    let avgX := ops.div sum.1 (ops.ofNat history.length)
    let avgY := ops.div sum.2 (ops.ofNat history.length)
    let fit := points.foldl (fun acc point =>
      (ops.add acc.1
          (ops.mul (ops.sub point.1 avgX) (ops.sub point.2 avgY)),
        ops.add acc.2 (ops.square (ops.sub point.1 avgX))))
      (ops.lit 0, ops.lit 0)
    some (if ops.eq fit.2 (ops.lit 0) then none
      else some (ops.div fit.1 fit.2))

def updateThreshold (estimator : TrendlineEstimator Millis F)
    (modifiedTrend : F) (now : ℕ) : TrendlineEstimator Millis F :=
  let lastThresholdUpdate := estimator.lastThresholdUpdate.getD now
  let absModifiedTrend := ops.abs modifiedTrend
  if ops.lt (ops.add estimator.delayThreshold (ops.lit maxAdoptOffsetMs))
      absModifiedTrend then
    -- avoid adapting the threshold to big latency spikes
    { estimator with lastThresholdUpdate := some now }
  else
    let k := if ops.lt absModifiedTrend estimator.delayThreshold then
      ops.lit kDown else ops.lit kUp
    let timeDelta := ops.ofNat ((now - lastThresholdUpdate) / 1000000)
    let delayThreshold := ops.add estimator.delayThreshold
      (ops.mul
        (ops.mul k (ops.sub absModifiedTrend estimator.delayThreshold))
        (ops.min timeDelta (ops.lit 100)))
    { estimator with
      delayThreshold := ops.clamp delayThreshold (ops.lit 6) (ops.lit 600)
      lastThresholdUpdate := some now }

/-- The slope scaled by the number of deltas seen so far. -/
def modifiedTrend (estimator : TrendlineEstimator Millis F) (trend : F) : F :=
  ops.mul
    (ops.mul (ops.ofNat (min estimator.numDelayVariations delayCountStart))
      trend)
    (ops.lit thresholdGain)

/-- Compare the slope with the threshold.  Overuse is signalled only when the
slope stays over it long enough and does not let up; an underuse or a normal
slope ends the streak. -/
def detect (estimator : TrendlineEstimator Millis F) (trend : F)
    (variation : InterGroupDelayDelta) (now : ℕ) :
    TrendlineEstimator Millis F :=
  if estimator.numDelayVariations < 2 then
    { estimator with hypothesis := .normal }
  else
    let modifiedTrend := estimator.modifiedTrend ops trend
    let estimator :=
      if ops.lt estimator.delayThreshold modifiedTrend then
        let overuse : Overuse :=
          match estimator.overuse with
          | some overuse =>
              { overuse with
                timeOverusing :=
                  overuse.timeOverusing.add variation.sendDelta }
          | none =>
              -- half of the time since the previous sample
              { count := 0, timeOverusing := variation.sendDelta.div 2 }
        let overuse : Overuse := { overuse with count := overuse.count + 1 }
        if overuse.timeOverusing.cmp (.ofDuration overUseTimeThreshold) = .gt ∧
            1 < overuse.count ∧ ops.lt estimator.previousTrend trend then
          { estimator with overuse := none, hypothesis := .overuse }
        else { estimator with overuse := some overuse }
      else if ops.lt modifiedTrend (ops.neg estimator.delayThreshold) then
        { estimator with overuse := none, hypothesis := .underuse }
      else { estimator with overuse := none, hypothesis := .normal }
    let estimator := { estimator with previousTrend := trend }
    estimator.updateThreshold ops modifiedTrend now

def updateTrendline (estimator : TrendlineEstimator Millis F)
    (variation : InterGroupDelayDelta) (now : ℕ) :
    Option (TrendlineEstimator Millis F) :=
  (linearFit ops estimator.history).map fun trend =>
    estimator.detect ops (trend.getD estimator.previousTrend) variation now

/-- The failing assertions of the source, which would take the session down,
are nothing. -/
def addDelayObservation (estimator : TrendlineEstimator Millis F)
    (variation : InterGroupDelayDelta) (now : ℕ) :
    Option (TrendlineEstimator Millis F) :=
  if estimator.history.isEmpty then
    some (estimator.doAddToHistory ops variation)
  else
    let estimator := estimator.doAddToHistory ops variation
    -- `while history.len() > window_size { pop_front }`
    let estimator := { estimator with
      history := estimator.history.drop
        (estimator.history.length - estimator.windowSize) }
    if estimator.history.length = estimator.windowSize then
      if (estimator.history.zip estimator.history.tail).all fun pair =>
          decide (NotAfter pair.1 pair.2) then
        estimator.updateTrendline ops variation now
      else none
    else some estimator

/-- The observations of a run, each made at its own receive time. -/
def observeAll (estimator : TrendlineEstimator Millis F) :
    List InterGroupDelayDelta → Option (TrendlineEstimator Millis F)
  | [] => some estimator
  | variation :: variations =>
      (estimator.addDelayObservation ops variation
        variation.lastRemoteRecvTime).bind fun estimator =>
          estimator.observeAll variations

/-- The parts of the state that the entries of the history are made from. -/
structure Smoothing (F : Type*) where
  zeroTime : Option ℕ
  accumulatedDelay : F
  smoothedDelay : F

def smoothing (estimator : TrendlineEstimator Millis F) : Smoothing F where
  zeroTime := estimator.zeroTime
  accumulatedDelay := estimator.accumulatedDelay
  smoothedDelay := estimator.smoothedDelay

namespace Smoothing

def next (smoothing : Smoothing F) (variation : InterGroupDelayDelta) :
    Smoothing F :=
  let accumulatedDelay := ops.add smoothing.accumulatedDelay
    (ops.sub (ops.ofMillis (ops.millis variation.arrivalDelta))
      (ops.ofMillis (ops.millis variation.sendDelta)))
  { zeroTime :=
      some (smoothing.zeroTime.getD variation.lastRemoteRecvTime)
    accumulatedDelay := accumulatedDelay
    smoothedDelay :=
      ops.add (ops.mul smoothing.smoothedDelay (ops.lit smoothingCoef))
        (ops.mul (ops.sub (ops.lit 1) (ops.lit smoothingCoef))
          accumulatedDelay) }

def timing (smoothing : Smoothing F) (variation : InterGroupDelayDelta) :
    Timing Millis F where
  remoteRecvTimeMs := ops.millis
    ((Timestamp.exact variation.lastRemoteRecvTime).sub
      (.exact (smoothing.zeroTime.getD variation.lastRemoteRecvTime)))
  smoothedDelayMs := (smoothing.next ops variation).smoothedDelay

/-- Every entry that a run makes, in the order of the reports. -/
def recorded (smoothing : Smoothing F) :
    List InterGroupDelayDelta → List (Timing Millis F)
  | [] => []
  | variation :: variations =>
      smoothing.timing ops variation ::
        (smoothing.next ops variation).recorded variations

end Smoothing

theorem doAddToHistory_history (estimator : TrendlineEstimator Millis F)
    (variation : InterGroupDelayDelta) :
    (estimator.doAddToHistory ops variation).history =
      SortedWindow.insertSorted NotAfter
        (estimator.smoothing.timing ops variation) estimator.history :=
  SortedWindow.insertIdx_findIdx_reverse _ _ _

theorem doAddToHistory_smoothing (estimator : TrendlineEstimator Millis F)
    (variation : InterGroupDelayDelta) :
    (estimator.doAddToHistory ops variation).smoothing =
      estimator.smoothing.next ops variation := rfl

/-- What a detection leaves alone. -/
structure SameLog (estimator other : TrendlineEstimator Millis F) : Prop where
  history : estimator.history = other.history
  windowSize : estimator.windowSize = other.windowSize
  smoothing : estimator.smoothing = other.smoothing

omit [LinearOrder Millis] in
theorem updateThreshold_sameLog (estimator : TrendlineEstimator Millis F)
    (trend : F) (now : ℕ) :
    (estimator.updateThreshold ops trend now).SameLog estimator := by
  rw [updateThreshold]
  dsimp only
  split_ifs <;> exact ⟨rfl, rfl, rfl⟩

omit [LinearOrder Millis] in
theorem SameLog.trans {first second third : TrendlineEstimator Millis F}
    (hfirst : first.SameLog second) (hsecond : second.SameLog third) :
    first.SameLog third where
  history := hfirst.history.trans hsecond.history
  windowSize := hfirst.windowSize.trans hsecond.windowSize
  smoothing := hfirst.smoothing.trans hsecond.smoothing

omit [LinearOrder Millis] in
theorem detect_sameLog (estimator : TrendlineEstimator Millis F) (trend : F)
    (variation : InterGroupDelayDelta) (now : ℕ) :
    (estimator.detect ops trend variation now).SameLog estimator := by
  rw [detect]
  split_ifs
  · exact ⟨rfl, rfl, rfl⟩
  all_goals
    refine (updateThreshold_sameLog ops _ _ _).trans ?_
    dsimp only
    split_ifs <;> exact ⟨rfl, rfl, rfl⟩

omit [LinearOrder Millis] in
theorem updateTrendline_sameLog (estimator : TrendlineEstimator Millis F)
    (variation : InterGroupDelayDelta) (now : ℕ)
    (hlength : 2 < estimator.history.length) :
    ∃ next, estimator.updateTrendline ops variation now = some next ∧
      next.SameLog estimator := by
  rw [updateTrendline, linearFit, if_neg (Nat.not_le.mpr hlength)]
  exact ⟨_, rfl, detect_sameLog ops _ _ _ _⟩

/-- The assertion on the order of the history holds of a sorted one. -/
theorem all_zip_tail {history : List (Timing Millis F)}
    (hsorted : history.Pairwise NotAfter) :
    ((history.zip history.tail).all fun pair =>
      decide (NotAfter pair.1 pair.2)) = true := by
  rw [List.all_eq_true]
  intro pair hpair
  induction hsorted.isChain with
  | nil => exact absurd hpair List.not_mem_nil
  | singleton => exact absurd hpair List.not_mem_nil
  | cons_cons hfirst hchain ih =>
      rcases List.mem_cons.mp hpair with rfl | hrest
      · exact decide_eq_true hfirst
      · exact ih hsorted.of_cons hrest

theorem pairwise_insertSorted (timing : Timing Millis F)
    {history : List (Timing Millis F)}
    (hsorted : history.Pairwise NotAfter) :
    (SortedWindow.insertSorted NotAfter timing history).Pairwise NotAfter :=
  SortedWindow.pairwise_insertSorted NotAfter
    (fun _ _ => le_total _ _) (fun _ _ _ => le_trans) timing hsorted

/-- The history that the source's loop leaves is in the asserted order. -/
theorem addDelayObservation_log (estimator : TrendlineEstimator Millis F)
    (variation : InterGroupDelayDelta) (now : ℕ)
    (hwindow : 2 < estimator.windowSize)
    (hsorted : estimator.history.Pairwise NotAfter) :
    ∃ next, estimator.addDelayObservation ops variation now = some next ∧
      next.history = SortedWindow.lastOf estimator.windowSize
        (SortedWindow.insertSorted NotAfter
          (estimator.smoothing.timing ops variation) estimator.history) ∧
      next.windowSize = estimator.windowSize ∧
      next.smoothing = estimator.smoothing.next ops variation := by
  have hhistory := estimator.doAddToHistory_history ops variation
  rw [addDelayObservation]
  by_cases hempty : estimator.history = []
  · rw [if_pos (List.isEmpty_iff.mpr hempty)]
    refine ⟨_, rfl, ?_, rfl, doAddToHistory_smoothing ops _ _⟩
    rw [hhistory, hempty, SortedWindow.lastOf_of_length_le]
    rw [SortedWindow.length_insertSorted, List.length_nil]
    omega
  · rw [if_neg (mt List.isEmpty_iff.mp hempty)]
    dsimp only
    rw [hhistory]
    have hwindowed : ((SortedWindow.lastOf estimator.windowSize
        (SortedWindow.insertSorted NotAfter
          (estimator.smoothing.timing ops variation)
            estimator.history))).Pairwise NotAfter :=
      (pairwise_insertSorted _ hsorted).sublist (List.drop_sublist _ _)
    rw [SortedWindow.lastOf] at hwindowed ⊢
    split_ifs with hfull hall
    · obtain ⟨next, hnext, hsame⟩ := updateTrendline_sameLog ops
        { estimator.doAddToHistory ops variation with history := _ }
        variation now (lt_of_lt_of_eq hwindow hfull.symm)
      exact ⟨next, hnext, hsame.history, hsame.windowSize,
        hsame.smoothing.trans (doAddToHistory_smoothing ops _ _)⟩
    · exact absurd (all_zip_tail hwindowed) hall
    · exact ⟨_, rfl, rfl, rfl, doAddToHistory_smoothing ops _ _⟩

theorem observeAll_log (estimator : TrendlineEstimator Millis F)
    (log : List (Timing Millis F)) (variations : List InterGroupDelayDelta)
    (hwindow : 2 < estimator.windowSize)
    (hlog : estimator.history = SortedWindow.lastOf estimator.windowSize
      (SortedWindow.sorted NotAfter log)) :
    ∃ last, estimator.observeAll ops variations = some last ∧
      last.history = SortedWindow.lastOf estimator.windowSize
        (SortedWindow.sorted NotAfter
          (log ++ estimator.smoothing.recorded ops variations)) := by
  induction variations generalizing estimator log with
  | nil => exact ⟨estimator, rfl, by rw [Smoothing.recorded,
      List.append_nil, hlog]⟩
  | cons variation variations ih =>
      have hsorted : estimator.history.Pairwise NotAfter := by
        rw [hlog]
        exact (SortedWindow.pairwise_sorted NotAfter
          (fun _ _ => le_total _ _) (fun _ _ _ => le_trans) log).sublist
            (List.drop_sublist _ _)
      obtain ⟨next, hnext, hhistory, hsize, hsmoothing⟩ :=
        estimator.addDelayObservation_log ops variation
          variation.lastRemoteRecvTime hwindow hsorted
      rw [hlog, SortedWindow.lastOf_insertSorted_lastOf,
        ← SortedWindow.sorted_concat, ← hsize] at hhistory
      obtain ⟨last, hrun, hlast⟩ := ih next _ (hsize ▸ hwindow) hhistory
      refine ⟨last, by rw [observeAll, hnext, Option.bind_some, hrun], ?_⟩
      rw [hlast, hsize, hsmoothing, List.append_assoc, Smoothing.recorded,
        List.singleton_append]

/-- No assertion of the detector ever fails, and the line is always fitted to
the groups that arrived last, in the order of their arrival, whatever the
order in which they were reported. -/
theorem observeAll_history (windowSize : ℕ) (hwindow : 2 < windowSize)
    (variations : List InterGroupDelayDelta) :
    ∃ last, (new ops windowSize : TrendlineEstimator Millis F).observeAll ops
        variations = some last ∧
      last.history = SortedWindow.lastOf windowSize
        (SortedWindow.sorted NotAfter
          ((new ops windowSize).smoothing.recorded ops variations)) :=
  observeAll_log ops (new ops windowSize) [] variations hwindow
    (SortedWindow.lastOf_of_length_le (Nat.zero_le _)).symm

/-- One comparison of the slope with the threshold. -/
structure Detection where
  above : Bool
  /-- The slope is steeper than at the detection before. -/
  rising : Bool
  sendDelta : TimeDelta
  deriving DecidableEq, Repr

/-- The detection that `detect` makes; the first variations make none. -/
def detection (estimator : TrendlineEstimator Millis F) (trend : F)
    (variation : InterGroupDelayDelta) : Option Detection :=
  if estimator.numDelayVariations < 2 then none
  else some {
    above := ops.lt estimator.delayThreshold
      (estimator.modifiedTrend ops trend)
    rising := ops.lt estimator.previousTrend trend
    sendDelta := variation.sendDelta }

/-- The state in which an observation reaches the detection. -/
def prepared (estimator : TrendlineEstimator Millis F)
    (variation : InterGroupDelayDelta) : TrendlineEstimator Millis F :=
  let estimator := estimator.doAddToHistory ops variation
  { estimator with
    history := estimator.history.drop
      (estimator.history.length - estimator.windowSize) }

/-- The detection of one observation, if it comes to one. -/
def detectionOf (estimator : TrendlineEstimator Millis F)
    (variation : InterGroupDelayDelta) : Option Detection :=
  let prepared := estimator.prepared ops variation
  if estimator.history.isEmpty then none
  else if prepared.history.length = prepared.windowSize then
    (linearFit ops prepared.history).bind fun trend =>
      prepared.detection ops (trend.getD prepared.previousTrend) variation
  else none

/-- All detections of a run, oldest first. -/
def detections (estimator : TrendlineEstimator Millis F) :
    List InterGroupDelayDelta → List Detection
  | [] => []
  | variation :: variations =>
      (estimator.detectionOf ops variation).toList ++
        match estimator.addDelayObservation ops variation
          variation.lastRemoteRecvTime with
        | some estimator => estimator.detections variations
        | none => []

/-- The send time of a streak: half of the first delta and all others. -/
def streakTime : List Detection → TimeDelta
  | [] => TimeDelta.zero
  | first :: rest =>
      rest.foldl (fun time detection => time.add detection.sendDelta)
        (first.sendDelta.div 2)

theorem streakTime_concat {streak : List Detection} (hstreak : streak ≠ [])
    (last : Detection) :
    streakTime (streak ++ [last]) =
      (streakTime streak).add last.sendDelta := by
  cases streak with
  | nil => exact absurd rfl hstreak
  | cons first rest =>
      rw [List.cons_append, streakTime, List.foldl_append]
      rfl

/-- Some streak of at least two detections over the threshold lasted longer
than the limit and ended on a rising slope, and the slope has not come back
under the threshold since. -/
def Sustained (detections : List Detection) : Prop :=
  ∃ before streak after last,
    detections = before ++ (streak ++ [last]) ++ after ∧
      streak ≠ [] ∧ last.rising = true ∧
      (∀ detection ∈ (streak ++ [last]) ++ after, detection.above = true) ∧
      (streakTime (streak ++ [last])).cmp
        (.ofDuration overUseTimeThreshold) = .gt

/-- The timer of the detector measures the streak that the detections so far
end in. -/
def Streak (detections : List Detection) (overuse : Overuse) : Prop :=
  ∃ before streak, detections = before ++ streak ∧ streak ≠ [] ∧
    streak.length = overuse.count ∧
    (∀ detection ∈ streak, detection.above = true) ∧
    streakTime streak = overuse.timeOverusing

structure Tracks (estimator : TrendlineEstimator Millis F)
    (detections : List Detection) : Prop where
  streak : ∀ overuse, estimator.overuse = some overuse →
    Streak detections overuse
  sustained : estimator.hypothesis = .overuse → Sustained detections

theorem Sustained.concat {detections : List Detection}
    (hsustained : Sustained detections) {detection : Detection}
    (hover : detection.above = true) :
    Sustained (detections ++ [detection]) := by
  obtain ⟨before, streak, after, last, rfl, hstreak, hrising, hall, htime⟩ :=
    hsustained
  refine ⟨before, streak, after ++ [detection], last,
    List.append_assoc _ _ _, hstreak, hrising, fun other hother => ?_, htime⟩
  rw [← List.append_assoc] at hother
  rcases List.mem_append.mp hother with hmem | hmem
  · exact hall other hmem
  · rw [List.mem_singleton.mp hmem]
    exact hover

theorem Streak.concat {detections : List Detection} {overuse : Overuse}
    (hstreak : Streak detections overuse) {detection : Detection}
    (hover : detection.above = true) :
    Streak (detections ++ [detection]) {
      count := overuse.count + 1
      timeOverusing := overuse.timeOverusing.add detection.sendDelta } := by
  obtain ⟨before, streak, rfl, hne, hcount, hall, htime⟩ := hstreak
  refine ⟨before, streak ++ [detection], List.append_assoc _ _ _,
    List.append_ne_nil_of_left_ne_nil hne _, ?_, fun other hother => ?_, ?_⟩
  · rw [List.length_append, List.length_singleton, hcount]
  · rcases List.mem_append.mp hother with hmem | hmem
    · exact hall other hmem
    · rw [List.mem_singleton.mp hmem]
      exact hover
  · rw [streakTime_concat hne, htime]

theorem streak_start (detections : List Detection) {detection : Detection}
    (hover : detection.above = true) :
    Streak (detections ++ [detection]) {
      count := 1
      timeOverusing := detection.sendDelta.div 2 } := by
  refine ⟨detections, [detection], rfl, List.cons_ne_nil _ _, rfl,
    fun other hother => ?_, rfl⟩
  rw [List.mem_singleton.mp hother]
  exact hover

/-- A streak that lasts longer than the limit and ends on a rising slope is
what the hypothesis asks for. -/
theorem Streak.sustained {detections : List Detection} {overuse : Overuse}
    (hstreak : Streak detections overuse) {detection : Detection}
    (hover : detection.above = true) (hrising : detection.rising = true)
    (htime : (overuse.timeOverusing.add detection.sendDelta).cmp
      (.ofDuration overUseTimeThreshold) = .gt) :
    Sustained (detections ++ [detection]) := by
  obtain ⟨before, streak, rfl, hne, -, hall, hstreakTime⟩ := hstreak
  refine ⟨before, streak, [], detection, by simp, hne, hrising,
    fun other hother => ?_, ?_⟩
  · rw [List.append_nil] at hother
    rcases List.mem_append.mp hother with hmem | hmem
    · exact hall other hmem
    · rw [List.mem_singleton.mp hmem]
      exact hover
  · rw [streakTime_concat hne, hstreakTime]
    exact htime

omit [LinearOrder Millis] in
theorem updateThreshold_tracks {estimator : TrendlineEstimator Millis F}
    {detections : List Detection} (htracks : estimator.Tracks detections)
    (trend : F) (now : ℕ) :
    (estimator.updateThreshold ops trend now).Tracks detections := by
  rw [updateThreshold]
  dsimp only
  split_ifs <;> exact ⟨htracks.streak, htracks.sustained⟩

omit [LinearOrder Millis] in
theorem tracks_of_none {estimator : TrendlineEstimator Millis F}
    (hnone : estimator.overuse = none)
    (hhypothesis : estimator.hypothesis ≠ .overuse)
    (detections : List Detection) : estimator.Tracks detections where
  streak := fun overuse hsome =>
    absurd (hnone.symm.trans hsome) (Option.some_ne_none overuse).symm
  sustained := fun hoveruse => absurd hoveruse hhypothesis

omit [LinearOrder Millis] in
/-- One detection: the timer keeps measuring the streak, and the hypothesis
is overuse only on its evidence. -/
theorem Tracks.detect {estimator : TrendlineEstimator Millis F}
    {detections : List Detection} (htracks : estimator.Tracks detections)
    (trend : F) (variation : InterGroupDelayDelta) (now : ℕ) :
    (estimator.detect ops trend variation now).Tracks
      (detections ++
        (estimator.detection ops trend variation).toList) := by
  rw [TrendlineEstimator.detect, detection]
  split_ifs with hfew
  · rw [Option.toList_none, List.append_nil]
    exact ⟨htracks.streak, fun hnormal =>
      BandwidthUsage.noConfusion hnormal⟩
  · refine updateThreshold_tracks ops ?_ _ _
    rw [Option.toList_some]
    dsimp only
    by_cases hover : ops.lt estimator.delayThreshold
        (estimator.modifiedTrend ops trend) = true
    · rw [if_pos hover]
      cases hoveruse : estimator.overuse with
      | none =>
          -- the first detection of a streak is never enough
          rw [if_neg (fun hmet => absurd hmet.2.1 (Nat.lt_irrefl _))]
          refine ⟨fun overuse hsome => ?_, fun hold =>
            (htracks.sustained hold).concat hover⟩
          rw [Option.some.injEq] at hsome
          rw [← hsome]
          exact streak_start detections hover
      | some overuse =>
          have hstreak := htracks.streak overuse hoveruse
          dsimp only
          split_ifs with hmet
          · refine ⟨fun overuse hnone =>
              absurd hnone.symm (Option.some_ne_none overuse), fun _ => ?_⟩
            exact hstreak.sustained hover hmet.2.2 hmet.1
          · refine ⟨fun overuse hsome => ?_, fun hold =>
              (htracks.sustained hold).concat hover⟩
            rw [Option.some.injEq] at hsome
            rw [← hsome]
            exact hstreak.concat hover
    · rw [if_neg hover]
      split_ifs
      · exact tracks_of_none rfl (fun h => BandwidthUsage.noConfusion h) _
      · exact tracks_of_none rfl (fun h => BandwidthUsage.noConfusion h) _

theorem addDelayObservation_eq (estimator : TrendlineEstimator Millis F)
    (variation : InterGroupDelayDelta) (now : ℕ) :
    estimator.addDelayObservation ops variation now =
      if estimator.history.isEmpty then
        some (estimator.doAddToHistory ops variation)
      else if (estimator.prepared ops variation).history.length =
          (estimator.prepared ops variation).windowSize then
        if ((estimator.prepared ops variation).history.zip
            (estimator.prepared ops variation).history.tail).all fun pair =>
              decide (NotAfter pair.1 pair.2) then
          (estimator.prepared ops variation).updateTrendline ops variation now
        else none
      else some (estimator.prepared ops variation) := rfl

/-- One observation, with or without a detection. -/
theorem Tracks.addDelayObservation
    {estimator next : TrendlineEstimator Millis F}
    {detections : List Detection} (htracks : estimator.Tracks detections)
    {variation : InterGroupDelayDelta} {now : ℕ}
    (hnext : estimator.addDelayObservation ops variation now = some next) :
    next.Tracks (detections ++
      (estimator.detectionOf ops variation).toList) := by
  have hprepared : (estimator.prepared ops variation).Tracks detections :=
    ⟨htracks.streak, htracks.sustained⟩
  rw [addDelayObservation_eq] at hnext
  rw [detectionOf]
  split_ifs at hnext ⊢ with hempty hfull hordered
  · rw [Option.toList_none, List.append_nil]
    rw [Option.some.injEq] at hnext
    rw [← hnext]
    exact ⟨htracks.streak, htracks.sustained⟩
  · rw [updateTrendline] at hnext
    cases hfit : linearFit ops (estimator.prepared ops variation).history with
    | none =>
        rw [hfit, Option.map_none] at hnext
        exact absurd hnext.symm (Option.some_ne_none next)
    | some trend =>
        rw [hfit, Option.map_some, Option.some.injEq] at hnext
        rw [Option.bind_some, ← hnext]
        exact hprepared.detect ops _ _ _
  · rw [Option.toList_none, List.append_nil]
    rw [Option.some.injEq] at hnext
    rw [← hnext]
    exact hprepared

theorem Tracks.observeAll {estimator last : TrendlineEstimator Millis F}
    {detections : List Detection} (htracks : estimator.Tracks detections)
    {variations : List InterGroupDelayDelta}
    (hrun : estimator.observeAll ops variations = some last) :
    last.Tracks (detections ++ estimator.detections ops variations) := by
  induction variations generalizing estimator detections with
  | nil =>
      rw [TrendlineEstimator.observeAll, Option.some.injEq] at hrun
      rw [TrendlineEstimator.detections, List.append_nil, ← hrun]
      exact htracks
  | cons variation variations ih =>
      rw [TrendlineEstimator.observeAll, Option.bind_eq_some_iff] at hrun
      obtain ⟨next, hnext, hrun⟩ := hrun
      rw [TrendlineEstimator.detections, hnext, ← List.append_assoc]
      exact ih (htracks.addDelayObservation ops hnext) hrun

/-- The link is called overused only on the evidence of a sustained rise of
the delay that has not let up since. -/
theorem sustained_of_overuse (windowSize : ℕ)
    (variations : List InterGroupDelayDelta)
    (last : TrendlineEstimator Millis F)
    (hrun : (new ops windowSize).observeAll ops variations = some last)
    (hoveruse : last.hypothesis = .overuse) :
    Sustained ((new ops windowSize : TrendlineEstimator Millis F).detections
      ops variations) := by
  have hstart : (new ops windowSize : TrendlineEstimator Millis F).Tracks [] :=
    tracks_of_none rfl (fun h => BandwidthUsage.noConfusion h) []
  exact (hstart.observeAll ops hrun).sustained hoveruse

end TrendlineEstimator

end GameStreamer
