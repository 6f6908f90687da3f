import Mathlib.Algebra.Group.Nat.Defs
import Mathlib.Data.List.Basic
import Mathlib.Data.List.Range
import Mathlib.Data.Rat.Init

/-!
# The probing controller

The controller decides when to burst padding at rates above the current
estimate.  It queues probe clusters under increasing ids and hands them out one
at a time.  Durations and instants are microseconds; what the code computes in
floating point is a parameter.
-/

namespace GameStreamer

/-- The floating-point arithmetic of bitrates.  Nothing is assumed of it: the
results on probes hold for every rounding. -/
structure BitrateOps (Bitrate : Type*) where
  bps : ℕ → Bitrate
  infinity : Bitrate
  eq : Bitrate → Bitrate → Bool
  lt : Bitrate → Bitrate → Bool
  le : Bitrate → Bitrate → Bool
  min : Bitrate → Bitrate → Bitrate
  /-- `Mul<f64>`. -/
  scale : Bitrate → ℚ → Bitrate
  /-- `Mul<Duration>`, in bytes. -/
  dataSize : Bitrate → ℕ → ℕ
  /-- A data size divided by a duration. -/
  rate : ℕ → ℕ → Bitrate
  /-- Whether the quotient of two rates is above a limit. -/
  ratioAbove : Bitrate → Bitrate → ℚ → Bool

inductive ProbeKind where
  | initial
  | exponential
  | increaseAlr
  | periodicAlr
  | largeDrop
  | stagnant
  deriving DecidableEq, Repr

inductive BandwidthLimitedCause where
  | lossLimitedBweIncreasing
  | lossLimitedBwe
  | delayBasedLimited
  | delayBasedLimitedDelayIncreased
  deriving DecidableEq, Repr

/-- The plan of a probe cluster. -/
structure ProbeClusterConfig (Bitrate : Type*) where
  cluster : ℕ
  targetBitrate : Bitrate
  targetDuration : ℕ
  minPacketCount : ℕ
  minProbeDelta : ℕ
  kind : ProbeKind
  deriving DecidableEq, Repr

structure LastProbe (Bitrate : Type*) where
  time : ℕ
  kind : ProbeKind
  further : Bitrate
  wasEstimate : Option Bitrate
  deriving DecidableEq, Repr

structure LargeDrop (Bitrate : Type*) where
  time : ℕ
  bitrateBefore : Bitrate
  deriving DecidableEq, Repr

/-- The probing controller: what it was told of rates, limits and outcomes, the
clusters that wait to be handed out, and when it is to be called next. -/
structure ProbeControl (Bitrate : Type*) where
  /-- Nothing stands for `not_happening`, zero for `already_happened`. -/
  nextTimeout : Option ℕ
  enabled : Bool
  desiredBitrate : Option Bitrate
  prevDesired : Option Bitrate
  lastEstimate : Option Bitrate
  /-- The estimate's high-water mark, and when it last rose past it. -/
  progressHigh : Option Bitrate
  lastProgress : Option ℕ
  stagnantBackoff : ℕ
  durationFloor : ℕ
  lastCause : BandwidthLimitedCause
  prevEstimate : Option Bitrate
  recentHigh : Option (Bitrate × ℕ)
  alrStart : Option ℕ
  alrStop : Option ℕ
  lastProbe : Option (LastProbe Bitrate)
  largeDrop : Option (LargeDrop Bitrate)
  lastStagnant : Option ℕ
  nextClusterId : ℕ
  pending : List (ProbeClusterConfig Bitrate)
  scheduledExponential : Option ℕ
  scheduledPeriodicAlr : Option ℕ
  scheduledStagnant : Option ℕ
  deriving DecidableEq, Repr

namespace ProbeControl

def maxWaitingTimeForProbingResult : ℕ := 1000000
def bitrateDropThreshold : ℚ := 1 / 2
def bitrateDropTimeout : ℕ := 5000000
def probeFractionAfterDrop : ℚ := 85 / 100
def probeUncertainty : ℚ := 5 / 100
def alrEndedTimeout : ℕ := 3000000
def minTimeBetweenAlrProbes : ℕ := 5000000
def estimateCollapseFactor : ℚ := 1 / 2
def recentHighWindow : ℕ := 10000000
def maxProbeBitrateFactor : ℚ := 2
def minTimeBetweenStagnantProbes : ℕ := 15000000
def maxStagnantBackoff : ℕ := 4
def minProbeDuration : ℕ := 15000
def maxProbeDuration : ℕ := 100000
def probeFruitfulFraction : ℚ := 7 / 10
def estimateChangeThreshold : ℚ := 5 / 100
def stagnantProbeScale : ℚ := 2

def firstExponentialProbeScale : ℚ := 3
def secondExponentialProbeScale : ℚ := 6
def furtherExponentialProbeScale : ℚ := 2
def furtherProbeThreshold : ℚ := 7 / 10
def firstAllocationProbeScale : ℚ := 1
def secondAllocationProbeScale : ℚ := 2
def allocationProbeLimitByCurrentScale : ℚ := 2
def minProbePacketsSent : ℕ := 5
def configMinProbeDuration : ℕ := 15000
def configMinProbeDelta : ℕ := 2000
def lossLimitedProbeScale : ℚ := 3 / 2

/-- `Duration::MAX`. -/
def durationMax : ℕ := 2 ^ 64 * 1000000 - 1

def probeScale : BandwidthLimitedCause → ℚ
  | .lossLimitedBweIncreasing => lossLimitedProbeScale * (1 + probeUncertainty)
  | _ => furtherExponentialProbeScale

variable {Bitrate : Type*}

def new : ProbeControl Bitrate where
  enabled := false
  nextTimeout := none
  desiredBitrate := none
  prevDesired := none
  lastEstimate := none
  progressHigh := none
  lastProgress := none
  stagnantBackoff := 1
  durationFloor := minProbeDuration
  lastCause := .delayBasedLimited
  prevEstimate := none
  recentHigh := none
  alrStart := none
  alrStop := none
  lastProbe := none
  largeDrop := none
  lastStagnant := none
  nextClusterId := 0
  pending := []
  scheduledExponential := none
  scheduledPeriodicAlr := none
  scheduledStagnant := none

def requestImmediate (control : ProbeControl Bitrate) : ProbeControl Bitrate :=
  { control with
    nextTimeout := some 0
    scheduledExponential := none
    scheduledPeriodicAlr := none
    scheduledStagnant := none }

def enable (control : ProbeControl Bitrate) (v : Bool) :
    ProbeControl Bitrate :=
  if !control.enabled && v then
    { control with enabled := true }.requestImmediate
  else if control.enabled && !v then
    { control with
      enabled := false
      pending := []
      lastEstimate := none
      desiredBitrate := none
      progressHigh := none
      lastProgress := none
      stagnantBackoff := 1
      durationFloor := minProbeDuration
      lastStagnant := none
      lastProbe := none
      prevEstimate := none
      recentHigh := none
      scheduledExponential := none
      scheduledPeriodicAlr := none
      scheduledStagnant := none
      nextTimeout := none }
  else control

def setAlrStartTime (control : ProbeControl Bitrate) (t : ℕ) :
    ProbeControl Bitrate :=
  if control.alrStart.isSome then control
  else { control with alrStart := some t, alrStop := none }.requestImmediate

def setAlrStopTime (control : ProbeControl Bitrate) (t : ℕ) :
    ProbeControl Bitrate :=
  if control.alrStart.isNone || control.alrStop.isSome then control
  else { control with alrStart := none, alrStop := some t }.requestImmediate

def inAlr (control : ProbeControl Bitrate) : Bool :=
  control.alrStart.isSome && control.alrStop.isNone

def alrEndedRecently (control : ProbeControl Bitrate) (now : ℕ) : Bool :=
  control.alrStop.any fun stop => decide (now - stop < alrEndedTimeout)

def timeSinceLastProbe (control : ProbeControl Bitrate) (now : ℕ) : ℕ :=
  match control.lastProbe with
  | none => durationMax
  | some last => now - last.time

def isDuringInitial (control : ProbeControl Bitrate) (now : ℕ) : Bool :=
  (control.lastProbe.any fun last =>
    last.kind = .initial ∨ last.kind = .exponential) &&
    control.timeSinceLastProbe now ≤ maxWaitingTimeForProbingResult

variable (ops : BitrateOps Bitrate)

def setDesiredBitrate (control : ProbeControl Bitrate) (v : Bitrate) :
    ProbeControl Bitrate :=
  -- a first desired rate of zero is not accepted
  if control.desiredBitrate.isNone && ops.eq v (ops.bps 0) then control
  else { control with desiredBitrate := some v }.requestImmediate

def setEstimatedBitrate (control : ProbeControl Bitrate) (v : Bitrate)
    (cause : BandwidthLimitedCause) : ProbeControl Bitrate :=
  if control.lastEstimate.isNone && ops.eq v (ops.bps 0) then control
  else
    let dominatedByLast := control.lastEstimate.any fun last =>
      ops.le v (ops.scale last (1 + estimateChangeThreshold)) &&
        ops.le (ops.scale last (1 - estimateChangeThreshold)) v
    if dominatedByLast && control.lastCause = cause then control
    else { control with
      lastEstimate := some v, lastCause := cause }.requestImmediate

/-- A probe cluster finalized. -/
def onProbeOutcome (control : ProbeControl Bitrate)
    (measured : Option Bitrate) (target : Bitrate) (overusing : Bool) :
    ProbeControl Bitrate :=
  let fruitful := measured.any fun m =>
    ops.le (ops.scale target probeFruitfulFraction) m
  if fruitful then
    { control with
      durationFloor := max (control.durationFloor / 2) minProbeDuration
      stagnantBackoff := 1 }
  else if overusing then
    { control with stagnantBackoff := maxStagnantBackoff }
  else
    { control with
      durationFloor := min (control.durationFloor * 2) maxProbeDuration }

/-- Infinite estimates and congestion forbid probing. -/
def canProbe (control : ProbeControl Bitrate) (estimate : Bitrate) : Bool :=
  !ops.eq estimate ops.infinity &&
    (control.lastCause = .lossLimitedBweIncreasing ∨
      control.lastCause = .delayBasedLimited)

def queueProbe (control : ProbeControl Bitrate) (bitrate : Bitrate)
    (kind : ProbeKind) (desired : Bitrate) (now : ℕ) : ProbeControl Bitrate :=
  let bitrate := ops.min bitrate (ops.scale desired maxProbeBitrateFactor)
  -- no probe at too small values
  if ops.lt bitrate (ops.bps 5000) then control
  else
    { control with
      nextClusterId := control.nextClusterId + 1
      pending := control.pending ++
        [{ cluster := control.nextClusterId
           targetBitrate := bitrate
           targetDuration := max configMinProbeDuration control.durationFloor
           minPacketCount := minProbePacketsSent
           minProbeDelta := configMinProbeDelta
           kind }]
      lastProbe := some
        { time := now
          kind
          further := ops.scale bitrate furtherProbeThreshold
          wasEstimate := control.lastEstimate } }

/-- Detect large drops against the recent high-water mark. -/
def trackDrop (control : ProbeControl Bitrate) (now : ℕ) (estimate : Bitrate) :
    ProbeControl Bitrate :=
  let recent := control.recentHigh.filter fun high =>
    ops.le estimate high.1 && now - high.2 ≤ recentHighWindow
  let high := (recent.map Prod.fst).getD estimate
  let control := { control with
    recentHigh := some (recent.getD (estimate, now)) }
  if control.largeDrop.isNone &&
      ops.lt estimate (ops.scale high bitrateDropThreshold) then
    { control with largeDrop := some { time := now, bitrateBefore := high } }
  else control

/-- Initial probes only fire once at startup. -/
def maybeInitial (control : ProbeControl Bitrate) (now : ℕ)
    (desired estimate : Bitrate) : Bool × ProbeControl Bitrate :=
  if control.lastProbe.isSome then (false, control)
  else
    let p1 := ops.scale estimate firstExponentialProbeScale
    let p2 := ops.scale estimate secondExponentialProbeScale
    let control := control.queueProbe ops p1 .initial desired now
    (true, control.queueProbe ops p2 .initial desired now)

def maybeLargeDrop (control : ProbeControl Bitrate) (now : ℕ)
    (desired estimate : Bitrate) : Bool × ProbeControl Bitrate :=
  if control.isDuringInitial now then (false, control)
  else
    match control.largeDrop with
    | none => (false, control)
    | some drop =>
        if bitrateDropTimeout < now - drop.time then
          (false, { control with largeDrop := none })
        else
          let collapsed := ops.lt estimate
            (ops.scale drop.bitrateBefore estimateCollapseFactor)
          let minWait := if collapsed then maxWaitingTimeForProbingResult
            else minTimeBetweenAlrProbes
          if !collapsed && !control.inAlr && !control.alrEndedRecently now then
            (false, control)
          else if control.timeSinceLastProbe now < minWait then
            (false, control)
          else
            (true, control.queueProbe ops
              (ops.scale drop.bitrateBefore probeFractionAfterDrop) .largeDrop
              desired now)

def maybeExponential (control : ProbeControl Bitrate) (now : ℕ)
    (desired estimate : Bitrate) : Bool × ProbeControl Bitrate :=
  match control.pending, control.lastProbe with
  | [], some last =>
      let timeSince := control.timeSinceLastProbe now
      let collapsed := (last.wasEstimate.any fun w =>
        ops.lt estimate (ops.scale w estimateCollapseFactor)) &&
          minTimeBetweenAlrProbes ≤ timeSince
      let isSame := last.wasEstimate.any fun w => ops.eq estimate w
      let target := ops.scale estimate (probeScale control.lastCause)
      let most := ops.scale desired maxProbeBitrateFactor
      if ops.lt estimate last.further && !collapsed then (false, control)
      else if isSame && timeSince < maxWaitingTimeForProbingResult then
        (false, control)
      else if ops.le most target &&
          ops.le (ops.scale most furtherProbeThreshold) last.further then
        (false, control)
      else (true, control.queueProbe ops target .exponential desired now)
  | _, _ => (false, control)

def maybeIncreaseAlr (control : ProbeControl Bitrate) (now : ℕ)
    (desired estimate : Bitrate) : Bool × ProbeControl Bitrate :=
  if control.isDuringInitial now || !control.inAlr then (false, control)
  else
    let prev := control.prevDesired
    let control := { control with prevDesired := some desired }
    match prev with
    | none => (false, control)
    | some prev =>
        if ops.le desired prev || ops.le desired estimate then (false, control)
        else
          let limit := ops.scale estimate allocationProbeLimitByCurrentScale
          let p1 := ops.min (ops.scale desired firstAllocationProbeScale) limit
          let p2 := ops.scale desired secondAllocationProbeScale
          let control := control.queueProbe ops p1 .increaseAlr desired now
          (true, if ops.le p2 limit && ops.lt p1 p2 then
            control.queueProbe ops p2 .increaseAlr desired now else control)

def maybePeriodicAlr (control : ProbeControl Bitrate) (now : ℕ)
    (desired estimate : Bitrate) : Bool × ProbeControl Bitrate :=
  if control.isDuringInitial now || !control.inAlr ||
      control.timeSinceLastProbe now < minTimeBetweenAlrProbes then
    (false, control)
  else
    (true, control.queueProbe ops
      (ops.min (ops.scale estimate furtherExponentialProbeScale) desired)
      .periodicAlr desired now)

/-- Probe when the estimate has made no upward progress despite unmet
demand. -/
def maybeStagnant (control : ProbeControl Bitrate) (now : ℕ)
    (desired estimate : Bitrate) : Bool × ProbeControl Bitrate :=
  if control.isDuringInitial now || control.inAlr then (false, control)
  else
    match control.lastProgress with
    | none => (false, control)
    | some lastProgress =>
        let interval := minTimeBetweenStagnantProbes * control.stagnantBackoff
        if now - lastProgress < minTimeBetweenStagnantProbes ||
            ops.le desired estimate ||
            control.lastStagnant.any
              (fun lastProbe => now - lastProbe < interval) then
          (false, control)
        else
          let control := control.queueProbe ops
            (ops.min (ops.scale estimate stagnantProbeScale) desired) .stagnant
            desired now
          (true, { control with
            lastStagnant := some now
            stagnantBackoff :=
              min (control.stagnantBackoff * 2) maxStagnantBackoff })

/-- Try each probe type in order, until one fires. -/
def tryEach : List (ProbeControl Bitrate → Bool × ProbeControl Bitrate) →
    ProbeControl Bitrate → ProbeControl Bitrate
  | [], control => control
  | attempt :: attempts, control =>
      let (fired, control) := attempt control
      if fired then control else tryEach attempts control

def attempts (now : ℕ) (desired estimate : Bitrate) :
    List (ProbeControl Bitrate → Bool × ProbeControl Bitrate) :=
  [maybeInitial, maybeLargeDrop, maybeExponential, maybeIncreaseAlr,
    maybePeriodicAlr, maybeStagnant].map fun maybe control =>
      maybe ops control now desired estimate

def updateProgress (control : ProbeControl Bitrate) (now : ℕ)
    (estimate : Bitrate) : ProbeControl Bitrate :=
  let high := control.progressHigh.getD estimate
  let control := if ops.lt (ops.scale high (1 + estimateChangeThreshold))
      estimate then
    { control with
      progressHigh := some estimate
      lastProgress := some now
      stagnantBackoff := 1 }
    else { control with progressHigh := some high }
  { control with lastProgress := some (control.lastProgress.getD now) }

/-- Set the timeout by the current state. -/
def computeNextTimeout (control : ProbeControl Bitrate) (now : ℕ) :
    ProbeControl Bitrate :=
  if control.lastProbe.any fun last =>
      last.kind = .initial ∨ last.kind = .exponential then
    let time := control.scheduledExponential.getD
      (now + maxWaitingTimeForProbingResult)
    { control with
      scheduledExponential := some time
      nextTimeout := some time }
  else if control.inAlr then
    let time := control.scheduledPeriodicAlr.getD
      (now + minTimeBetweenAlrProbes)
    { control with
      scheduledPeriodicAlr := some time
      nextTimeout := some time }
  else
    let time := control.scheduledStagnant.getD
      (now + minTimeBetweenStagnantProbes)
    { control with
      scheduledStagnant := some time
      nextTimeout := some time }

/-- Whether congestion leaves room for a probe: there are two loss-limited
exceptions, after a large drop and once the estimate has gone stale. -/
def gateOpen (control : ProbeControl Bitrate) (now : ℕ) (estimate : Bitrate) :
    Bool :=
  let lossLimited := control.lastCause = .lossLimitedBwe
  let sinceProbe := control.timeSinceLastProbe now
  control.canProbe ops estimate ||
    (lossLimited && control.largeDrop.isSome &&
      maxWaitingTimeForProbingResult ≤ sinceProbe) ||
    (lossLimited && 2 * minTimeBetweenAlrProbes < sinceProbe)

def popPending (control : ProbeControl Bitrate) :
    Option (ProbeClusterConfig Bitrate) × ProbeControl Bitrate :=
  (control.pending.head?, { control with pending := control.pending.tail })

/-- Plan probes, where none is pending. -/
def plan (control : ProbeControl Bitrate) (now : ℕ)
    (desired estimate : Bitrate) : ProbeControl Bitrate :=
  let control := control.trackDrop ops now estimate
  if !control.gateOpen ops now estimate then control
  else
    let control := tryEach (attempts ops now desired estimate) control
    let control := control.updateProgress ops now estimate
    let control := { control with
      prevEstimate := some estimate }.computeNextTimeout now
    if control.pending.isEmpty then control else control.requestImmediate

def handleTimeout (control : ProbeControl Bitrate) (now : ℕ) :
    Option (ProbeClusterConfig Bitrate) × ProbeControl Bitrate :=
  -- a spurious call before the timeout is due is ignored
  if !control.nextTimeout.any (· ≤ now) then (none, control)
  else
    let control := { control with nextTimeout := none }
    match control.enabled, control.desiredBitrate, control.lastEstimate with
    | true, some desired, some estimate =>
        -- pending probes are returned first
        if !control.pending.isEmpty then control.requestImmediate.popPending
        else (control.plan ops now desired estimate).popPending
    | _, _, _ => (none, control)

/-! ## Cluster ids -/

/-- Clusters were queued behind the pending ones, under the next ids. -/
def Queues (before after : ProbeControl Bitrate) : Prop :=
  ∃ configs : List (ProbeClusterConfig Bitrate),
    after.pending = before.pending ++ configs ∧
    configs.map ProbeClusterConfig.cluster =
      List.range' before.nextClusterId configs.length ∧
    after.nextClusterId = before.nextClusterId + configs.length

theorem queues_of_eq {before after : ProbeControl Bitrate}
    (hpending : after.pending = before.pending)
    (hnext : after.nextClusterId = before.nextClusterId) :
    Queues before after :=
  ⟨[], by rw [hpending, List.append_nil], rfl, hnext⟩

theorem Queues.refl (control : ProbeControl Bitrate) :
    Queues control control := queues_of_eq rfl rfl

theorem Queues.trans {first second third : ProbeControl Bitrate}
    (hfirst : Queues first second) (hsecond : Queues second third) :
    Queues first third := by
  obtain ⟨front, hpending, hids, hnext⟩ := hfirst
  obtain ⟨back, hpending', hids', hnext'⟩ := hsecond
  refine ⟨front ++ back, ?_, ?_, ?_⟩
  · rw [hpending', hpending, List.append_assoc]
  · rw [List.map_append, hids, hids', hnext, List.range'_append_1,
      List.length_append]
  · rw [hnext', hnext, List.length_append, Nat.add_assoc]

theorem queues_requestImmediate (control : ProbeControl Bitrate) :
    Queues control control.requestImmediate := queues_of_eq rfl rfl

theorem queues_enable_true (control : ProbeControl Bitrate) :
    Queues control (control.enable true) := by
  rw [enable, Bool.not_true, Bool.and_false]
  split_ifs
  · exact queues_of_eq rfl rfl
  · contradiction
  · exact Queues.refl control

theorem queues_setAlrStartTime (control : ProbeControl Bitrate) (t : ℕ) :
    Queues control (control.setAlrStartTime t) := by
  rw [setAlrStartTime]
  split_ifs <;> exact queues_of_eq rfl rfl

theorem queues_setAlrStopTime (control : ProbeControl Bitrate) (t : ℕ) :
    Queues control (control.setAlrStopTime t) := by
  rw [setAlrStopTime]
  split_ifs <;> exact queues_of_eq rfl rfl

section Steps

variable (control : ProbeControl Bitrate)

theorem queues_setDesiredBitrate (v : Bitrate) :
    Queues control (control.setDesiredBitrate ops v) := by
  rw [setDesiredBitrate]
  split_ifs <;> exact queues_of_eq rfl rfl

theorem queues_setEstimatedBitrate (v : Bitrate)
    (cause : BandwidthLimitedCause) :
    Queues control (control.setEstimatedBitrate ops v cause) := by
  rw [setEstimatedBitrate]
  dsimp only
  split_ifs <;> exact queues_of_eq rfl rfl

theorem queues_onProbeOutcome (measured : Option Bitrate) (target : Bitrate)
    (overusing : Bool) :
    Queues control (control.onProbeOutcome ops measured target overusing) := by
  rw [onProbeOutcome]
  split_ifs <;> exact queues_of_eq rfl rfl

theorem queues_queueProbe (bitrate : Bitrate) (kind : ProbeKind)
    (desired : Bitrate) (now : ℕ) :
    Queues control (control.queueProbe ops bitrate kind desired now) := by
  rw [queueProbe]
  split_ifs
  · exact Queues.refl control
  · exact ⟨[_], rfl, rfl, rfl⟩

theorem queues_trackDrop (now : ℕ) (estimate : Bitrate) :
    Queues control (control.trackDrop ops now estimate) := by
  rw [trackDrop]
  dsimp only
  split_ifs <;> exact queues_of_eq rfl rfl

variable (now : ℕ) (desired estimate : Bitrate)

theorem queues_maybeInitial :
    Queues control (control.maybeInitial ops now desired estimate).2 := by
  rw [maybeInitial]
  split_ifs
  · exact Queues.refl control
  · exact (queues_queueProbe ops control _ _ _ _).trans
      (queues_queueProbe ops _ _ _ _ _)

theorem queues_maybeLargeDrop :
    Queues control (control.maybeLargeDrop ops now desired estimate).2 := by
  rw [maybeLargeDrop]
  split_ifs
  · exact Queues.refl control
  · split
    · exact Queues.refl control
    · dsimp only
      split_ifs
      all_goals first
        | exact queues_of_eq rfl rfl
        | exact queues_queueProbe ops control _ _ _ _

theorem queues_maybeExponential :
    Queues control (control.maybeExponential ops now desired estimate).2 := by
  rw [maybeExponential]
  split
  · dsimp only
    split_ifs
    all_goals first
      | exact Queues.refl control
      | exact queues_queueProbe ops control _ _ _ _
  · exact Queues.refl control

theorem queues_maybeIncreaseAlr :
    Queues control (control.maybeIncreaseAlr ops now desired estimate).2 := by
  rw [maybeIncreaseAlr]
  split_ifs
  · exact Queues.refl control
  · have hdesired : Queues control
        { control with prevDesired := some desired } := queues_of_eq rfl rfl
    apply hdesired.trans
    dsimp only
    split
    · exact Queues.refl _
    · split_ifs
      · exact Queues.refl _
      · exact (queues_queueProbe ops _ _ _ _ _).trans
          (queues_queueProbe ops _ _ _ _ _)
      · exact queues_queueProbe ops _ _ _ _ _

theorem queues_maybePeriodicAlr :
    Queues control (control.maybePeriodicAlr ops now desired estimate).2 := by
  rw [maybePeriodicAlr]
  split_ifs
  · exact Queues.refl control
  · exact queues_queueProbe ops control _ _ _ _

theorem queues_maybeStagnant :
    Queues control (control.maybeStagnant ops now desired estimate).2 := by
  rw [maybeStagnant]
  split_ifs
  · exact Queues.refl control
  · split
    · exact Queues.refl control
    · dsimp only
      split_ifs
      · exact Queues.refl control
      · exact (queues_queueProbe ops control _ _ _ _).trans
          (queues_of_eq rfl rfl)

/-- Whichever attempts are made, the clusters get the next ids. -/
theorem queues_tryEach
    {attempts : List (ProbeControl Bitrate → Bool × ProbeControl Bitrate)}
    (hattempts : ∀ attempt ∈ attempts, ∀ control,
      Queues control (attempt control).2) :
    Queues control (tryEach attempts control) := by
  induction attempts generalizing control with
  | nil => exact Queues.refl control
  | cons attempt attempts ih =>
      obtain ⟨hattempt, hrest⟩ := List.forall_mem_cons.mp hattempts
      rw [tryEach]
      dsimp only
      split_ifs
      · exact hattempt control
      · exact (hattempt control).trans (ih _ hrest)

theorem queues_attempts : ∀ attempt ∈ attempts ops now desired estimate,
    ∀ control, Queues control (attempt control).2 := by
  simp only [attempts, List.map_cons, List.map_nil, List.forall_mem_cons]
  exact ⟨fun control => queues_maybeInitial ops control _ _ _,
    fun control => queues_maybeLargeDrop ops control _ _ _,
    fun control => queues_maybeExponential ops control _ _ _,
    fun control => queues_maybeIncreaseAlr ops control _ _ _,
    fun control => queues_maybePeriodicAlr ops control _ _ _,
    fun control => queues_maybeStagnant ops control _ _ _,
    List.forall_mem_nil _⟩

theorem queues_updateProgress :
    Queues control (control.updateProgress ops now estimate) := by
  rw [updateProgress]
  split_ifs <;> exact queues_of_eq rfl rfl

theorem queues_computeNextTimeout :
    Queues control (control.computeNextTimeout now) := by
  rw [computeNextTimeout]
  split_ifs <;> exact queues_of_eq rfl rfl

theorem queues_plan :
    Queues control (control.plan ops now desired estimate) := by
  rw [plan]
  dsimp only
  split_ifs
  · exact queues_trackDrop ops control now estimate
  all_goals
    have hplanned := ((queues_trackDrop ops control now estimate).trans
      (queues_tryEach _ (queues_attempts ops now desired estimate))).trans
        (queues_updateProgress ops _ now estimate)
    apply hplanned.trans
    apply Queues.trans _ (queues_computeNextTimeout _ now)
    exact queues_of_eq rfl rfl

end Steps

/-- At most the oldest of the clusters that are then pending is handed out. -/
def Issues (before : ProbeControl Bitrate)
    (result : Option (ProbeClusterConfig Bitrate) × ProbeControl Bitrate) :
    Prop :=
  ∃ planned, Queues before planned ∧
    result.2.nextClusterId = planned.nextClusterId ∧
    planned.pending = result.1.toList ++ result.2.pending

theorem issues_none {before planned : ProbeControl Bitrate}
    (h : Queues before planned) : Issues before (none, planned) :=
  ⟨planned, h, rfl, rfl⟩

theorem issues_popPending {before planned : ProbeControl Bitrate}
    (h : Queues before planned) : Issues before planned.popPending := by
  refine ⟨planned, h, rfl, ?_⟩
  rw [popPending]
  cases planned.pending with
  | nil => rfl
  | cons config rest => rfl

theorem issues_handleTimeout (control : ProbeControl Bitrate) (now : ℕ) :
    Issues control (control.handleTimeout ops now) := by
  have hreset : Queues control { control with nextTimeout := none } :=
    queues_of_eq rfl rfl
  rw [handleTimeout]
  split_ifs
  · exact issues_none (Queues.refl control)
  · dsimp only
    split
    case h_1 =>
      split_ifs
      · exact issues_popPending (hreset.trans (queues_requestImmediate _))
      · exact issues_popPending (hreset.trans (queues_plan ops _ _ _ _))
    case h_2 => exact issues_none hreset

end ProbeControl

end GameStreamer
