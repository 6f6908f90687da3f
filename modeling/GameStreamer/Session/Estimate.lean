import GameStreamer.Session.BweDriver
import Mathlib.Data.Rat.Init

/-!
# The smoothed estimate of a driver

The estimator always holds an estimate: the delay controller starts from the
opening bitrate and is only ever given newer ones.  On every tick the smoother
records it, and a poll emits the average of a three-second window when that
average is the first one, or has left the tolerance around the last one
emitted.  So the first tick of a driver always yields an estimate.

A bitrate is a rational number of bits per second, as every finite floating
point number is.  What the floating-point arithmetic makes of the window, and
what the delay and the loss controllers say, are inputs.
-/

namespace GameStreamer

/-- The averages of the estimates of a time window. -/
structure EstimateSmoother where
  /-- The changed estimates with their times, oldest first. -/
  estimates : List (ℕ × ℚ)
  maybeEmit : Bool
  emitted : Option ℚ
  deriving DecidableEq, Repr

namespace EstimateSmoother

/-- Three seconds. -/
def estimateWindow : ℕ := 3000000

def new : EstimateSmoother := ⟨[], false, none⟩

/-- Remove the entries older than the window, the last one excepted; the
second component tells whether there were any. -/
def expire (now : ℕ) : List (ℕ × ℚ) → List (ℕ × ℚ) × Bool
  | [] => ([], false)
  | [last] => ([last], false)
  | (time, rate) :: estimates =>
      if estimateWindow < now - time then ((expire now estimates).1, true)
      else ((time, rate) :: estimates, false)

/-- Record a new estimate and update the window. -/
def record (smoother : EstimateSmoother) (now : ℕ) (estimate : ℚ) :
    EstimateSmoother :=
  let changed := smoother.estimates.getLast?.map Prod.snd ≠ some estimate
  let estimates := if changed then smoother.estimates ++ [(now, estimate)]
    else smoother.estimates
  let (estimates, expired) := expire now estimates
  { smoother with
    estimates := estimates
    maybeEmit := smoother.maybeEmit || changed || expired }

/-- Poll for an estimate to emit, the window's average being `rate`. -/
def poll (smoother : EstimateSmoother) (rate : ℚ) (inTolerance : Bool) :
    Option ℚ × EstimateSmoother :=
  if !smoother.maybeEmit || smoother.estimates.isEmpty then (none, smoother)
  else
    -- a window with one entry, which was not the last one emitted
    let force := smoother.estimates.length = 1 ∧ smoother.emitted ≠ some rate
    let deviate := smoother.emitted.isNone || !inTolerance
    if ¬force ∧ !deviate then (none, { smoother with maybeEmit := false })
    else (some rate, { smoother with maybeEmit := false, emitted := some rate })

/-- A smoother that has recorded nothing emits the first estimate, whatever
its value. -/
theorem poll_record_new (now : ℕ) (estimate rate : ℚ) (inTolerance : Bool) :
    ((new.record now estimate).poll rate inTolerance).1 = some rate := by
  simp [record, new, expire, poll]

end EstimateSmoother

/-- What the floating-point controllers say at a tick.  They are free but for
their first values, which the constructors give. -/
structure EstimateInputs where
  /-- The delay-based estimate, where an update since the last tick, or this
  tick's timeout, set it. -/
  delay : Option ℚ
  /-- The loss-based estimate, while the loss controller limits or
  recovers. -/
  loss : Option ℚ
  /-- The average of the smoother's window. -/
  average : ℚ
  /-- That average is within 5% of the one last emitted. -/
  inTolerance : Bool
  deriving DecidableEq, Repr

/-- The part of the estimator behind its estimate: the smoother, and whether
the loss-based estimate counts yet. -/
structure Bwe where
  /-- The delay controller's last estimate, once there is one. -/
  delayEstimate : Option ℚ
  smoother : EstimateSmoother
  deriving DecidableEq, Repr

namespace Bwe

def new (initial : ℚ) : Bwe := ⟨some initial, .new⟩

/-- The lower of the two estimates, while loss counts. -/
def lastEstimate (bwe : Bwe) (loss : Option ℚ) : Option ℚ :=
  match bwe.delayEstimate, loss with
  | some delay, some loss => some (min delay loss)
  | none, loss => loss
  | delay, none => delay

/-- Record the estimate that this timeout finds. -/
def handleTimeout (bwe : Bwe) (now : ℕ) (inputs : EstimateInputs) : Bwe :=
  let bwe := { bwe with
    delayEstimate := inputs.delay.or bwe.delayEstimate }
  match bwe.lastEstimate inputs.loss with
  | none => bwe
  | some estimate => { bwe with
      smoother := bwe.smoother.record now estimate }

def pollEstimate (bwe : Bwe) (inputs : EstimateInputs) : Option ℚ × Bwe :=
  let (rate, smoother) := bwe.smoother.poll inputs.average inputs.inTolerance
  (rate, { bwe with smoother })

/-- A delay-based estimate is there, and nothing was recorded yet. -/
structure Unpolled (bwe : Bwe) : Prop where
  delay : bwe.delayEstimate.isSome
  smoother : bwe.smoother = .new

theorem unpolled_new (initial : ℚ) : (new initial).Unpolled := ⟨rfl, rfl⟩

theorem isSome_lastEstimate {bwe : Bwe} (h : bwe.delayEstimate.isSome)
    (loss : Option ℚ) : (bwe.lastEstimate loss).isSome := by
  obtain ⟨delay, hdelay⟩ := Option.isSome_iff_exists.mp h
  cases loss <;> simp only [lastEstimate, hdelay, Option.isSome_some]

/-- The first timeout leaves an estimate to be polled. -/
theorem Unpolled.polls {bwe : Bwe} (h : bwe.Unpolled) (now : ℕ)
    (inputs : EstimateInputs) :
    ((bwe.handleTimeout now inputs).pollEstimate inputs).1 =
      some inputs.average := by
  have hdelay : (inputs.delay.or bwe.delayEstimate).isSome := by
    rw [Option.isSome_or, h.delay, Bool.or_true]
  obtain ⟨estimate, hestimate⟩ := Option.isSome_iff_exists.mp
    (@isSome_lastEstimate
      { bwe with delayEstimate := inputs.delay.or bwe.delayEstimate }
      hdelay inputs.loss)
  rw [handleTimeout]
  dsimp only
  rw [hestimate, pollEstimate]
  dsimp only
  rw [h.smoother, EstimateSmoother.poll_record_new]

end Bwe

/-- The driver of one session, with its estimator.  A session that is started
gets a new one, so that its first tick finds an estimate of its own. -/
structure SessionDriver extends BweDriver where
  bwe : Bwe
  deriving DecidableEq, Repr

namespace SessionDriver

def new (startBps nowAgentUs : ℕ) : SessionDriver where
  toBweDriver := .new nowAgentUs
  bwe := .new startBps

/-- The estimate's part in a feedback batch comes with the next tick's
inputs. -/
def onFeedback (driver : SessionDriver) (sent : List SendRecord)
    (feedback : PacketFeedback) (nowAgentUs : ℕ) : SessionDriver :=
  { driver with
    toBweDriver := driver.toBweDriver.onFeedback sent feedback nowAgentUs }

/-- Periodic drive: underuse detection advances even when media is silent,
and the estimator takes its timeout. -/
def onTick (driver : SessionDriver) (nowAgentUs : ℕ)
    (inputs : EstimateInputs) : SessionDriver :=
  let media := driver.toBweDriver.onMediaSent 0 nowAgentUs
  { toBweDriver := media
    bwe := driver.bwe.handleTimeout media.lastNow inputs }

/-- `Bitrate::as_u64`. -/
def asU64 (rate : ℚ) : ℕ := min rate.ceil.toNat (2 ^ 64 - 1)

/-- Latest smoothed estimate, if there is one to emit. -/
def estimateBps (driver : SessionDriver) (inputs : EstimateInputs) :
    Option ℕ × SessionDriver :=
  let (rate, bwe) := driver.bwe.pollEstimate inputs
  (rate.map asU64, { driver with bwe })

end SessionDriver

end GameStreamer
