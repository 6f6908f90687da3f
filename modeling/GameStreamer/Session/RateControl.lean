import GameStreamer.Core.EventRun
import GameStreamer.Session.Trendline
import Mathlib.Algebra.Order.Ring.Rat
import Mathlib.Data.Rat.Floor
import Mathlib.Order.Lattice
import Mathlib.Order.MinMax

/-!
# The rate controller

Additive increase, multiplicative decrease: the controller turns the signals
of the delay detector and the delivered rate into a bitrate estimate.  A
capacity that probes have proven floors its cuts for a while, so that a delay
spike on a link that the media does not fill cannot collapse the estimate.

Rates are ordered, and their arithmetic is a parameter; the bounds below do
not depend on how it rounds.  Instants and durations are nanoseconds.
-/

namespace GameStreamer

/-- The arithmetic on rates, on 64-bit floats in the source. -/
structure RateOps (Rate : Type*) where
  /-- A number that the source writes down. -/
  lit : ℚ → Rate
  /-- `as_secs_f64`. -/
  secs : ℕ → Rate
  add : Rate → Rate → Rate
  sub : Rate → Rate → Rate
  mul : Rate → Rate → Rate
  div : Rate → Rate → Rate
  pow : Rate → Rate → Rate
  sqrt : Rate → Rate
  ceil : Rate → Rate

/-- An exponential moving average. -/
structure MovingAverage (Rate : Type*) where
  smoothingFactor : Rate
  average : Option Rate
  variance : Rate
  std : Rate
  deriving DecidableEq, Repr

inductive RateSignal where
  | overuse
  | underuse
  | normal
  deriving DecidableEq, Repr

inductive RateState where
  | increase
  | hold
  | decrease
  deriving DecidableEq, Repr

/-- The rate controller: the state of its ramp, its estimate with the limits,
and what it has seen of delivered rates, of probes and of overuse. -/
structure RateControl (Rate : Type*) where
  state : RateState
  estimatedBitrate : Rate
  minBitrate : Rate
  maxBitrate : Rate
  lastObservedBitrate : Option Rate
  averagedObservedBitrate : MovingAverage Rate
  lastEstimateUpdate : Option ℕ
  lastRtt : Option ℕ
  linkCapacity : Option Rate
  flooredSince : Option ℕ
  capacityDiscredited : Bool
  deriving DecidableEq, Repr

variable {Rate : Type*} [LinearOrder Rate] (ops : RateOps Rate)

def RateState.transition : RateState → RateSignal → RateState
  | _, .overuse => .decrease
  | _, .underuse => .hold
  | .decrease, .normal => .hold
  | .hold, .normal | .increase, .normal => .increase

namespace MovingAverage

def new (smoothingFactor : Rate) : MovingAverage Rate where
  smoothingFactor := smoothingFactor
  average := none
  variance := ops.lit 0
  std := ops.lit 0

def withinStd (moving : MovingAverage Rate) (value numStd : Rate) : Bool :=
  match moving.average with
  | none => false
  | some average =>
      decide (ops.sub average (ops.mul moving.std numStd) ≤ value ∧
        value ≤ ops.add average (ops.mul moving.std numStd))

def upperRange (moving : MovingAverage Rate) (numStd : Rate) : Option Rate :=
  if moving.std = ops.lit 0 then none
  else moving.average.map fun average =>
    ops.add average (ops.mul numStd moving.std)

def lowerRange (moving : MovingAverage Rate) (numStd : Rate) : Option Rate :=
  if moving.std = ops.lit 0 then none
  else moving.average.map fun average =>
    ops.sub average (ops.mul numStd moving.std)

def update (moving : MovingAverage Rate) (value : Rate) :
    MovingAverage Rate :=
  match moving.average with
  | none => { moving with average := some value }
  | some average =>
      let delta := ops.sub value average
      let variance := ops.mul
        (ops.sub (ops.lit 1) moving.smoothingFactor)
        (ops.add moving.variance
          (ops.mul moving.smoothingFactor (ops.pow delta (ops.lit 2))))
      { moving with
        average := some
          (ops.add average (ops.mul moving.smoothingFactor delta))
        variance := variance
        std := ops.sqrt variance }

def reset (moving : MovingAverage Rate) : MovingAverage Rate :=
  { moving with average := none, variance := ops.lit 0, std := ops.lit 0 }

end MovingAverage

namespace RateControl

def observedBitRateSmoothingFactor : ℚ := 95 / 100
def beta : ℚ := 85 / 100
def multiplicativeIncreaseCoef : ℚ := 108 / 100
def maxEstimateRatio : ℚ := 3 / 2
def defaultBackoffTime : ℕ := 100000000
def capacityDiscreditAfter : ℕ := 500000000
def observedBitrateResetThresholdStd : ℚ := 3

def new (startBitrate minBitrate maxBitrate : Rate) : RateControl Rate where
  state := .increase
  estimatedBitrate := startBitrate
  minBitrate := minBitrate
  maxBitrate := maxBitrate
  lastObservedBitrate := none
  averagedObservedBitrate :=
    .new ops (ops.lit observedBitRateSmoothingFactor)
  lastEstimateUpdate := none
  lastRtt := none
  linkCapacity := none
  flooredSince := none
  capacityDiscredited := false

/-- The clamp keeps every estimate in range. -/
def updateEstimate (control : RateControl Rate) (bitrate : Rate) (now : ℕ) :
    RateControl Rate :=
  { control with
    estimatedBitrate :=
      if bitrate < control.minBitrate then control.minBitrate
      else if control.maxBitrate < bitrate then control.maxBitrate
      else bitrate
    lastEstimateUpdate := some now }

def updateObservedBitrate (control : RateControl Rate) (observed : Rate) :
    RateControl Rate :=
  let moving := control.averagedObservedBitrate
  let low := match moving.lowerRange ops
      (ops.lit observedBitrateResetThresholdStd) with
    | some lower => decide (observed < lower)
    | none => false
  let moving := if low then moving.reset ops else moving
  { control with averagedObservedBitrate := moving.update ops observed }

/-- One round trip has passed, or the throughput is critically low. -/
def timeToReduceFurther (control : RateControl Rate) (now : ℕ)
    (observed : Rate) : Bool :=
  match control.lastEstimateUpdate with
  | none => true
  | some lastChange =>
      let rtt := control.lastRtt.getD defaultBackoffTime
      let reductionInterval := max 10000000 (min rtt 200000000)
      decide (reductionInterval ≤ now - lastChange) ||
        decide (observed < ops.mul control.estimatedBitrate
          (ops.lit (1 / 2)))

def isNearConvergence (control : RateControl Rate) : Bool :=
  if control.averagedObservedBitrate.average.isNone then false
  else
    match control.lastObservedBitrate with
    | none => false
    | some observed =>
        control.averagedObservedBitrate.withinStd ops observed (ops.lit 3)

/-- Assume that video at 30 frames a second dominates the send rate. -/
def estimatedPacketSize (control : RateControl Rate) : Rate :=
  let bitsPerFrame := ops.div control.estimatedBitrate (ops.lit 30)
  let packetsPerFrame := ops.ceil
    (ops.div bitsPerFrame (ops.div (ops.lit 1200) (ops.lit 8)))
  ops.div bitsPerFrame packetsPerFrame

/-- The estimate after the increase, before it is capped. -/
def increased (control : RateControl Rate) (sinceLastUpdate : ℕ) : Rate :=
  if control.isNearConvergence ops then
    let responseTime := control.lastRtt.getD 0 + defaultBackoffTime
    let alpha := ops.mul (ops.lit (1 / 2))
      (min (ops.div (ops.secs sinceLastUpdate) (ops.secs responseTime))
        (ops.lit 1))
    ops.add control.estimatedBitrate
      (max (ops.mul alpha (control.estimatedPacketSize ops)) (ops.lit 1000))
  else
    let eta := ops.pow (ops.lit multiplicativeIncreaseCoef)
      (min (ops.secs sinceLastUpdate) (ops.lit 1))
    ops.add control.estimatedBitrate
      (max (ops.mul (ops.sub eta (ops.lit 1)) control.estimatedBitrate)
        (ops.lit 1000))

def increase (control : RateControl Rate) (observed : Rate) (now : ℕ) :
    RateControl Rate :=
  let control := { control with flooredSince := none }
  let increaseLimit := ops.add (ops.mul observed (ops.lit (3 / 2)))
    (ops.lit 10000)
  if increaseLimit ≤ control.estimatedBitrate then
    { control with lastEstimateUpdate := some now }
  else
    let lastEstimateUpdate := control.lastEstimateUpdate.getD now
    let moving := control.averagedObservedBitrate
    let high := match moving.upperRange ops (ops.lit 3) with
      | some upper => decide (upper < observed)
      | none => false
    let control := { control with
      lastEstimateUpdate := some lastEstimateUpdate
      averagedObservedBitrate := if high then moving.reset ops else moving }
    let newEstimate := control.increased ops (now - lastEstimateUpdate)
    let newEstimate := min
      (min (ops.mul observed (ops.lit maxEstimateRatio)) newEstimate)
      increaseLimit
    control.updateEstimate newEstimate now

def decrease (control : RateControl Rate) (observed : Rate) (now : ℕ) :
    RateControl Rate :=
  let cut := ops.mul observed (ops.lit beta)
  let floor := (control.linkCapacity.filter fun _ =>
    !control.capacityDiscredited).map fun capacity =>
      ops.mul capacity (ops.lit beta)
  let (control, newEstimate) :=
    match floor with
    | none => ({ control with flooredSince := none }, cut)
    | some floor =>
        if cut < floor then
          -- the cut is floored
          let since := control.flooredSince.getD now
          let control := { control with flooredSince := some since }
          if capacityDiscreditAfter < now - since then
            ({ control with capacityDiscredited := true }, cut)
          else (control, floor)
        else ({ control with flooredSince := none }, cut)
  -- avoid increasing the bitrate on overuse
  let newEstimate := if control.estimatedBitrate < newEstimate then
    control.estimatedBitrate else newEstimate
  updateEstimate { control with state := .hold } newEstimate now

/-- What an update records before it acts.  A normal signal is relief:
benign recurring spikes do not add up. -/
def heed (control : RateControl Rate) (signal : RateSignal)
    (observed : Rate) (rtt : Option ℕ) : RateControl Rate :=
  { control with
    lastObservedBitrate := some observed
    lastRtt := rtt.orElse fun _ => control.lastRtt
    flooredSince := if signal = RateSignal.normal then none
      else control.flooredSince
    state := control.state.transition signal }

/-- Update with input from the delay controller.  The signal moves the state,
and the state decides whether the estimate goes up, down or stays. -/
def update (control : RateControl Rate) (signal : RateSignal)
    (observed : Rate) (rtt : Option ℕ) (now : ℕ) : RateControl Rate :=
  let control := control.heed signal observed rtt
  match control.state with
  | .increase => control.increase ops observed now
  | .decrease =>
      let control := control.updateObservedBitrate ops observed
      if control.timeToReduceFurther ops now observed then
        control.decrease ops observed now
      else control
  | .hold => control

/-- A probe result is adopted as it is, up to the clamp. -/
def setProbeResult (control : RateControl Rate) (probeBitrate : Rate)
    (now : ℕ) : RateControl Rate :=
  control.updateEstimate probeBitrate now

def setLinkCapacity (control : RateControl Rate) (capacity : Option Rate) :
    RateControl Rate :=
  { control with
    capacityDiscredited :=
      if capacity.isNone then false else control.capacityDiscredited
    linkCapacity := capacity }

end RateControl

/-- What the delay controller tells the rate controller. -/
inductive RateEvent (Rate : Type*) where
  | update (signal : RateSignal) (observed : Rate) (rtt : Option ℕ) (now : ℕ)
  | probeResult (bitrate : Rate) (now : ℕ)
  | linkCapacity (capacity : Option Rate)
  deriving DecidableEq, Repr

namespace RateControl

/-- What one event does to the controller: an update, the result of a probe, or
a new estimate of the link's capacity. -/
def step (control : RateControl Rate) : RateEvent Rate → RateControl Rate
  | .update signal observed rtt now =>
      control.update ops signal observed rtt now
  | .probeResult bitrate now => control.setProbeResult bitrate now
  | .linkCapacity capacity => control.setLinkCapacity capacity

theorem updateEstimate_le {control : RateControl Rate} {bitrate bound : Rate}
    (hbitrate : bitrate ≤ bound) (hmin : control.minBitrate ≤ bound)
    (now : ℕ) :
    (control.updateEstimate bitrate now).estimatedBitrate ≤ bound := by
  simp only [updateEstimate]
  split_ifs with hlow hhigh
  · exact hmin
  · exact hhigh.le.trans hbitrate
  · exact hbitrate

/-- What an update by the delay controller leaves alone. -/
structure SameLimits (next control : RateControl Rate) : Prop where
  minBitrate : next.minBitrate = control.minBitrate
  maxBitrate : next.maxBitrate = control.maxBitrate
  linkCapacity : next.linkCapacity = control.linkCapacity

/-- All that a cut can do.  It takes the minimum of the estimate and a new
value, which is the floor while the capacity is trusted and the cut would go
below it. -/
theorem decrease_cases (control : RateControl Rate) (observed : Rate)
    (now : ℕ) :
    ∃ flooredSince discredited newEstimate,
      control.decrease ops observed now =
          updateEstimate { control with
            state := .hold
            flooredSince := flooredSince
            capacityDiscredited := discredited }
              (min control.estimatedBitrate newEstimate) now ∧
        ((flooredSince = none ∧ discredited = control.capacityDiscredited ∧
            ∀ capacity, control.linkCapacity = some capacity →
              control.capacityDiscredited = false →
                ops.mul capacity (ops.lit beta) ≤ newEstimate) ∨
          (flooredSince = some (control.flooredSince.getD now) ∧
            discredited = control.capacityDiscredited ∧
              control.linkCapacity.map
                  (fun capacity => ops.mul capacity (ops.lit beta)) =
                some newEstimate) ∨
          (flooredSince = some (control.flooredSince.getD now) ∧
            discredited = true ∧
              capacityDiscreditAfter <
                now - control.flooredSince.getD now)) := by
  rw [decrease]
  cases hfloor : control.linkCapacity.filter fun _ =>
      !control.capacityDiscredited with
  | none =>
      refine ⟨none, control.capacityDiscredited, _,
        by rw [min_def_lt]; rfl, Or.inl ⟨rfl, rfl, ?_⟩⟩
      intro capacity hcapacity htrusted
      rw [hcapacity, Option.filter_some, htrusted] at hfloor
      exact absurd hfloor (Option.some_ne_none capacity)
  | some capacity =>
      have hcapacity : control.linkCapacity = some capacity :=
        (Option.filter_eq_some_iff.mp hfloor).1
      dsimp only [Option.map_some]
      by_cases hcut : ops.mul observed (ops.lit beta) <
          ops.mul capacity (ops.lit beta)
      · rw [if_pos hcut]
        by_cases hlate : capacityDiscreditAfter <
            now - control.flooredSince.getD now
        · rw [if_pos hlate]
          exact ⟨_, true, _, by rw [min_def_lt],
            Or.inr (Or.inr ⟨rfl, rfl, hlate⟩)⟩
        · rw [if_neg hlate]
          refine ⟨_, control.capacityDiscredited, _, by rw [min_def_lt],
            Or.inr (Or.inl ⟨rfl, rfl, ?_⟩)⟩
          rw [hcapacity, Option.map_some]
      · rw [if_neg hcut]
        refine ⟨none, control.capacityDiscredited, _, by rw [min_def_lt],
          Or.inl ⟨rfl, rfl, ?_⟩⟩
        intro other hother _
        rw [hcapacity, Option.some.injEq] at hother
        rw [← hother]
        exact not_lt.mp hcut

/-- All that an increase can do: nothing, or a new value that is at most one
and a half times the observed rate. -/
theorem increase_cases (control : RateControl Rate) (observed : Rate)
    (now : ℕ) :
    ∃ moving lastEstimateUpdate,
      control.increase ops observed now = { control with
          flooredSince := none
          averagedObservedBitrate := moving
          lastEstimateUpdate := lastEstimateUpdate } ∨
        ∃ newEstimate ≤ ops.mul observed (ops.lit maxEstimateRatio),
          control.increase ops observed now =
            updateEstimate { control with
              flooredSince := none
              averagedObservedBitrate := moving
              lastEstimateUpdate := lastEstimateUpdate } newEstimate now := by
  rw [increase]
  dsimp only
  by_cases hlimit : ops.add (ops.mul observed (ops.lit (3 / 2)))
      (ops.lit 10000) ≤ control.estimatedBitrate
  · rw [if_pos hlimit]
    exact ⟨control.averagedObservedBitrate, some now, Or.inl rfl⟩
  · rw [if_neg hlimit]
    exact ⟨_, _, Or.inr ⟨_, (min_le_left _ _).trans (min_le_left _ _), rfl⟩⟩

/-- The rates that an event can raise the estimate to are within a bound. -/
def BoundedBy (bound : Rate) : RateEvent Rate → Prop
  | .update _ observed _ _ =>
      ops.mul observed (ops.lit maxEstimateRatio) ≤ bound
  | .probeResult bitrate _ => bitrate ≤ bound
  | .linkCapacity _ => True

theorem increase_le (control : RateControl Rate) {observed bound : Rate}
    (hobserved : ops.mul observed (ops.lit maxEstimateRatio) ≤ bound)
    (hestimate : control.estimatedBitrate ≤ bound)
    (hmin : control.minBitrate ≤ bound) (now : ℕ) :
    (control.increase ops observed now).estimatedBitrate ≤ bound := by
  obtain ⟨moving, last, hsame | ⟨new, hnew, hupdate⟩⟩ :=
    control.increase_cases ops observed now
  · rw [hsame]
    exact hestimate
  · rw [hupdate]
    exact updateEstimate_le (hnew.trans hobserved) hmin now

theorem decrease_le (control : RateControl Rate) {bound : Rate}
    (hestimate : control.estimatedBitrate ≤ bound)
    (hmin : control.minBitrate ≤ bound) (observed : Rate) (now : ℕ) :
    (control.decrease ops observed now).estimatedBitrate ≤ bound := by
  obtain ⟨floored, discredited, new, hupdate, -⟩ :=
    control.decrease_cases ops observed now
  rw [hupdate]
  exact updateEstimate_le ((min_le_left _ _).trans hestimate) hmin now

theorem transition_eq_increase {state : RateState} {signal : RateSignal}
    (hincrease : state.transition signal = .increase) : signal = .normal := by
  cases state <;> cases signal <;>
    first | rfl | exact RateState.noConfusion hincrease

theorem transition_eq_decrease {state : RateState} {signal : RateSignal}
    (hdecrease : state.transition signal = .decrease) :
    signal = .overuse := by
  cases state <;> cases signal <;>
    first | rfl | exact RateState.noConfusion hdecrease

/-- An update increases on a normal signal, cuts on overuse, or leaves the
estimate alone. -/
theorem update_cases (control : RateControl Rate) (signal : RateSignal)
    (observed : Rate) (rtt : Option ℕ) (now : ℕ) :
    (signal = .normal ∧ control.update ops signal observed rtt now =
        (control.heed signal observed rtt).increase ops observed now) ∨
      ∃ moving,
        control.update ops signal observed rtt now =
            { control.heed signal observed rtt with
              averagedObservedBitrate := moving } ∨
          (signal = .overuse ∧ control.update ops signal observed rtt now =
            decrease ops { control.heed signal observed rtt with
              averagedObservedBitrate := moving } observed now) := by
  rw [update]
  dsimp only
  split
  · next hstate =>
      exact Or.inl ⟨transition_eq_increase hstate, rfl⟩
  · next hstate =>
      refine Or.inr ⟨(updateObservedBitrate ops
        (control.heed signal observed rtt) observed).averagedObservedBitrate,
        ?_⟩
      split_ifs
      · exact Or.inr ⟨transition_eq_decrease hstate, rfl⟩
      · exact Or.inl rfl
  · exact Or.inr
      ⟨(control.heed signal observed rtt).averagedObservedBitrate,
        Or.inl rfl⟩

theorem increase_sameLimits (control : RateControl Rate) (observed : Rate)
    (now : ℕ) : (control.increase ops observed now).SameLimits control := by
  obtain ⟨moving, last, hsame | ⟨new, -, hupdate⟩⟩ :=
    control.increase_cases ops observed now
  · rw [hsame]
    exact ⟨rfl, rfl, rfl⟩
  · rw [hupdate]
    exact ⟨rfl, rfl, rfl⟩

theorem decrease_sameLimits (control : RateControl Rate) (observed : Rate)
    (now : ℕ) : (control.decrease ops observed now).SameLimits control := by
  obtain ⟨floored, discredited, new, hupdate, -⟩ :=
    control.decrease_cases ops observed now
  rw [hupdate]
  exact ⟨rfl, rfl, rfl⟩

theorem update_sameLimits (control : RateControl Rate) (signal : RateSignal)
    (observed : Rate) (rtt : Option ℕ) (now : ℕ) :
    (control.update ops signal observed rtt now).SameLimits control := by
  obtain ⟨-, hincrease⟩ | ⟨moving, hsame | ⟨-, hdecrease⟩⟩ :=
    control.update_cases ops signal observed rtt now
  · have hlimits := increase_sameLimits ops
      (control.heed signal observed rtt) observed now
    rw [hincrease]
    exact ⟨hlimits.1, hlimits.2, hlimits.3⟩
  · rw [hsame]
    exact ⟨rfl, rfl, rfl⟩
  · have hlimits := decrease_sameLimits ops
      { control.heed signal observed rtt with
        averagedObservedBitrate := moving } observed now
    rw [hdecrease]
    exact ⟨hlimits.1, hlimits.2, hlimits.3⟩

theorem step_minBitrate (control : RateControl Rate)
    (event : RateEvent Rate) :
    (control.step ops event).minBitrate = control.minBitrate := by
  cases event with
  | update signal observed rtt now =>
      exact (control.update_sameLimits ops signal observed rtt now).minBitrate
  | probeResult bitrate now => rfl
  | linkCapacity capacity => rfl

theorem step_le {control : RateControl Rate} {bound : Rate}
    (hestimate : control.estimatedBitrate ≤ bound)
    (hmin : control.minBitrate ≤ bound) {event : RateEvent Rate}
    (hevent : BoundedBy ops bound event) :
    (control.step ops event).estimatedBitrate ≤ bound := by
  cases event with
  | update signal observed rtt now =>
      change (control.update ops signal observed rtt now).estimatedBitrate
        ≤ bound
      obtain ⟨-, hincrease⟩ | ⟨moving, hsame | ⟨-, hdecrease⟩⟩ :=
        control.update_cases ops signal observed rtt now
      · rw [hincrease]
        exact increase_le ops (control.heed signal observed rtt) hevent
          hestimate hmin now
      · rw [hsame]
        exact hestimate
      · rw [hdecrease]
        exact decrease_le ops { control.heed signal observed rtt with
          averagedObservedBitrate := moving } hestimate hmin observed now
  | probeResult bitrate now => exact updateEstimate_le hevent hmin now
  | linkCapacity capacity => exact hestimate

/-- The estimate never exceeds the largest of its start, its floor, the probe
results and one and a half times the delivered rates so far. -/
theorem foldl_step_le (control : RateControl Rate)
    (events : List (RateEvent Rate)) (bound : Rate)
    (hstart : control.estimatedBitrate ≤ bound)
    (hmin : control.minBitrate ≤ bound)
    (hevents : ∀ event ∈ events, BoundedBy ops bound event) :
    (events.foldl (step ops) control).estimatedBitrate ≤ bound := by
  have hstep : ∀ (control : RateControl Rate) (event : RateEvent Rate),
      (control.estimatedBitrate ≤ bound ∧ control.minBitrate ≤ bound) →
        BoundedBy ops bound event →
          (control.step ops event).estimatedBitrate ≤ bound ∧
            (control.step ops event).minBitrate ≤ bound := by
    rintro control event ⟨hestimate, hmin⟩ hevent
    refine ⟨step_le ops hestimate hmin hevent, ?_⟩
    rw [step_minBitrate]
    exact hmin
  exact (EventRun.foldl_invariant hstep ⟨hstart, hmin⟩
    (EventRun.along_of_forall hevents control)).1

/-- Exact arithmetic, for powers and roots as far as the runs below need
them. -/
def exactOps : RateOps ℚ where
  lit := id
  secs := fun duration => duration / 1000000000
  add := fun left right => left + right
  sub := fun left right => left - right
  mul := fun left right => left * right
  div := fun left right => left / right
  pow := fun base exponent =>
    if exponent = 0 then 1
    else if exponent = 2 then base * base
    else base
  sqrt := fun value => if value = 0 then 0 else value
  ceil := fun value => ⌈value⌉

/-- Ten megabits, with the limits that the delay controller sets, on a link
that a probe has found to carry eight. -/
def provenControl : RateControl ℚ :=
  (new exactOps 10000000 40000 10000000000).setLinkCapacity (some 8000000)

/-- One megabit is delivered while the delay detector signals overuse. -/
def overuseAt (now : ℕ) : RateEvent ℚ := .update .overuse 1000000 none now

theorem foldl_step_le_proven :
    ([overuseAt 0, overuseAt 300000000].foldl (step exactOps)
      provenControl).estimatedBitrate ≤ 10000000 :=
  foldl_step_le exactOps provenControl [overuseAt 0, overuseAt 300000000]
    10000000 (by decide +kernel) (by decide +kernel) (by
      intro event hevent
      simp only [List.mem_cons, List.not_mem_nil, or_false] at hevent
      rcases hevent with rfl | rfl <;>
        simp only [overuseAt, BoundedBy, exactOps, id, maxEstimateRatio] <;>
        decide +kernel)

/-- An update that brings no relief, made within the time that the capacity
is trusted for. -/
def Spike (start : ℕ) : RateEvent Rate → Prop
  | .update signal _ _ now =>
      signal ≠ .normal ∧ start ≤ now ∧ now ≤ start + capacityDiscreditAfter
  | .probeResult _ _ => False
  | .linkCapacity _ => False

/-- The capacity is trusted, and no cut was floored before the spike. -/
structure Trusting (capacity : Rate) (start : ℕ)
    (control : RateControl Rate) : Prop where
  capacity : control.linkCapacity = some capacity
  trusted : control.capacityDiscredited = false
  since : ∀ since, control.flooredSince = some since → start ≤ since
  inRange : control.minBitrate ≤ control.estimatedBitrate
  belowMax : control.estimatedBitrate ≤ control.maxBitrate

theorem le_updateEstimate {control : RateControl Rate} {bitrate : Rate}
    (hmax : bitrate ≤ control.maxBitrate) (now : ℕ) :
    bitrate ≤ (control.updateEstimate bitrate now).estimatedBitrate := by
  simp only [updateEstimate]
  split_ifs with hlow hhigh
  · exact hlow.le
  · exact absurd hhigh (not_lt.mpr hmax)
  · exact le_rfl

theorem minBitrate_le_updateEstimate {control : RateControl Rate}
    (hlimits : control.minBitrate ≤ control.maxBitrate) (bitrate : Rate)
    (now : ℕ) : control.minBitrate ≤
      (control.updateEstimate bitrate now).estimatedBitrate := by
  simp only [updateEstimate]
  split_ifs with hlow hhigh
  · exact le_rfl
  · exact hlimits
  · exact not_lt.mp hlow

/-- What one step of a spike leaves of the estimate. -/
theorem Trusting.decrease {control : RateControl Rate} {capacity : Rate}
    {start now : ℕ} (htrusting : control.Trusting capacity start)
    (hstart : start ≤ now) (hend : now ≤ start + capacityDiscreditAfter)
    (observed : Rate) :
    (control.decrease ops observed now).Trusting capacity start ∧
      (control.decrease ops observed now).estimatedBitrate
          ≤ control.estimatedBitrate ∧
        min control.estimatedBitrate (ops.mul capacity (ops.lit beta))
          ≤ (control.decrease ops observed now).estimatedBitrate := by
  have hsince : start ≤ control.flooredSince.getD now := by
    cases hfloored : control.flooredSince with
    | none => exact hstart
    | some since => exact htrusting.since since hfloored
  have hlimits := htrusting.inRange.trans htrusting.belowMax
  obtain ⟨floored, discredited, new, hupdate, hcases⟩ :=
    control.decrease_cases ops observed now
  rw [hupdate]
  have hle : min control.estimatedBitrate new ≤ control.estimatedBitrate :=
    min_le_left _ _
  have hcut : (updateEstimate { control with
      state := .hold
      flooredSince := floored
      capacityDiscredited := discredited }
        (min control.estimatedBitrate new) now).estimatedBitrate ≤
      control.estimatedBitrate :=
    updateEstimate_le hle htrusting.inRange now
  -- the floor is what the new value is measured against in every case
  have hfloor : discredited = false ∧
      (∀ since, floored = some since → start ≤ since) ∧
        ops.mul capacity (ops.lit beta) ≤ new := by
    obtain ⟨rfl, rfl, hnew⟩ | ⟨rfl, rfl, hnew⟩ | ⟨rfl, rfl, hlate⟩ := hcases
    · exact ⟨htrusting.trusted, fun since hnone =>
        absurd hnone.symm (Option.some_ne_none since),
        hnew capacity htrusting.capacity htrusting.trusted⟩
    · rw [htrusting.capacity, Option.map_some, Option.some.injEq] at hnew
      refine ⟨htrusting.trusted, fun since hsome => ?_, hnew.le⟩
      rw [Option.some.injEq] at hsome
      rw [← hsome]
      exact hsince
    · omega
  obtain ⟨htrusted, hlater, hnew⟩ := hfloor
  refine ⟨⟨htrusting.capacity, htrusted, hlater,
    minBitrate_le_updateEstimate hlimits _ now,
    hcut.trans htrusting.belowMax⟩, hcut, ?_⟩
  exact (min_le_min_left _ hnew).trans
    (le_updateEstimate (hle.trans htrusting.belowMax) now)

theorem Trusting.step {control : RateControl Rate} {capacity : Rate}
    {start : ℕ} (htrusting : control.Trusting capacity start)
    {event : RateEvent Rate} (hspike : Spike start event) :
    (control.step ops event).Trusting capacity start ∧
      (control.step ops event).estimatedBitrate
          ≤ control.estimatedBitrate ∧
        min control.estimatedBitrate (ops.mul capacity (ops.lit beta))
          ≤ (control.step ops event).estimatedBitrate := by
  cases event with
  | update signal observed rtt now =>
      obtain ⟨hsignal, hstart, hend⟩ := hspike
      have hheed : ∀ moving, Trusting capacity start
          { control.heed signal observed rtt with
            averagedObservedBitrate := moving } := fun moving =>
        ⟨htrusting.capacity, htrusting.trusted, fun since hsome =>
          htrusting.since since (by rwa [heed, if_neg hsignal] at hsome),
          htrusting.inRange, htrusting.belowMax⟩
      rw [RateControl.step]
      obtain ⟨hnormal, -⟩ | ⟨moving, hsame | ⟨-, hdecrease⟩⟩ :=
        control.update_cases ops signal observed rtt now
      · exact absurd hnormal hsignal
      · rw [hsame]
        exact ⟨hheed moving, le_rfl, min_le_left _ _⟩
      · rw [hdecrease]
        exact (hheed moving).decrease ops hstart hend observed
  | probeResult bitrate now => exact hspike.elim
  | linkCapacity capacity => exact hspike.elim

/-- A delay spike of up to half a second never raises the estimate, and never
takes it below 85% of the proven capacity, however low the delivered rate. -/
theorem foldl_step_spike (control : RateControl Rate) (capacity : Rate)
    (start : ℕ) (htrusting : control.Trusting capacity start)
    (events : List (RateEvent Rate))
    (hevents : ∀ event ∈ events, Spike start event) :
    (events.foldl (step ops) control).estimatedBitrate
        ≤ control.estimatedBitrate ∧
      min control.estimatedBitrate (ops.mul capacity (ops.lit beta))
        ≤ (events.foldl (step ops) control).estimatedBitrate := by
  have hstep : ∀ (next : RateControl Rate) (event : RateEvent Rate),
      (next.Trusting capacity start ∧
        next.estimatedBitrate ≤ control.estimatedBitrate ∧
          min control.estimatedBitrate (ops.mul capacity (ops.lit beta))
            ≤ next.estimatedBitrate) → Spike start event →
      ((next.step ops event).Trusting capacity start ∧
        (next.step ops event).estimatedBitrate ≤ control.estimatedBitrate ∧
          min control.estimatedBitrate (ops.mul capacity (ops.lit beta))
            ≤ (next.step ops event).estimatedBitrate) := by
    rintro next event ⟨htrusting, hbelow, habove⟩ hspike
    obtain ⟨hnext, hle, hge⟩ := htrusting.step ops hspike
    refine ⟨hnext, hle.trans hbelow, le_trans ?_ hge⟩
    exact le_min habove (min_le_right _ _)
  exact (EventRun.foldl_invariant hstep
    ⟨htrusting, le_rfl, min_le_left _ _⟩
    (EventRun.along_of_forall hevents control)).2

theorem trusting_proven : provenControl.Trusting 8000000 0 where
  capacity := rfl
  trusted := rfl
  since := fun since hnone =>
    absurd hnone.symm (Option.some_ne_none since)
  inRange := by decide +kernel
  belowMax := by decide +kernel

theorem foldl_step_spike_proven :
    ([overuseAt 0, overuseAt 300000000].foldl (step exactOps)
        provenControl).estimatedBitrate ≤ provenControl.estimatedBitrate ∧
      min provenControl.estimatedBitrate
          (exactOps.mul 8000000 (exactOps.lit beta)) ≤
        ([overuseAt 0, overuseAt 300000000].foldl (step exactOps)
          provenControl).estimatedBitrate :=
  foldl_step_spike exactOps provenControl 8000000 0 trusting_proven
    [overuseAt 0, overuseAt 300000000] (by
      intro event hevent
      simp only [List.mem_cons, List.not_mem_nil, or_false] at hevent
      rcases hevent with rfl | rfl <;>
        exact ⟨RateSignal.noConfusion, by decide, by decide⟩)

def NoRelief : RateEvent Rate → Prop
  | .update signal _ _ _ => signal ≠ .normal
  | .probeResult _ _ => True
  | .linkCapacity _ => True

/-- The events end in a stretch without relief that an overuse began. -/
def FlooredSince (events : List (RateEvent Rate)) (since : ℕ) : Prop :=
  ∃ before observed rtt middle,
    events = before ++ .update .overuse observed rtt since :: middle ∧
      ∀ event ∈ middle, NoRelief event

/-- Two overuse updates lie further apart than the capacity is trusted for,
and no relief lies between them. -/
def Outlasted (events : List (RateEvent Rate)) : Prop :=
  ∃ since now before observed rtt middle observed' rtt' after,
    since + capacityDiscreditAfter < now ∧
      events = (before ++ .update .overuse observed rtt since :: middle) ++
        .update .overuse observed' rtt' now :: after ∧
      ∀ event ∈ middle, NoRelief event

structure Remembers (control : RateControl Rate)
    (events : List (RateEvent Rate)) : Prop where
  floored : ∀ since, control.flooredSince = some since →
    FlooredSince events since
  outlasted : control.capacityDiscredited = true → Outlasted events

omit [LinearOrder Rate] in
theorem FlooredSince.concat {events : List (RateEvent Rate)} {since : ℕ}
    (hfloored : FlooredSince events since) {event : RateEvent Rate}
    (hevent : NoRelief event) : FlooredSince (events ++ [event]) since := by
  obtain ⟨before, observed, rtt, middle, rfl, hmiddle⟩ := hfloored
  refine ⟨before, observed, rtt, middle ++ [event], by simp,
    fun other hother => ?_⟩
  rcases List.mem_append.mp hother with hmem | hmem
  · exact hmiddle other hmem
  · rw [List.mem_singleton.mp hmem]
    exact hevent

omit [LinearOrder Rate] in
theorem Outlasted.concat {events : List (RateEvent Rate)}
    (houtlasted : Outlasted events) (event : RateEvent Rate) :
    Outlasted (events ++ [event]) := by
  obtain ⟨since, now, before, observed, rtt, middle, observed', rtt', after,
    hlate, rfl, hmiddle⟩ := houtlasted
  exact ⟨since, now, before, observed, rtt, middle, observed', rtt',
    after ++ [event], hlate, by simp, hmiddle⟩

/-- One cut on overuse. -/
theorem Remembers.decrease {control : RateControl Rate}
    {events : List (RateEvent Rate)} (hremembers : control.Remembers events)
    (observed : Rate) (rtt : Option ℕ) (now : ℕ) :
    (control.decrease ops observed now).Remembers
      (events ++ [.update .overuse observed rtt now]) := by
  have hsince : FlooredSince
      (events ++ [.update .overuse observed rtt now])
      (control.flooredSince.getD now) := by
    cases hfloored : control.flooredSince with
    | none =>
        exact ⟨events, observed, rtt, [], rfl, fun _ hmem =>
          absurd hmem List.not_mem_nil⟩
    | some since =>
        exact (hremembers.floored since hfloored).concat
          RateSignal.noConfusion
  obtain ⟨floored, discredited, new, hupdate, hcases⟩ :=
    control.decrease_cases ops observed now
  rw [hupdate]
  obtain ⟨rfl, rfl, -⟩ | ⟨rfl, rfl, -⟩ | ⟨rfl, rfl, hlate⟩ := hcases
  · exact ⟨fun since hnone =>
      absurd hnone.symm (Option.some_ne_none since),
      fun hold => (hremembers.outlasted hold).concat _⟩
  · exact ⟨fun since hsome => Option.some.inj hsome ▸ hsince,
      fun hold => (hremembers.outlasted hold).concat _⟩
  · refine ⟨fun since hsome => Option.some.inj hsome ▸ hsince,
      fun _ => ?_⟩
    cases hfloored : control.flooredSince with
    | none =>
        rw [hfloored, Option.getD_none, Nat.sub_self] at hlate
        exact absurd hlate (Nat.not_lt_zero _)
    | some since =>
        rw [hfloored, Option.getD_some] at hlate
        obtain ⟨before, observed₀, rtt₀, middle, rfl, hmiddle⟩ :=
          hremembers.floored since hfloored
        exact ⟨since, now, before, observed₀, rtt₀, middle, observed, rtt,
          [], by omega, rfl, hmiddle⟩

omit [LinearOrder Rate] in
/-- What the controller remembers when it has heard an update. -/
theorem Remembers.heed {control : RateControl Rate}
    {events : List (RateEvent Rate)} (hremembers : control.Remembers events)
    (signal : RateSignal) (observed : Rate) (rtt : Option ℕ) (now : ℕ)
    (moving : MovingAverage Rate) :
    Remembers { control.heed signal observed rtt with
        averagedObservedBitrate := moving }
      (events ++ [.update signal observed rtt now]) where
  floored := by
    intro since hsome
    by_cases hsignal : signal = .normal
    · rw [RateControl.heed, if_pos hsignal] at hsome
      exact absurd hsome.symm (Option.some_ne_none since)
    · rw [RateControl.heed, if_neg hsignal] at hsome
      exact (hremembers.floored since hsome).concat hsignal
  outlasted := fun hold => (hremembers.outlasted hold).concat _

theorem Remembers.increase {control : RateControl Rate}
    {events : List (RateEvent Rate)} (hremembers : control.Remembers events)
    (observed : Rate) (now : ℕ) :
    (control.increase ops observed now).Remembers events := by
  obtain ⟨moving, last, hsame | ⟨new, -, hupdate⟩⟩ :=
    control.increase_cases ops observed now
  · rw [hsame]
    exact ⟨fun since hnone => absurd hnone.symm (Option.some_ne_none since),
      hremembers.outlasted⟩
  · rw [hupdate]
    exact ⟨fun since hnone => absurd hnone.symm (Option.some_ne_none since),
      hremembers.outlasted⟩

theorem Remembers.step {control : RateControl Rate}
    {events : List (RateEvent Rate)} (hremembers : control.Remembers events)
    (event : RateEvent Rate) :
    (control.step ops event).Remembers (events ++ [event]) := by
  cases event with
  | update signal observed rtt now =>
      rw [RateControl.step]
      obtain ⟨-, hincrease⟩ | ⟨moving, hsame | ⟨hsignal, hdecrease⟩⟩ :=
        control.update_cases ops signal observed rtt now
      · rw [hincrease]
        exact (hremembers.heed signal observed rtt now _).increase ops
          observed now
      · rw [hsame]
        exact hremembers.heed signal observed rtt now moving
      · subst hsignal
        -- the update itself is not part of what the cut looks back on
        have hheed : Remembers { control.heed .overuse observed rtt with
            averagedObservedBitrate := moving } events :=
          ⟨hremembers.floored, hremembers.outlasted⟩
        rw [hdecrease]
        exact hheed.decrease ops observed rtt now
  | probeResult bitrate now =>
      exact ⟨fun since hsome => (hremembers.floored since hsome).concat
        trivial, fun hold => (hremembers.outlasted hold).concat _⟩
  | linkCapacity capacity =>
      refine ⟨fun since hsome => (hremembers.floored since hsome).concat
        trivial, fun hold => ?_⟩
      rw [RateControl.step, setLinkCapacity] at hold
      cases capacity with
      | none => exact absurd hold Bool.false_ne_true
      | some capacity => exact (hremembers.outlasted hold).concat _

/-- The capacity that probes have proven is discredited only by overuse that
outlasts half a second without relief. -/
theorem outlasted_of_discredited (startBitrate minBitrate maxBitrate : Rate)
    (events : List (RateEvent Rate))
    (hdiscredited : (events.foldl (step ops)
      (new ops startBitrate minBitrate maxBitrate)).capacityDiscredited =
        true) : Outlasted events := by
  have hrun : (events.foldl (step ops)
      (new ops startBitrate minBitrate maxBitrate)).Remembers events := by
    clear hdiscredited
    induction events using List.reverseRecOn with
    | nil =>
        exact ⟨fun since hnone =>
          absurd hnone.symm (Option.some_ne_none since),
          fun hfalse => absurd hfalse Bool.false_ne_true⟩
    | append_singleton events event ih =>
        rw [List.foldl_append]
        exact ih.step ops event
  exact hrun.outlasted hdiscredited

theorem outlasted_of_discredited_proven :
    Outlasted [.linkCapacity (some 8000000), overuseAt 0,
      overuseAt 600000000] :=
  outlasted_of_discredited exactOps 10000000 40000 10000000000 _
    (by decide +kernel)

end RateControl

end GameStreamer
