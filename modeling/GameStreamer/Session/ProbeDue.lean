import GameStreamer.Session.ProbeDriver
import Mathlib.Tactic.SplitIfs

/-!
# When a probe cluster is due

The probing controller hands out a pending cluster, or plans new ones: of six
kinds of probe the first that is due is queued, unless congestion forbids
probing or the rate asked for is too small.  This module says on the state
before the call which kind that is and at which rates.  No attempt, plan or
timeout of the controller is run for it.

Each attempt then queues exactly these rates, and the timeout hands out a
cluster exactly when one is due.
-/

namespace GameStreamer

variable {Bitrate : Type*} (ops : BitrateOps Bitrate)

namespace ProbeControl

section Kinds

variable (control : ProbeControl Bitrate) (now : ℕ)
  (desired estimate : Bitrate)

/-- The estimate dropped a short while ago; where it has not collapsed, the
application-limited region gives the context, and the wait is longer. -/
def LargeDropDue (drop : LargeDrop Bitrate) : Prop :=
  ¬control.isDuringInitial now ∧ now - drop.time ≤ bitrateDropTimeout ∧
    if ops.lt estimate (ops.scale drop.bitrateBefore estimateCollapseFactor)
    then maxWaitingTimeForProbingResult ≤ control.timeSinceLastProbe now
    else (control.inAlr ∨ control.alrEndedRecently now) ∧
      minTimeBetweenAlrProbes ≤ control.timeSinceLastProbe now

/-- The estimate came near the last probe's rate or collapsed since, it is
another one or that probe's time is up, and there is room below the cap. -/
def ExponentialDue (last : LastProbe Bitrate) : Prop :=
  (ops.lt estimate last.further →
    (∃ was ∈ last.wasEstimate,
      ops.lt estimate (ops.scale was estimateCollapseFactor)) ∧
      minTimeBetweenAlrProbes ≤ control.timeSinceLastProbe now) ∧
    ((∃ was ∈ last.wasEstimate, ops.eq estimate was) →
      maxWaitingTimeForProbingResult ≤ control.timeSinceLastProbe now) ∧
    ¬(ops.le (ops.scale desired maxProbeBitrateFactor)
        (ops.scale estimate (probeScale control.lastCause)) ∧
      ops.le (ops.scale (ops.scale desired maxProbeBitrateFactor)
        furtherProbeThreshold) last.further)

/-- More is desired than before, and than the estimate. -/
def IncreaseAlrDue : Prop :=
  ¬control.isDuringInitial now ∧ control.inAlr ∧
    ∃ prev ∈ control.prevDesired,
      ¬ops.le desired prev ∧ ¬ops.le desired estimate

def PeriodicAlrDue : Prop :=
  ¬control.isDuringInitial now ∧ control.inAlr ∧
    minTimeBetweenAlrProbes ≤ control.timeSinceLastProbe now

/-- The estimate makes no progress despite unmet demand, and the last such
probe is long enough ago. -/
def StagnantDue : Prop :=
  ¬control.isDuringInitial now ∧ ¬control.inAlr ∧
    ∃ lastProgress ∈ control.lastProgress,
      minTimeBetweenStagnantProbes ≤ now - lastProgress ∧
      ¬ops.le desired estimate ∧
      ∀ lastProbe ∈ control.lastStagnant,
        minTimeBetweenStagnantProbes * control.stagnantBackoff ≤
          now - lastProbe

instance : DecidablePred (control.LargeDropDue ops now estimate) :=
  fun _ => inferInstanceAs (Decidable (_ ∧ _))

instance : DecidablePred (control.ExponentialDue ops now desired estimate) :=
  fun _ => inferInstanceAs (Decidable (_ ∧ _))

instance : Decidable (control.IncreaseAlrDue ops now desired estimate) :=
  inferInstanceAs (Decidable (_ ∧ _ ∧ ∃ prev ∈ control.prevDesired, _))

instance : Decidable (control.PeriodicAlrDue now) :=
  inferInstanceAs (Decidable (_ ∧ _))

instance : Decidable (control.StagnantDue ops now desired estimate) :=
  inferInstanceAs (Decidable (_ ∧ _ ∧ ∃ time ∈ control.lastProgress, _))

/-- The rates of an allocation probe: what is desired and twice that, as far
as the estimate goes. -/
def allocationRates : List Bitrate :=
  let limit := ops.scale estimate allocationProbeLimitByCurrentScale
  let first := ops.min (ops.scale desired firstAllocationProbeScale) limit
  let second := ops.scale desired secondAllocationProbeScale
  first :: if ops.le second limit && ops.lt first second then [second] else []

/-- The rates that the first kind of probe that is due asks for. -/
def nextRates : List Bitrate :=
  match control.lastProbe,
    control.largeDrop.filter (control.LargeDropDue ops now estimate) with
  | none, _ =>
      [ops.scale estimate firstExponentialProbeScale,
        ops.scale estimate secondExponentialProbeScale]
  | some _, some drop =>
      [ops.scale drop.bitrateBefore probeFractionAfterDrop]
  | some last, none =>
      if control.ExponentialDue ops now desired estimate last then
        [ops.scale estimate (probeScale control.lastCause)]
      else if control.IncreaseAlrDue ops now desired estimate then
        allocationRates ops desired estimate
      else if control.PeriodicAlrDue now then
        [ops.min (ops.scale estimate furtherExponentialProbeScale) desired]
      else if control.StagnantDue ops now desired estimate then
        [ops.min (ops.scale estimate stagnantProbeScale) desired]
      else []

/-- A rate that is too small, once it is capped, is not probed. -/
def TooSmall (rate : Bitrate) : Prop :=
  ops.lt (ops.min rate (ops.scale desired maxProbeBitrateFactor))
    (ops.bps 5000)

instance : DecidablePred (TooSmall ops desired) := fun _ =>
  inferInstanceAs (Decidable (_ = true))

/-- The large drop on record once this estimate is compared with the recent
high-water mark. -/
def dropSeen : Option (LargeDrop Bitrate) :=
  let recent := control.recentHigh.filter fun high =>
    ops.le estimate high.1 && now - high.2 ≤ recentHighWindow
  let high := (recent.map Prod.fst).getD estimate
  if control.largeDrop.isNone &&
      ops.lt estimate (ops.scale high bitrateDropThreshold) then
    some { time := now, bitrateBefore := high }
  else control.largeDrop

/-- The controller with that drop noted. -/
def noteDrop : ProbeControl Bitrate :=
  { control with largeDrop := control.dropSeen ops now estimate }

/-- New clusters are due: probing is not forbidden, and the first kind of probe
that is due does not ask for too small a rate. -/
def PlanDue : Prop :=
  (control.noteDrop ops now estimate).gateOpen ops now estimate ∧
    ∃ rate ∈ (control.noteDrop ops now estimate).nextRates ops now desired
      estimate, ¬TooSmall ops desired rate

instance : Decidable (control.PlanDue ops now desired estimate) :=
  inferInstanceAs (Decidable (_ ∧ ∃ _ ∈ nextRates _ _ _ _ _, _))

/-- A cluster is due: there is a desired rate and an estimate, and a cluster
is pending or new ones are due. -/
def Due : Prop :=
  ∃ desired ∈ control.desiredBitrate, ∃ estimate ∈ control.lastEstimate,
    control.pending ≠ [] ∨ control.PlanDue ops now desired estimate

instance : Decidable (control.Due ops now) :=
  inferInstanceAs (Decidable (∃ desired ∈ control.desiredBitrate,
    ∃ estimate ∈ control.lastEstimate, _))

end Kinds

/-! ## What the attempts queue -/

section Attempts

variable (control : ProbeControl Bitrate) (now : ℕ)
  (desired estimate : Bitrate)

/-- An attempt queued the rates that are not too small. -/
def Queued (rates : List Bitrate)
    (result : Bool × ProbeControl Bitrate) : Prop :=
  result.1 = true ∧ (result.2.pending = [] ↔
    control.pending = [] ∧ ∀ rate ∈ rates, TooSmall ops desired rate)

theorem pending_queueProbe (rate : Bitrate) (kind : ProbeKind) :
    (control.queueProbe ops rate kind desired now).pending = [] ↔
      control.pending = [] ∧ TooSmall ops desired rate := by
  rw [queueProbe, TooSmall]
  split_ifs with hsmall
  · exact (and_iff_left hsmall).symm
  · exact iff_of_false (List.append_ne_nil_of_right_ne_nil _
      (List.cons_ne_nil _ _)) fun h => hsmall h.2

theorem queued_queueProbe (rate : Bitrate) (kind : ProbeKind) :
    Queued ops control desired [rate]
      (true, control.queueProbe ops rate kind desired now) := by
  refine ⟨rfl, ?_⟩
  rw [pending_queueProbe, List.forall_mem_singleton]

theorem queued_maybeInitial (h : control.lastProbe = none) :
    Queued ops control desired
      [ops.scale estimate firstExponentialProbeScale,
        ops.scale estimate secondExponentialProbeScale]
      (control.maybeInitial ops now desired estimate) := by
  rw [maybeInitial, h]
  refine ⟨rfl, ?_⟩
  rw [if_neg (by simp)]
  dsimp only
  rw [pending_queueProbe, pending_queueProbe, List.forall_mem_cons,
    List.forall_mem_singleton, and_assoc]

theorem maybeInitial_of_some {last : LastProbe Bitrate}
    (h : control.lastProbe = some last) :
    control.maybeInitial ops now desired estimate = (false, control) := by
  rw [maybeInitial, h]
  exact if_pos rfl

theorem queued_maybeLargeDrop {drop : LargeDrop Bitrate}
    (hdrop : control.largeDrop = some drop)
    (hdue : control.LargeDropDue ops now estimate drop) :
    Queued ops control desired
      [ops.scale drop.bitrateBefore probeFractionAfterDrop]
      (control.maybeLargeDrop ops now desired estimate) := by
  obtain ⟨hinitial, htime, hcontext⟩ := hdue
  rw [maybeLargeDrop, if_neg hinitial, hdrop]
  dsimp only
  rw [if_neg (Nat.not_lt.mpr htime)]
  split_ifs at hcontext with hcollapsed
  · rw [hcollapsed, if_neg (by simp), if_pos rfl,
      if_neg (Nat.not_lt.mpr hcontext)]
    exact queued_queueProbe ops control now desired _ _
  · rw [Bool.not_eq_true] at hcollapsed
    have hthere : ¬(!false && !control.inAlr &&
        !control.alrEndedRecently now) = true := by
      obtain halr | hended := hcontext.1
      · simp [halr]
      · simp [hended]
    rw [hcollapsed, if_neg hthere, if_neg Bool.false_ne_true,
      if_neg (Nat.not_lt.mpr hcontext.2)]
    exact queued_queueProbe ops control now desired _ _

/-- Otherwise it at most forgets an old drop. -/
theorem maybeLargeDrop_of_not_due (h : ∀ drop ∈ control.largeDrop,
      ¬control.LargeDropDue ops now estimate drop) :
    ∃ drop, control.maybeLargeDrop ops now desired estimate =
      (false, { control with largeDrop := drop }) := by
  rw [maybeLargeDrop]
  split_ifs with hinitial
  · exact ⟨control.largeDrop, rfl⟩
  · split
    case h_1 hnone => exact ⟨control.largeDrop, rfl⟩
    case h_2 drop hdrop =>
      dsimp only
      by_cases htime : bitrateDropTimeout < now - drop.time
      · rw [if_pos htime]
        exact ⟨none, rfl⟩
      · rw [if_neg htime]
        have hnot : ¬(if ops.lt estimate
            (ops.scale drop.bitrateBefore estimateCollapseFactor)
            then maxWaitingTimeForProbingResult ≤
              control.timeSinceLastProbe now
            else (control.inAlr ∨ control.alrEndedRecently now) ∧
              minTimeBetweenAlrProbes ≤ control.timeSinceLastProbe now) :=
          fun hcontext => h drop hdrop
            ⟨hinitial, Nat.not_lt.mp htime, hcontext⟩
        refine ⟨control.largeDrop, ?_⟩
        by_cases hcollapsed : ops.lt estimate
            (ops.scale drop.bitrateBefore estimateCollapseFactor) = true
        · rw [if_pos hcollapsed, Nat.not_le] at hnot
          rw [hcollapsed, if_neg (by simp), if_pos rfl, if_pos hnot]
        · rw [if_neg hcollapsed, not_and, Nat.not_le] at hnot
          rw [Bool.not_eq_true] at hcollapsed
          rw [hcollapsed]
          rw [if_neg Bool.false_ne_true]
          split_ifs with hcontext hwait
          · rfl
          · rfl
          · -- In context, so the wait is not over.
            refine absurd (hnot ?_) hwait
            by_contra hneither
            rw [not_or, Bool.not_eq_true, Bool.not_eq_true] at hneither
            simp [hneither] at hcontext

theorem queued_maybeExponential {last : LastProbe Bitrate}
    (hpending : control.pending = []) (hlast : control.lastProbe = some last)
    (hdue : control.ExponentialDue ops now desired estimate last) :
    Queued ops control desired
      [ops.scale estimate (probeScale control.lastCause)]
      (control.maybeExponential ops now desired estimate) := by
  obtain ⟨hnear, hother, hroom⟩ := hdue
  have hfar : ¬(ops.lt estimate last.further &&
      !((last.wasEstimate.any fun w =>
          ops.lt estimate (ops.scale w estimateCollapseFactor)) &&
        decide (minTimeBetweenAlrProbes ≤
          control.timeSinceLastProbe now))) = true := by
    simpa [Option.any_eq_true] using hnear
  have hsame : ¬((last.wasEstimate.any fun w => ops.eq estimate w) &&
      decide (control.timeSinceLastProbe now <
        maxWaitingTimeForProbingResult)) = true := by
    simpa [Option.any_eq_true] using hother
  rw [maybeExponential, hpending, hlast]
  dsimp only
  rw [if_neg hfar, if_neg hsame,
    if_neg (fun h => hroom (Bool.and_eq_true_iff.mp h))]
  exact queued_queueProbe ops control now desired _ _

theorem maybeExponential_of_not_due {last : LastProbe Bitrate}
    (hpending : control.pending = []) (hlast : control.lastProbe = some last)
    (h : ¬control.ExponentialDue ops now desired estimate last) :
    control.maybeExponential ops now desired estimate = (false, control) := by
  rw [maybeExponential, hpending, hlast]
  dsimp only
  split_ifs with hfar hsame hroom
  · rfl
  · rfl
  · rfl
  · refine absurd ⟨?_, ?_, fun hfull => hroom (Bool.and_eq_true_iff.mpr hfull)⟩
      h
    · simpa [Option.any_eq_true] using hfar
    · simpa [Option.any_eq_true] using hsame

theorem queued_maybeIncreaseAlr
    (hdue : control.IncreaseAlrDue ops now desired estimate) :
    Queued ops control desired (allocationRates ops desired estimate)
      (control.maybeIncreaseAlr ops now desired estimate) := by
  obtain ⟨hinitial, halr, prev, hprev, hmore, hneed⟩ := hdue
  have hcontext : ¬(control.isDuringInitial now || !control.inAlr) = true := by
    simp [hinitial, halr]
  have hwants : ¬(ops.le desired prev || ops.le desired estimate) = true := by
    simp [hmore, hneed]
  rw [maybeIncreaseAlr, if_neg hcontext]
  dsimp only
  rw [Option.mem_def.mp hprev]
  dsimp only
  rw [if_neg hwants]
  refine ⟨rfl, ?_⟩
  rw [allocationRates]
  dsimp only
  split_ifs
  · rw [pending_queueProbe, pending_queueProbe, List.forall_mem_cons,
      List.forall_mem_singleton, and_assoc]
  · rw [pending_queueProbe, List.forall_mem_singleton]

/-- Otherwise it at most notes what is desired. -/
theorem maybeIncreaseAlr_of_not_due
    (h : ¬control.IncreaseAlrDue ops now desired estimate) :
    ∃ prev, control.maybeIncreaseAlr ops now desired estimate =
      (false, { control with prevDesired := prev }) := by
  rw [maybeIncreaseAlr]
  split_ifs with hcontext
  · exact ⟨control.prevDesired, rfl⟩
  · refine ⟨some desired, ?_⟩
    dsimp only
    split
    case h_1 => rfl
    case h_2 prev hprev =>
      by_cases hwants : (ops.le desired prev || ops.le desired estimate) = true
      · exact if_pos hwants
      · rw [Bool.not_eq_true, Bool.or_eq_false_iff] at hcontext hwants
        refine absurd ⟨?_, ?_, prev, hprev, ?_, ?_⟩ h
        · simp [hcontext.1]
        · simpa using hcontext.2
        · simp [hwants.1]
        · simp [hwants.2]

theorem queued_maybePeriodicAlr (hdue : control.PeriodicAlrDue now) :
    Queued ops control desired
      [ops.min (ops.scale estimate furtherExponentialProbeScale) desired]
      (control.maybePeriodicAlr ops now desired estimate) := by
  obtain ⟨hinitial, halr, htime⟩ := hdue
  have hcontext : ¬(control.isDuringInitial now || !control.inAlr ||
      decide (control.timeSinceLastProbe now < minTimeBetweenAlrProbes)) =
      true := by
    simp [hinitial, halr, Nat.not_lt.mpr htime]
  rw [maybePeriodicAlr, if_neg hcontext]
  exact queued_queueProbe ops control now desired _ _

theorem maybePeriodicAlr_of_not_due (h : ¬control.PeriodicAlrDue now) :
    control.maybePeriodicAlr ops now desired estimate = (false, control) := by
  rw [maybePeriodicAlr]
  refine if_pos ?_
  by_contra hcontext
  rw [Bool.not_eq_true, Bool.or_eq_false_iff, Bool.or_eq_false_iff,
    Bool.not_eq_false', decide_eq_false_iff_not, Nat.not_lt] at hcontext
  exact h ⟨Bool.eq_false_iff.mp hcontext.1.1, hcontext.1.2, hcontext.2⟩

theorem queued_maybeStagnant
    (hdue : control.StagnantDue ops now desired estimate) :
    Queued ops control desired
      [ops.min (ops.scale estimate stagnantProbeScale) desired]
      (control.maybeStagnant ops now desired estimate) := by
  obtain ⟨hinitial, halr, time, htime, hprogress, hneed, hlast⟩ := hdue
  have hcontext : ¬(control.isDuringInitial now || control.inAlr) = true := by
    simp [hinitial, halr]
  have hwaits : ¬(decide (now - time < minTimeBetweenStagnantProbes) ||
      ops.le desired estimate || control.lastStagnant.any fun lastProbe =>
        decide (now - lastProbe <
          minTimeBetweenStagnantProbes * control.stagnantBackoff)) = true := by
    simpa [Option.any_eq_true, Nat.not_lt.mpr hprogress, hneed] using hlast
  rw [maybeStagnant, if_neg hcontext, Option.mem_def.mp htime]
  dsimp only
  rw [if_neg hwaits]
  refine ⟨rfl, ?_⟩
  rw [List.forall_mem_singleton, ← pending_queueProbe ops control now]

theorem maybeStagnant_of_not_due
    (h : ¬control.StagnantDue ops now desired estimate) :
    control.maybeStagnant ops now desired estimate = (false, control) := by
  rw [maybeStagnant]
  split_ifs with hcontext
  · rfl
  · rw [Bool.not_eq_true, Bool.or_eq_false_iff] at hcontext
    split
    case h_1 => rfl
    case h_2 time htime =>
      refine if_pos ?_
      by_contra hwaits
      refine h ⟨Bool.eq_false_iff.mp hcontext.1,
        Bool.eq_false_iff.mp hcontext.2, time, htime, ?_⟩
      simpa [Option.any_eq_true, and_assoc] using hwaits

/-- The first attempt that fires settles what is queued. -/
theorem tryEach_of_fired {attempt : ProbeControl Bitrate →
      Bool × ProbeControl Bitrate}
    (attempts : List (ProbeControl Bitrate → Bool × ProbeControl Bitrate))
    {rates : List Bitrate} (hpending : control.pending = [])
    (h : Queued ops control desired rates (attempt control)) :
    (tryEach (attempt :: attempts) control).pending = [] ↔
      ∀ rate ∈ rates, TooSmall ops desired rate := by
  rw [tryEach]
  dsimp only
  rw [if_pos h.1, h.2]
  exact and_iff_right hpending

theorem tryEach_of_passed {attempt : ProbeControl Bitrate →
      Bool × ProbeControl Bitrate}
    (attempts : List (ProbeControl Bitrate → Bool × ProbeControl Bitrate))
    {next : ProbeControl Bitrate} (h : attempt control = (false, next)) :
    tryEach (attempt :: attempts) control = tryEach attempts next := by
  rw [tryEach, h]
  rfl

/-- The attempt with one kind of probe. -/
def attemptAt (maybe : BitrateOps Bitrate → ProbeControl Bitrate → ℕ →
      Bitrate → Bitrate → Bool × ProbeControl Bitrate)
    (control : ProbeControl Bitrate) : Bool × ProbeControl Bitrate :=
  maybe ops control now desired estimate

theorem attempts_eq : attempts ops now desired estimate =
    [attemptAt ops now desired estimate maybeInitial,
      attemptAt ops now desired estimate maybeLargeDrop,
      attemptAt ops now desired estimate maybeExponential,
      attemptAt ops now desired estimate maybeIncreaseAlr,
      attemptAt ops now desired estimate maybePeriodicAlr,
      attemptAt ops now desired estimate maybeStagnant] := rfl

theorem pending_tryPeriodic (hpending : control.pending = []) :
    (tryEach [attemptAt ops now desired estimate maybePeriodicAlr,
        attemptAt ops now desired estimate maybeStagnant]
      control).pending = [] ↔
      ∀ rate ∈ (if control.PeriodicAlrDue now then
          [ops.min (ops.scale estimate furtherExponentialProbeScale) desired]
        else if control.StagnantDue ops now desired estimate then
          [ops.min (ops.scale estimate stagnantProbeScale) desired]
        else []), TooSmall ops desired rate := by
  split_ifs with hperiodic hstagnant
  · exact tryEach_of_fired ops control desired _ hpending
      (queued_maybePeriodicAlr ops control now desired estimate hperiodic)
  · rw [tryEach_of_passed _ _
      (maybePeriodicAlr_of_not_due ops control now desired estimate hperiodic)]
    exact tryEach_of_fired ops control desired _ hpending
      (queued_maybeStagnant ops control now desired estimate hstagnant)
  · rw [tryEach_of_passed _ _
        (maybePeriodicAlr_of_not_due ops control now desired estimate
          hperiodic),
      tryEach_of_passed _ _
        (maybeStagnant_of_not_due ops control now desired estimate hstagnant)]
    exact iff_of_true hpending (List.forall_mem_nil _)

/-- The kinds that follow the large drop. -/
theorem pending_tryExponential {last : LastProbe Bitrate}
    (hpending : control.pending = [])
    (hlast : control.lastProbe = some last) :
    (tryEach [attemptAt ops now desired estimate maybeExponential,
        attemptAt ops now desired estimate maybeIncreaseAlr,
        attemptAt ops now desired estimate maybePeriodicAlr,
        attemptAt ops now desired estimate maybeStagnant]
      control).pending = [] ↔
      ∀ rate ∈ (if control.ExponentialDue ops now desired estimate last then
          [ops.scale estimate (probeScale control.lastCause)]
        else if control.IncreaseAlrDue ops now desired estimate then
          allocationRates ops desired estimate
        else if control.PeriodicAlrDue now then
          [ops.min (ops.scale estimate furtherExponentialProbeScale) desired]
        else if control.StagnantDue ops now desired estimate then
          [ops.min (ops.scale estimate stagnantProbeScale) desired]
        else []), TooSmall ops desired rate := by
  by_cases hexponential :
      control.ExponentialDue ops now desired estimate last
  · rw [if_pos hexponential]
    exact tryEach_of_fired ops control desired _ hpending
      (queued_maybeExponential ops control now desired estimate hpending hlast
        hexponential)
  rw [if_neg hexponential, tryEach_of_passed _ _
    (maybeExponential_of_not_due ops control now desired estimate hpending
      hlast hexponential)]
  by_cases hincrease : control.IncreaseAlrDue ops now desired estimate
  · rw [if_pos hincrease]
    exact tryEach_of_fired ops control desired _ hpending
      (queued_maybeIncreaseAlr ops control now desired estimate hincrease)
  obtain ⟨prev, hpassed⟩ := maybeIncreaseAlr_of_not_due ops control now
    desired estimate hincrease
  rw [if_neg hincrease, tryEach_of_passed _ _ hpassed]
  -- The last two kinds do not look at what was desired before.
  exact pending_tryPeriodic ops { control with prevDesired := prev } now
    desired estimate hpending

/-- Trying each kind queues what the first one that is due asks for. -/
theorem pending_tryEach (hpending : control.pending = []) :
    (tryEach (attempts ops now desired estimate) control).pending = [] ↔
      ∀ rate ∈ control.nextRates ops now desired estimate,
        TooSmall ops desired rate := by
  rw [attempts_eq, nextRates]
  cases hlast : control.lastProbe with
  | none =>
      exact tryEach_of_fired ops control desired _ hpending
        (queued_maybeInitial ops control now desired estimate hlast)
  | some last =>
      rw [tryEach_of_passed _ _
        (maybeInitial_of_some ops control now desired estimate hlast)]
      cases hdrop : control.largeDrop.filter
          (control.LargeDropDue ops now estimate) with
      | some drop =>
          obtain ⟨hthere, hdue⟩ := Option.filter_eq_some_iff.mp hdrop
          exact tryEach_of_fired ops control desired _ hpending
            (queued_maybeLargeDrop ops control now desired estimate hthere
              (of_decide_eq_true hdue))
      | none =>
          rw [Option.filter_eq_none_iff] at hdrop
          obtain ⟨drop, hpassed⟩ := maybeLargeDrop_of_not_due ops control now
            desired estimate fun drop hthere hdue =>
              hdrop drop hthere (decide_eq_true hdue)
          rw [tryEach_of_passed _ _ hpassed]
          -- The kinds that follow do not look at the drop.
          exact pending_tryExponential ops { control with largeDrop := drop }
            now desired estimate hpending hlast

theorem trackDrop_eq : ∃ high, control.trackDrop ops now estimate =
    { control.noteDrop ops now estimate with recentHigh := high } := by
  rw [trackDrop, noteDrop, dropSeen]
  dsimp only
  split_ifs
  · exact ⟨_, rfl⟩
  · exact ⟨_, rfl⟩

theorem not_planDue_iff : ¬control.PlanDue ops now desired estimate ↔
    ((control.noteDrop ops now estimate).gateOpen ops now estimate →
      ∀ rate ∈ (control.noteDrop ops now estimate).nextRates ops now desired
        estimate, TooSmall ops desired rate) := by
  rw [PlanDue, not_and]
  simp only [not_exists, not_and, not_not]

/-- What follows the attempts in a plan leaves the clusters alone. -/
theorem pending_conclude :
    (({ control.updateProgress ops now estimate with
      prevEstimate := some estimate } : ProbeControl Bitrate).computeNextTimeout
        now).pending = control.pending := by
  rw [computeNextTimeout, updateProgress]
  split_ifs <;> rfl

theorem pending_plan (hpending : control.pending = []) :
    (control.plan ops now desired estimate).pending = [] ↔
      ¬control.PlanDue ops now desired estimate := by
  obtain ⟨high, htracked⟩ := trackDrop_eq ops control now estimate
  have hpending' : (control.trackDrop ops now estimate).pending = [] := by
    rw [htracked]
    exact hpending
  -- Neither the gate nor the kinds look at the high-water mark.
  have hgate : (control.trackDrop ops now estimate).gateOpen ops now estimate =
      (control.noteDrop ops now estimate).gateOpen ops now estimate := by
    rw [htracked]
    rfl
  have htried := pending_tryEach ops (control.trackDrop ops now estimate) now
    desired estimate hpending'
  have hrates : nextRates ops (control.trackDrop ops now estimate) now desired
      estimate = nextRates ops (control.noteDrop ops now estimate) now desired
        estimate := by
    rw [htracked]
    rfl
  rw [plan, not_planDue_iff, ← hgate, ← hrates, ← htried]
  dsimp only
  by_cases hopen :
      (control.trackDrop ops now estimate).gateOpen ops now estimate = true
  · rw [if_neg (by simp [hopen]), forall_prop_of_true hopen]
    split_ifs
    · rw [pending_conclude]
    · rw [requestImmediate, pending_conclude]
  · rw [if_pos (by simpa using hopen)]
    exact iff_of_true hpending' fun h => absurd h hopen

theorem popPending_eq_none_iff :
    control.popPending.1 = none ↔ control.pending = [] :=
  List.head?_eq_none_iff

/-- The controller hands out a cluster exactly when one is due. -/
theorem handleTimeout_eq_none_iff (henabled : control.enabled)
    (htime : control.desiredBitrate.isSome → control.nextTimeout = some 0) :
    (control.handleTimeout ops now).1 = none ↔ ¬control.Due ops now := by
  rw [handleTimeout, Due]
  by_cases hready : control.desiredBitrate.isSome
  · rw [htime hready, if_neg (by simp)]
    dsimp only
    split
    case h_1 desired estimate _ hdesired hestimate =>
      have honly : (∃ desired ∈ control.desiredBitrate,
          ∃ estimate ∈ control.lastEstimate, control.pending ≠ [] ∨
            control.PlanDue ops now desired estimate) ↔
          control.pending ≠ [] ∨ control.PlanDue ops now desired estimate := by
        simp [hdesired, hestimate]
      rw [honly, not_or, not_not]
      by_cases hpending : control.pending = []
      · rw [if_neg (by simpa using hpending), popPending_eq_none_iff,
          and_iff_right hpending]
        exact pending_plan ops { control with nextTimeout := none } now desired
          estimate hpending
      · rw [if_pos (by simpa using hpending), popPending_eq_none_iff]
        exact iff_of_false hpending fun h => hpending h.1
    case h_2 hmissing =>
      apply iff_of_true rfl
      rintro ⟨desired, hdesired, estimate, hestimate, -⟩
      exact hmissing desired estimate henabled hdesired hestimate
  · have hnone := Option.not_isSome_iff_eq_none.mp hready
    apply iff_of_true
    · split_ifs
      · rfl
      · dsimp only
        split
        case h_1 desired _ _ hdesired _ => cases hnone.symm.trans hdesired
        case h_2 => rfl
    · rintro ⟨desired, hdesired, -⟩
      cases hnone.symm.trans hdesired

end Attempts

end ProbeControl

end GameStreamer
