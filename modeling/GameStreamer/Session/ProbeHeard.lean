import GameStreamer.Session.ProbeDue

/-!
# What a tick tells the probing controller

Before it asks for a cluster, a tick sets the desired rate and the limits of
the application-limited region, reports the clumped probes, and passes on a new
estimate.  All of this can be read off the state before the tick and the
tick's inputs.  The setters also arm the controller's timers, so that it is
always asked, and a cluster comes out exactly when one is due.
-/

namespace GameStreamer

variable {Bitrate : Type*} (ops : BitrateOps Bitrate)

namespace ProbeControl

/-- An estimate that the controller takes: it is no first estimate of zero, and
it differs enough from the last one, or in its cause. -/
def Accepts (control : ProbeControl Bitrate)
    (estimate : Bitrate × BandwidthLimitedCause) : Prop :=
  (control.lastEstimate = none → ¬ops.eq estimate.1 (ops.bps 0)) ∧
    ((∃ last ∈ control.lastEstimate,
      ops.le estimate.1 (ops.scale last (1 + estimateChangeThreshold)) ∧
        ops.le (ops.scale last (1 - estimateChangeThreshold)) estimate.1) →
      control.lastCause ≠ estimate.2)

instance (control : ProbeControl Bitrate) :
    DecidablePred (control.Accepts ops) := fun estimate =>
  decidable_of_iff
    ((control.lastEstimate.isNone → ¬ops.eq estimate.1 (ops.bps 0)) ∧
      ((control.lastEstimate.any fun last =>
        ops.le estimate.1 (ops.scale last (1 + estimateChangeThreshold)) &&
          ops.le (ops.scale last (1 - estimateChangeThreshold)) estimate.1) →
        control.lastCause ≠ estimate.2)) (by
    rw [Accepts, Option.isNone_iff_eq_none, Option.any_eq_true]
    simp only [Bool.and_eq_true, Option.mem_def])

/-- The controller without its timers and the switch, of which nothing that
is due depends on. -/
def bare (control : ProbeControl Bitrate) : ProbeControl Bitrate :=
  { control with
    nextTimeout := none
    enabled := false
    durationFloor := 0
    scheduledExponential := none
    scheduledPeriodicAlr := none
    scheduledStagnant := none }

theorem due_bare (control : ProbeControl Bitrate) (now : ℕ) :
    control.bare.Due ops now ↔ control.Due ops now := Iff.rfl

section Bare

variable (control : ProbeControl Bitrate)

theorem bare_setDesiredBitrate (v : Bitrate) :
    (control.setDesiredBitrate ops v).bare = { control.bare with
      desiredBitrate :=
        if control.desiredBitrate.isNone && ops.eq v (ops.bps 0) then none
        else some v } := by
  rw [setDesiredBitrate]
  split_ifs with hzero
  · rw [Bool.and_eq_true, Option.isNone_iff_eq_none] at hzero
    rw [← hzero.1]
    rfl
  · rfl

theorem bare_setAlrStartTime (t : ℕ) :
    (control.setAlrStartTime t).bare = { control.bare with
      alrStart := some (control.bare.alrStart.getD t)
      alrStop :=
        if control.bare.alrStart.isSome then control.bare.alrStop
        else none } := by
  rw [setAlrStartTime]
  cases hstart : control.alrStart with
  | none =>
      rw [if_neg (by simp)]
      simp [bare, requestImmediate, hstart]
  | some start =>
      rw [if_pos (by simp)]
      simp [bare, hstart]

theorem bare_setAlrStopTime (t : ℕ) :
    (control.setAlrStopTime t).bare = { control.bare with
      alrStart :=
        if control.bare.alrStop.isSome then control.bare.alrStart else none
      alrStop :=
        if control.bare.alrStart.isNone || control.bare.alrStop.isSome
        then control.bare.alrStop else some t } := by
  rw [setAlrStopTime]
  cases hstart : control.alrStart with
  | none =>
      rw [if_pos (by simp)]
      simp [bare, hstart]
  | some start =>
      cases hstop : control.alrStop with
      | none =>
          rw [if_neg (by simp)]
          simp [bare, requestImmediate, hstart, hstop]
      | some stop =>
          rw [if_pos (by simp)]
          simp [bare, hstart, hstop]

theorem bare_setEstimatedBitrate_of_accepts {v : Bitrate}
    {cause : BandwidthLimitedCause} (h : control.Accepts ops (v, cause)) :
    (control.setEstimatedBitrate ops v cause).bare = { control.bare with
      lastEstimate := some v, lastCause := cause } := by
  rw [setEstimatedBitrate]
  dsimp only
  split_ifs with hzero hsame
  · rw [Bool.and_eq_true, Option.isNone_iff_eq_none] at hzero
    exact absurd hzero.2 (h.1 hzero.1)
  · simp only [Bool.and_eq_true, Option.any_eq_true, decide_eq_true_eq]
      at hsame
    exact absurd hsame.2 (h.2 hsame.1)
  · rfl

theorem bare_setEstimatedBitrate_of_not_accepts {v : Bitrate}
    {cause : BandwidthLimitedCause} (h : ¬control.Accepts ops (v, cause)) :
    control.setEstimatedBitrate ops v cause = control := by
  rw [setEstimatedBitrate]
  dsimp only
  split_ifs with hzero hsame
  · rfl
  · rfl
  · refine absurd ⟨?_, ?_⟩ h
    · intro hnone heq
      exact hzero (by simp [hnone, heq])
    · intro hclose heq
      apply hsame
      simp only [Bool.and_eq_true, Option.any_eq_true, decide_eq_true_eq]
      exact ⟨hclose, heq⟩

theorem bare_enable_true : (control.enable true).bare = control.bare := by
  rw [enable, Bool.not_true, Bool.and_false]
  split_ifs
  · rfl
  · contradiction
  · rfl

theorem bare_onProbeOutcome (overusing : Bool) :
    (control.onProbeOutcome ops none (ops.bps 0) overusing).bare =
      { control.bare with
        stagnantBackoff :=
          if overusing then maxStagnantBackoff
          else control.stagnantBackoff } := by
  rw [onProbeOutcome]
  cases overusing <;> rfl

/-- Clumped probes back off while the link is overused. -/
theorem bare_foldl_onProbeOutcome (overusing : Bool) (clumped : ℕ) :
    ((List.replicate clumped ()).foldl (fun control _ =>
        control.onProbeOutcome ops none (ops.bps 0) overusing) control).bare =
      { control.bare with
        stagnantBackoff :=
          if overusing ∧ clumped ≠ 0 then maxStagnantBackoff
          else control.bare.stagnantBackoff } := by
  induction clumped generalizing control with
  | zero => rw [if_neg (by simp)]; rfl
  | succ clumped ih =>
      rw [List.replicate_succ, List.foldl_cons, ih, bare_onProbeOutcome]
      cases overusing with
      | false => rfl
      | true => simp

end Bare

/-- Where something is desired, the controller is called at once. -/
def Ready (control : ProbeControl Bitrate) : Prop :=
  control.desiredBitrate.isSome → control.nextTimeout = some 0

section Ready

variable {control : ProbeControl Bitrate}

theorem ready_setDesiredBitrate (v : Bitrate) :
    (control.setDesiredBitrate ops v).Ready := by
  rw [setDesiredBitrate]
  split_ifs with hzero
  · rw [Bool.and_eq_true, Option.isNone_iff_eq_none] at hzero
    intro hsome
    rw [hzero.1] at hsome
    cases hsome
  · exact fun _ => rfl

theorem Ready.setAlrStartTime (h : control.Ready) (t : ℕ) :
    (control.setAlrStartTime t).Ready := by
  rw [ProbeControl.setAlrStartTime]
  split_ifs
  · exact h
  · exact fun _ => rfl

theorem Ready.setAlrStopTime (h : control.Ready) (t : ℕ) :
    (control.setAlrStopTime t).Ready := by
  rw [ProbeControl.setAlrStopTime]
  split_ifs
  · exact h
  · exact fun _ => rfl

theorem Ready.setEstimatedBitrate (h : control.Ready) (v : Bitrate)
    (cause : BandwidthLimitedCause) :
    (control.setEstimatedBitrate ops v cause).Ready := by
  rw [ProbeControl.setEstimatedBitrate]
  dsimp only
  split_ifs
  · exact h
  · exact h
  · exact fun _ => rfl

theorem Ready.onProbeOutcome (h : control.Ready) (overusing : Bool)
    (clumped : ℕ) :
    ((List.replicate clumped ()).foldl (fun control _ =>
      control.onProbeOutcome ops none (ops.bps 0) overusing) control).Ready := by
  induction clumped generalizing control with
  | zero => exact h
  | succ clumped ih =>
      rw [List.replicate_succ, List.foldl_cons]
      apply ih
      rw [ProbeControl.onProbeOutcome]
      cases overusing <;> exact h

theorem Ready.enable (h : control.Ready) : (control.enable true).Ready := by
  rw [ProbeControl.enable, Bool.not_true, Bool.and_false]
  split_ifs
  · exact fun _ => rfl
  · contradiction
  · exact h

theorem enabled_enable : (control.enable true).enabled = true := by
  rw [ProbeControl.enable, Bool.not_true, Bool.and_false]
  split_ifs with hoff
  · rfl
  · contradiction
  · simpa using hoff

end Ready

end ProbeControl

namespace SendSideEstimator

open ProbeControl

variable (bwe : SendSideEstimator Bitrate) (now : ℕ)
  (env : Controllers Bitrate)

/-- A cluster with compressed arrivals is finalized at this time. -/
def Clumps : Prop :=
  bwe.probeEstimator.clumpedProbes ≠ 0 ∨
    ∃ state ∈ bwe.probeEstimator.states,
      state.due now ∧ (state.doCalculateBitrate ops).clumped

instance : Decidable (bwe.Clumps ops now) := inferInstanceAs (Decidable (_ ∨ _))

/-- The estimate that reaches the probing controller: it is not the one that
was passed on last, and the controller accepts it. -/
def newEstimate : Option (Bitrate × BandwidthLimitedCause) :=
  env.estimate.filter fun estimate =>
    ¬(bwe.lastUpdatedEstimate.any (sameEstimate ops · estimate)) ∧
      bwe.probeControl.Accepts ops estimate

/-- The probing controller with what it is told at a tick: the desired rate,
the limits of the application-limited region, the outcome of the clumped
probes and the estimate. -/
def heard : ProbeControl Bitrate :=
  let control := bwe.probeControl
  { control with
    desiredBitrate :=
      if control.desiredBitrate.isNone && ops.eq env.desired (ops.bps 0)
      then none else some env.desired
    alrStart :=
      match env.alrStart with
      | some t => some (control.alrStart.getD t)
      | none => if control.alrStop.isSome then control.alrStart else none
    alrStop :=
      match env.alrStart with
      | some _ => if control.alrStart.isSome then control.alrStop else none
      | none =>
          if control.alrStart.isNone || control.alrStop.isSome
          then control.alrStop else some now
    stagnantBackoff :=
      if env.overusing ∧ bwe.Clumps ops now then maxStagnantBackoff
      else control.stagnantBackoff
    lastEstimate :=
      ((bwe.newEstimate ops env).map Prod.fst).or control.lastEstimate
    lastCause :=
      ((bwe.newEstimate ops env).map Prod.snd).getD control.lastCause }

theorem clumps_iff : (bwe.probeEstimator.handleTimeout ops now).clumpedProbes ≠
    0 ↔ bwe.Clumps ops now := by
  rw [Clumps, ProbeEstimator.handleTimeout, Ne, Nat.add_eq_zero_iff,
    List.length_eq_zero_iff, List.filter_eq_nil_iff, not_and_or]
  simp only [Bool.and_eq_true, not_forall, not_not, exists_prop]

theorem bare_informControl (control : ProbeControl Bitrate)
    (desired : Bitrate) (alrStart : Option ℕ) :
    (informControl ops control desired now alrStart).bare = { control.bare with
      desiredBitrate :=
        if control.desiredBitrate.isNone && ops.eq desired (ops.bps 0) then none
        else some desired
      alrStart :=
        match alrStart with
        | some t => some (control.alrStart.getD t)
        | none => if control.alrStop.isSome then control.alrStart else none
      alrStop :=
        match alrStart with
        | some _ => if control.alrStart.isSome then control.alrStop else none
        | none =>
            if control.alrStart.isNone || control.alrStop.isSome
            then control.alrStop else some now } := by
  cases alrStart with
  | some t =>
      apply (bare_setAlrStartTime _ t).trans
      rw [bare_setDesiredBitrate]
      rfl
  | none =>
      apply (bare_setAlrStopTime _ now).trans
      rw [bare_setDesiredBitrate]
      rfl

/-- The controller as the tick leaves it to its timeout. -/
def told : ProbeControl Bitrate :=
  (SendSideEstimator.propagateEstimate ops
    { bwe with
      probeControl := (List.replicate
        (bwe.probeEstimator.handleTimeout ops now).clumpedProbes ()).foldl
          (fun control _ =>
            control.onProbeOutcome ops none (ops.bps 0) env.overusing)
          (informControl ops bwe.probeControl env.desired now env.alrStart)
      probeEstimator :=
        { bwe.probeEstimator.handleTimeout ops now with clumpedProbes := 0 } }
    env).probeControl.enable true

theorem handleTimeout_told : (bwe.handleTimeout ops true now env).1 =
    ((bwe.told ops now env).handleTimeout ops now).1 := rfl

theorem ready_informControl (control : ProbeControl Bitrate)
    (desired : Bitrate) (alrStart : Option ℕ) :
    (informControl ops control desired now alrStart).Ready := by
  have hready : (control.setDesiredBitrate ops desired).Ready :=
    ready_setDesiredBitrate ops desired
  cases alrStart with
  | some t => exact hready.setAlrStartTime t
  | none => exact hready.setAlrStopTime now

theorem ready_propagateEstimate (h : bwe.probeControl.Ready) :
    (bwe.propagateEstimate ops env).probeControl.Ready := by
  rw [propagateEstimate]
  split
  · exact h
  · split_ifs
    · exact h
    · exact h.setEstimatedBitrate ops _ _

theorem ready_told : (bwe.told ops now env).Ready := by
  apply Ready.enable
  apply ready_propagateEstimate
  apply Ready.onProbeOutcome
  exact ready_informControl ops now _ _ _

/-- Whether an estimate is new does not depend on the timers. -/
theorem newEstimate_bare : SendSideEstimator.newEstimate ops
    { bwe with probeControl := bwe.probeControl.bare } env =
      bwe.newEstimate ops env := rfl

theorem bare_propagateEstimate :
    (bwe.propagateEstimate ops env).probeControl.bare =
      let control := bwe.probeControl.bare
      let estimate := SendSideEstimator.newEstimate ops
        { bwe with probeControl := control } env
      { control with
        lastEstimate := (estimate.map Prod.fst).or control.lastEstimate
        lastCause := (estimate.map Prod.snd).getD control.lastCause } := by
  dsimp only
  rw [newEstimate_bare, propagateEstimate, newEstimate]
  split
  case h_1 hnone =>
    rw [hnone]
    rfl
  case h_2 estimate hestimate =>
    rw [hestimate, Option.filter_some]
    split_ifs with hsame hkept hkept
    · exact absurd hsame (of_decide_eq_true hkept).1
    · rfl
    · exact bare_setEstimatedBitrate_of_accepts ops _
        (of_decide_eq_true hkept).2
    · dsimp only
      rw [bare_setEstimatedBitrate_of_not_accepts]
      · rfl
      · exact fun haccepts => hkept (decide_eq_true ⟨hsame, haccepts⟩)

/-- The timeout finds the controller as it heard of the tick, except for its
timers. -/
theorem bare_told :
    (bwe.told ops now env).bare = (bwe.heard ops now env).bare := by
  have houtcomes := bare_foldl_onProbeOutcome ops
    (informControl ops bwe.probeControl env.desired now env.alrStart)
    env.overusing (bwe.probeEstimator.handleTimeout ops now).clumpedProbes
  have hclumps : ∀ backoff : ℕ,
      (if env.overusing ∧
          (bwe.probeEstimator.handleTimeout ops now).clumpedProbes ≠ 0
        then maxStagnantBackoff else backoff) =
      if env.overusing ∧ bwe.Clumps ops now then maxStagnantBackoff
        else backoff :=
    fun _ => if_congr (and_congr_right fun _ => bwe.clumps_iff ops now) rfl rfl
  rw [bare_informControl, hclumps] at houtcomes
  rw [told, bare_enable_true, bare_propagateEstimate]
  dsimp only
  rw [houtcomes]
  rfl

/-- A tick hands out a cluster exactly when one is due. -/
theorem handleTimeout_eq_none_iff :
    (bwe.handleTimeout ops true now env).1 = none ↔
      ¬(bwe.heard ops now env).Due ops now := by
  have htold := ProbeControl.handleTimeout_eq_none_iff ops
    (bwe.told ops now env) now enabled_enable (bwe.ready_told ops now env)
  rw [handleTimeout_told, htold, ← due_bare, bare_told, due_bare]

end SendSideEstimator

end GameStreamer
