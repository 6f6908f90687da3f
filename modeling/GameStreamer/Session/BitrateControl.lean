import GameStreamer.Core.Checked
import GameStreamer.Core.EventRun
import GameStreamer.Session.Rates
import GameStreamer.Session.ServiceTurn

/-!
# Bitrate control

Whatever the client sends and the estimator measures, the target of a session
stays between the floor of the safety band and the session ceiling, the ceiling
within the band, and the parity within its bounds; no clamp panics, and what
Auto sets fits the estimate together with its parity.
-/

namespace GameStreamer.BitrateControl

open EventRun Service

/-- One turn of a connection, on whatever the other connections made of the
agent's state. -/
def step (connection : Connection) (event : AgentState × Service.Event) :
    Connection :=
  (serve event.1 connection event.2).2

/-- The bounds that every turn keeps. -/
structure InBand (rates : Rates) : Prop where
  floor : bitrateMinBps ≤ rates.ceiling
  ceiling : rates.ceiling ≤ bitrateMaxBps
  target : ∀ session ∈ rates.session,
    bitrateMinBps ≤ session.1 ∧ session.1 ≤ rates.ceiling
  sessionParity : ∀ session ∈ rates.session,
    fecFloorPermille ≤ session.2 ∧ session.2 ≤ fecCapPermille
  parity : fecFloorPermille ≤ rates.parity ∧ rates.parity ≤ fecCapPermille
  estimate : rates.estimate < 2 ^ 32

/-! ## The arithmetic -/

/-- An intermediate value of so many bits; nothing if it does not fit. -/
def fits (bits value : ℕ) : Option ℕ :=
  if value < 2 ^ bits then some value else none

/-- `adaptFec` where nothing may overflow and no clamp may panic. -/
def adaptFecChecked (fecPermille lossPermille : ℕ) : Option ℕ := do
  let scaled ← fits 32 (fecPermille * 9)
  clamp (max (scaled / 10) (saturatingMul lossPermille 4)) fecFloorPermille
    fecCapPermille

/-- `abrTarget` where nothing may overflow or be truncated. -/
def abrTargetChecked (estimateBps fecPermille : ℕ) : Option ℕ := do
  let share ← fits 64 (estimateBps * 90)
  let scaled ← fits 64 (share / 100 * 1000)
  let parity ← fits 64 (1000 + fecPermille)
  fits 32 (scaled / parity)

/-- The share of the estimate that a session is pinned at, likewise. -/
def pinnedShareChecked (estimateBps : ℕ) : Option ℕ := do
  let share ← fits 64 (estimateBps * 90)
  fits 32 (share / 100)

theorem adaptFec_bounds (fecPermille lossPermille : ℕ) :
    fecFloorPermille ≤ adaptFec fecPermille lossPermille ∧
      adaptFec fecPermille lossPermille ≤ fecCapPermille := by
  constructor
  · exact Nat.le_max_left _ _
  · exact Nat.max_le.mpr ⟨by decide, Nat.min_le_right _ _⟩

theorem adaptFecChecked_eq {fecPermille : ℕ}
    (hparity : fecPermille ≤ fecCapPermille) (lossPermille : ℕ) :
    adaptFecChecked fecPermille lossPermille =
      some (adaptFec fecPermille lossPermille) := by
  have hscaled : fits 32 (fecPermille * 9) = some (fecPermille * 9) := by
    apply if_pos
    have hcap : fecPermille ≤ 250 := hparity
    omega
  have hbounds : fecFloorPermille ≤ fecCapPermille := by decide
  rw [adaptFecChecked, hscaled]
  change clamp _ fecFloorPermille fecCapPermille = _
  rw [clamp, if_pos hbounds, adaptFec]

/-- What the quotient times the divisor leaves of the estimate. -/
theorem abrTarget_mul_le (estimateBps fecPermille : ℕ) :
    abrTarget estimateBps fecPermille * (1000 + fecPermille) ≤
      900 * estimateBps := by
  calc
    abrTarget estimateBps fecPermille * (1000 + fecPermille) ≤
        estimateBps * 90 / 100 * 1000 / (1000 + fecPermille) *
          (1000 + fecPermille) :=
      Nat.mul_le_mul_right _ (Nat.mod_le _ _)
    _ ≤ estimateBps * 90 / 100 * 1000 := Nat.div_mul_le_self _ _
    _ ≤ 900 * estimateBps := by omega

theorem abrTargetChecked_eq {estimateBps fecPermille : ℕ}
    (hestimate : estimateBps < 2 ^ 32)
    (hparity : fecPermille ≤ fecCapPermille) :
    abrTargetChecked estimateBps fecPermille =
      some (abrTarget estimateBps fecPermille) := by
  have hshare : fits 64 (estimateBps * 90) = some (estimateBps * 90) :=
    if_pos (by omega)
  have hscaled : fits 64 (estimateBps * 90 / 100 * 1000) =
      some (estimateBps * 90 / 100 * 1000) := if_pos (by omega)
  have hsum : fits 64 (1000 + fecPermille) = some (1000 + fecPermille) := by
    apply if_pos
    have hcap : fecPermille ≤ 250 := hparity
    omega
  have hquotient : estimateBps * 90 / 100 * 1000 / (1000 + fecPermille) <
      2 ^ 32 := by
    apply Nat.div_lt_of_lt_mul
    calc
      estimateBps * 90 / 100 * 1000 < 1000 * 2 ^ 32 := by omega
      _ ≤ (1000 + fecPermille) * 2 ^ 32 :=
        Nat.mul_le_mul_right _ (Nat.le_add_right _ _)
  rw [abrTargetChecked, hshare]
  change (fits 64 (estimateBps * 90 / 100 * 1000)).bind _ = _
  rw [hscaled]
  change (fits 64 (1000 + fecPermille)).bind _ = _
  rw [hsum, abrTarget, Nat.mod_eq_of_lt hquotient]
  exact if_pos hquotient

theorem pinnedShareChecked_eq {estimateBps : ℕ}
    (hestimate : estimateBps < 2 ^ 32) :
    pinnedShareChecked estimateBps = some (estimateBps * 90 / 100) := by
  have hshare : fits 64 (estimateBps * 90) = some (estimateBps * 90) :=
    if_pos (by omega)
  rw [pinnedShareChecked, hshare]
  exact if_pos (by omega)

/-! ## The bounds -/

theorem clamp_bounds {value low high clamped : ℕ}
    (h : clamp value low high = some clamped) :
    low ≤ clamped ∧ clamped ≤ high ∧ (low < clamped → clamped ≤ value) := by
  rw [clamp] at h
  split_ifs at h with hle
  obtain rfl := Option.some.inj h
  omega

theorem clampBand_bounds (value : ℕ) :
    bitrateMinBps ≤ clampBand value ∧ clampBand value ≤ bitrateMaxBps := by
  constructor
  · exact Nat.le_max_left _ _
  · exact Nat.max_le.mpr ⟨by decide, Nat.min_le_right _ _⟩

/-- A session opens within the band and below its ceiling. -/
theorem resolveBitrates_bounds (requested : Option ℕ) (abr : Bool)
    (hostCap : Option ℕ) :
    bitrateMinBps ≤ (resolveBitrates requested abr hostCap).1 ∧
      (resolveBitrates requested abr hostCap).1 ≤
        (resolveBitrates requested abr hostCap).2 ∧
      (resolveBitrates requested abr hostCap).2 ≤ bitrateMaxBps := by
  have hhost : bitrateMinBps ≤ (hostCap.map clampBand).getD bitrateMaxBps ∧
      (hostCap.map clampBand).getD bitrateMaxBps ≤ bitrateMaxBps := by
    cases hostCap with
    | none => exact ⟨by decide, Nat.le_refl _⟩
    | some cap => exact clampBand_bounds cap
  have hstart : bitrateMinBps ≤ abrStartBps := by decide
  rw [resolveBitrates]
  cases abr <;> cases requested with
  | none =>
      simp only [Bool.false_eq_true, if_false, if_true, Option.map_none,
        Option.getD_none]
      omega
  | some rate =>
      have hrate := clampBand_bounds rate
      simp only [Bool.false_eq_true, if_false, if_true, Option.map_some,
        Option.getD_some]
      omega

namespace InBand

variable {before after : Rates}

theorem closed (h : InBand before) : InBand before.closed where
  floor := h.floor
  ceiling := h.ceiling
  target := nofun
  sessionParity := nofun
  parity := h.parity
  estimate := h.estimate

theorem withTarget (h : InBand before) {target : ℕ}
    (hlow : bitrateMinBps ≤ target) (hhigh : target ≤ before.ceiling) :
    InBand (before.withTarget target) where
  floor := h.floor
  ceiling := h.ceiling
  target := by
    intro session hsession
    obtain ⟨earlier, -, rfl⟩ := Option.mem_map.mp hsession
    exact ⟨hlow, hhigh⟩
  sessionParity := by
    intro session hsession
    obtain ⟨earlier, hearlier, rfl⟩ := Option.mem_map.mp hsession
    exact h.sessionParity earlier hearlier
  parity := h.parity
  estimate := h.estimate

theorem measured (h : InBand before) (estimateBps : Option ℕ)
    (env : TickEnv) : InBand (before.measured estimateBps env) where
  floor := h.floor
  ceiling := h.ceiling
  target := by
    intro session hsession
    obtain ⟨earlier, hearlier, rfl⟩ := Option.mem_map.mp hsession
    exact h.target earlier hearlier
  sessionParity := by
    intro session hsession
    obtain ⟨earlier, -, rfl⟩ := Option.mem_map.mp hsession
    exact adaptFec_bounds _ _
  parity := adaptFec_bounds _ _
  estimate := by
    change (estimateBps.map fun estimate =>
      min estimate (2 ^ 32 - 1)).getD before.estimate < 2 ^ 32
    cases estimateBps with
    | none => exact h.estimate
    | some estimate =>
        rw [Option.map_some, Option.getD_some]
        omega

theorem steered (h : InBand before)
    (hafter : before.steered = some after) : InBand after := by
  rw [Rates.steered] at hafter
  split at hafter
  · obtain ⟨target, htarget, rfl⟩ := Option.map_eq_some_iff.mp hafter
    obtain ⟨hlow, hhigh, -⟩ := clamp_bounds htarget
    exact h.withTarget hlow hhigh
  · exact Option.some.inj hafter ▸ h

theorem pinned (h : InBand before) {target : ℕ}
    (htarget : before.pinned = some target) :
    bitrateMinBps ≤ target ∧ target ≤ before.ceiling := by
  rw [Rates.pinned] at htarget
  split at htarget
  · obtain ⟨hlow, hhigh, -⟩ := clamp_bounds htarget
    exact ⟨hlow, hhigh⟩
  · obtain rfl := Option.some.inj htarget
    exact ⟨h.floor, Nat.le_refl _⟩

/-- The bounds survive every move. -/
theorem moves {hostCap : Option ℕ} {event : Service.Event}
    (h : InBand before) (hmoves : Moves hostCap before event after) :
    InBand after := by
  cases hmoves with
  | keeps => exact h
  | closes env => exact h.closed
  | opens request env hidle =>
      obtain ⟨hlow, hhigh, hmax⟩ := resolveBitrates_bounds
        (request.bitrateBps.map UInt32.toNat) request.abr hostCap
      exact
        { floor := hlow.trans hhigh
          ceiling := hmax
          target := by
            intro session hsession
            obtain rfl := Option.some.inj hsession
            exact ⟨hlow, hhigh⟩
          sessionParity := by
            intro session hsession
            obtain rfl := Option.some.inj hsession
            have hbounds : fecFloorPermille ≤ fecCapPermille := by decide
            exact ⟨Nat.le_refl _, hbounds⟩
          parity := h.parity
          estimate := h.estimate }
  | sets rate env =>
      obtain ⟨hlow, hhigh⟩ := clampBand_bounds rate.toNat
      exact
        { floor := hlow
          ceiling := hhigh
          target := by
            intro session hsession
            obtain ⟨earlier, -, rfl⟩ := Option.mem_map.mp hsession
            exact ⟨hlow, Nat.le_refl _⟩
          sessionParity := by
            intro session hsession
            obtain ⟨earlier, hearlier, rfl⟩ := Option.mem_map.mp hsession
            exact h.sessionParity earlier hearlier
          parity := h.parity
          estimate := h.estimate }
  | toggles enabled env => exact { h with }
  | pins env htarget =>
      obtain ⟨hlow, hhigh⟩ := h.pinned htarget
      have htoggled : InBand { before with abr := false } := { h with }
      exact htoggled.withTarget hlow hhigh
  | ticks env estimateBps hdriven =>
      exact (h.measured estimateBps env).steered hdriven

end InBand

/-! ## Panics -/

/-- How a turn ends the connection, if it does. -/
def exitOf : Flow → Option Exit
  | .next => none
  | .leave exit => some exit
  | .escape exit => some exit

/-- No clamp panicked in the turn. -/
def Calm (result : Turn) : Prop := exitOf result.flow ≠ some .panicked

theorem calm_next (agent : AgentState) (connection : Connection) :
    Calm ⟨agent, connection, .next⟩ := (Option.some_ne_none _).symm

theorem calm_sendMsg (agent : AgentState) (connection : Connection)
    (message : A2C) (sent : Bool) {failed : Flow}
    (hfailed : exitOf failed ≠ some .panicked) :
    Calm (sendMsg agent connection message sent failed) := by
  rw [sendMsg]
  split
  · exact calm_next _ _
  · exact hfailed

theorem calm_sendOrEscape (agent : AgentState) (connection : Connection)
    (message : A2C) (sent : Bool) :
    Calm (sendOrEscape agent connection message sent) :=
  calm_sendMsg _ _ _ _ (by decide)

theorem calm_notify (agent : AgentState) (connection : Connection)
    (injected : List (Notification × Bool)) :
    Calm (notify agent connection injected) := by
  induction injected generalizing agent connection with
  | nil => exact calm_next _ _
  | cons head rest ih =>
      simp only [notify]
      split
      · exact ih _ _
      · exact calm_sendOrEscape _ _ _ _

theorem calm_onHello (agent : AgentState) (connection : Connection)
    (hello : Hello) (env : MessageEnv) :
    Calm (onHello agent connection hello env) := by
  rw [onHello]
  split
  · dsimp only
    split
    · exact fun hexit => Exit.noConfusion (Option.some.inj hexit)
    · exact calm_sendOrEscape _ _ _ _
  · exact calm_sendOrEscape _ _ _ _

theorem calm_onStartSession (agent : AgentState) (connection : Connection)
    (request : SessionRequest) (env : MessageEnv) :
    Calm (onStartSession agent connection request env) := by
  rw [onStartSession]
  split
  · exact calm_sendOrEscape _ _ _ _
  · split <;> exact calm_sendOrEscape _ _ _ _

theorem calm_onSetAbr (agent : AgentState) (connection : Connection)
    (enabled : Bool) (hceiling : bitrateMinBps ≤ connection.sessionCeiling) :
    Calm (onSetAbr agent connection enabled) := by
  unfold onSetAbr
  dsimp only
  split
  · split
    case h_1 hnone =>
      rw [pinnedBitrate] at hnone
      split at hnone
      · obtain ⟨clamped, hclamped⟩ := clamp_isSome
          (connection.lastEstimateBps * 90 / 100) hceiling
        cases hclamped.symm.trans hnone
      · cases hnone
    case h_2 => exact calm_next _ _
  · exact calm_next _ _

theorem calm_onMessage (agent : AgentState) (connection : Connection)
    (message : C2A) (env : MessageEnv)
    (hceiling : bitrateMinBps ≤ connection.sessionCeiling) :
    Calm (onMessage agent connection message env) := by
  cases hhelloed : connection.helloed with
  | false =>
      cases message <;> simp only [onMessage, hhelloed]
      case hello hello => exact calm_onHello _ _ _ _
      all_goals exact calm_sendOrEscape _ _ _ _
  | true =>
      cases message <;>
        simp only [onMessage, hhelloed, Bool.not_true, Bool.false_eq_true,
          if_false]
      case hello hello => exact calm_onHello _ _ _ _
      case listSources | ping => exact calm_sendOrEscape _ _ _ _
      case startSession request => exact calm_onStartSession _ _ _ _
      case setAbr enabled => exact calm_onSetAbr _ _ _ hceiling
      case stopSession =>
          unfold onStopSession
          dsimp only
          split <;> exact calm_next _ _
      case inputBatch size =>
          rw [onInputBatch]
          split
          · exact calm_notify _ _ _
          · exact calm_next _ _
      case packetFeedback feedback =>
          rw [onPacketFeedback]
          split <;> exact calm_next _ _
      case setBitrate rate =>
          rw [onSetBitrate]
          split <;> exact calm_next _ _
      all_goals exact calm_next _ _

theorem calm_announce (agent : AgentState) (connection : Connection)
    (point : Option UInt32) (sent : Bool) :
    Calm (announce agent connection point sent) := by
  cases point with
  | some firstSafe => exact calm_sendMsg _ _ _ _ (by decide)
  | none => exact calm_next _ _

theorem calm_sendStats (agent : AgentState) (connection : Connection)
    (env : TickEnv) : Calm (sendStats agent connection env) := by
  rw [sendStats]
  split
  · split
    · exact calm_sendMsg _ _ _ _ (by decide)
    · exact calm_next _ _
  · exact calm_next _ _

theorem steer_isSome (connection : Connection)
    (hceiling : bitrateMinBps ≤ connection.sessionCeiling) :
    ∃ driven, steer connection = some driven := by
  rw [steer]
  split
  · obtain ⟨target, htarget⟩ := clamp_isSome
      (abrTarget connection.lastEstimateBps connection.fecPermille) hceiling
    rw [htarget]
    exact ⟨_, rfl⟩
  · exact ⟨_, rfl⟩

theorem calm_onTick (agent : AgentState) (connection : Connection)
    (env : TickEnv) (hceiling : bitrateMinBps ≤ connection.sessionCeiling) :
    Calm (onTick agent connection env) := by
  rw [onTick]
  dsimp only
  split
  case h_1 hnone =>
    split_ifs at hnone
    have hmeasured : bitrateMinBps ≤ (Service.measure (trackPath
        { connection with tickCount := connection.tickCount + 1 } env)
          env).sessionCeiling := by
      change bitrateMinBps ≤ (trackPath _ env).sessionCeiling
      rwa [sessionCeiling_trackPath]
    obtain ⟨driven, hdriven⟩ := steer_isSome _ hmeasured
    cases hdriven.symm.trans hnone
  case h_2 =>
    split
    · exact calm_sendStats _ _ _
    · exact calm_announce _ _ _ _

/-- A ceiling within the band keeps every clamp of a turn from panicking. -/
theorem calm_turn (agent : AgentState) (connection : Connection)
    (event : Service.Event)
    (hceiling : bitrateMinBps ≤ connection.sessionCeiling) :
    Calm (turn agent connection event) := by
  cases event with
  | message message env => exact calm_onMessage _ _ _ _ hceiling
  | tick env => exact calm_onTick _ _ _ hceiling
  | recoveryReady point sent => exact calm_announce _ _ _ _
  | stamped record => exact calm_next _ _
  | received failed closed =>
      intro hexit
      have hnot : (if failed && !closed then Exit.recvFailed else .ok) ≠
          .panicked := by split <;> exact Exit.noConfusion
      exact hnot (Option.some.inj hexit)

theorem exit_finish {result : Turn} (hcalm : Calm result)
    (hexit : result.connection.exit ≠ some .panicked) :
    (finish result).2.exit ≠ some .panicked := by
  rw [Calm] at hcalm
  rw [finish]
  cases hflow : result.flow with
  | next => exact hexit
  | escape exit =>
      rw [hflow] at hcalm
      exact hcalm
  | leave exit =>
      rw [hflow] at hcalm
      cases result.connection.active <;> exact hcalm

/-! ## Runs -/

/-- No turn but the last one ends the connection. -/
theorem exit_turn (agent : AgentState) (connection : Connection)
    (event : Service.Event) :
    (turn agent connection event).connection.exit = connection.exit := by
  rcases turn_cases agent connection event with
    hkept | hstarted | ⟨id, hstopped⟩
  · exact hkept.same.exit
  · exact hstarted.exit
  · exact hstopped.exit

/-- What holds of a connection after every turn. -/
structure Controlled (connection : Connection) : Prop where
  inBand : InBand connection.rates
  exit : connection.exit ≠ some .panicked

theorem controlled_accepted (peer : String) (mayInteract : Bool) :
    Controlled (.accepted peer mayInteract) where
  inBand :=
    { floor := show bitrateMinBps ≤ bitrateMaxBps by decide
      ceiling := Nat.le_refl _
      target := nofun
      sessionParity := nofun
      parity := ⟨Nat.le_refl _,
        show fecFloorPermille ≤ fecCapPermille by decide⟩
      estimate := Nat.two_pow_pos 32 }
  exit := (Option.some_ne_none _).symm

theorem Controlled.step {connection : Connection} (h : Controlled connection)
    (event : AgentState × Service.Event) :
    Controlled (step connection event) where
  inBand := by
    obtain ⟨after, hmoves, hsame | hclosed⟩ :=
      serve_moves event.1 connection event.2
    · exact hsame.symm ▸ h.inBand.moves hmoves
    · exact hclosed.symm ▸ (h.inBand.moves hmoves).closed
  exit := by
    rw [BitrateControl.step, serve]
    split
    · exact h.exit
    · apply exit_finish (calm_turn _ _ _ h.inBand.floor)
      rw [exit_turn]
      exact h.exit

/-- A tick computes without overflow, and what Auto sets above the floor fits
the estimate together with its parity. -/
structure TickFits (agent : AgentState) (connection : Connection)
    (env : TickEnv) : Prop where
  parity : adaptFecChecked connection.fecPermille env.lossPermille.toNat =
    some (adaptFec connection.fecPermille env.lossPermille.toNat)
  target :
    abrTargetChecked
        (connection.rates.measured (estimateBps connection env) env).estimate
        (connection.rates.measured (estimateBps connection env) env).parity =
      some (abrTarget
        (connection.rates.measured (estimateBps connection env) env).estimate
        (connection.rates.measured (estimateBps connection env) env).parity)
  fits : connection.streaming → connection.abrEnabled →
    0 < (onTick agent connection env).connection.lastEstimateBps →
    ∀ session ∈ (onTick agent connection env).connection.active,
      bitrateMinBps < session.pipeline.bitrate →
        session.pipeline.bitrate *
            (1000 + (onTick agent connection env).connection.fecPermille) ≤
          900 * (onTick agent connection env).connection.lastEstimateBps

/-- In Auto the target is the clamped share of the estimate. -/
theorem steered_fits {before after : Rates}
    (hafter : before.steered = some after) (habr : before.abr)
    (hestimate : 0 < before.estimate) :
    after.parity = before.parity ∧ after.estimate = before.estimate ∧
      ∀ session ∈ after.session, bitrateMinBps < session.1 →
        session.1 * (1000 + before.parity) ≤ 900 * before.estimate := by
  have hauto : (before.abr && decide (0 < before.estimate)) = true := by
    rw [habr, decide_eq_true hestimate, Bool.and_self]
  rw [Rates.steered, if_pos hauto] at hafter
  obtain ⟨target, htarget, rfl⟩ := Option.map_eq_some_iff.mp hafter
  refine ⟨rfl, rfl, fun session hsession hfloor => ?_⟩
  obtain ⟨earlier, -, rfl⟩ := Option.mem_map.mp hsession
  obtain ⟨-, -, hshare⟩ := clamp_bounds htarget
  calc
    target * (1000 + before.parity) ≤
        abrTarget before.estimate before.parity * (1000 + before.parity) :=
      Nat.mul_le_mul_right _ (hshare hfloor)
    _ ≤ 900 * before.estimate := abrTarget_mul_le _ _

theorem Controlled.tickFits {connection : Connection}
    (h : Controlled connection) (agent : AgentState) (env : TickEnv) :
    TickFits agent connection env where
  parity := adaptFecChecked_eq h.inBand.parity.2 _
  target := abrTargetChecked_eq (h.inBand.measured _ env).estimate
    (h.inBand.measured _ env).parity.2
  fits := by
    intro hstreaming habr
    obtain ⟨driven, hdriven⟩ : ∃ driven,
        (connection.rates.measured (estimateBps connection env) env).steered =
          some driven := by
      obtain ⟨steered, hsteered⟩ := steer_isSome
        (Service.measure connection env) h.inBand.floor
      rw [← Connection.rates_measure, ← rates_steer, hsteered]
      exact ⟨_, rfl⟩
    have hrates := rates_onTick_of_streaming agent env hstreaming hdriven
    generalize (onTick agent connection env).connection = ticked at hrates ⊢
    intro hpositive session hsession hfloor
    have hestimate : ticked.lastEstimateBps = driven.estimate :=
      congrArg Rates.estimate hrates
    have hparity : ticked.fecPermille = driven.parity :=
      congrArg Rates.parity hrates
    have hthere : (session.pipeline.bitrate, session.pipeline.fecPermille) ∈
        driven.session := by
      rw [← hrates]
      exact Option.mem_map_of_mem _ hsession
    rw [hestimate] at hpositive
    have hsame : driven.estimate = (connection.rates.measured
        (estimateBps connection env) env).estimate := by
      rw [Rates.steered] at hdriven
      split at hdriven
      · obtain ⟨target, -, rfl⟩ := Option.map_eq_some_iff.mp hdriven
        rfl
      · rw [Option.some.inj hdriven]
    obtain ⟨hparity', hestimate', hshare⟩ := steered_fits hdriven habr
      (hsame ▸ hpositive)
    rw [hestimate, hparity, hparity', hestimate']
    exact hshare _ hthere hfloor

/-- After any turns of a connection: an active session's target is between the
floor and the ceiling, and these are within the safety band; its parity is
within its bounds; no clamp panicked; and the arithmetic of the next tick, and
of pinning, is exact, and what Auto sets above the floor fits the estimate. -/
theorem bitrate_controlled (peer : String) (mayInteract : Bool)
    (events : List (AgentState × Service.Event)) :
    let connection := events.foldl step (.accepted peer mayInteract)
    (∀ session ∈ connection.active,
      bitrateMinBps ≤ session.pipeline.bitrate ∧
        session.pipeline.bitrate ≤ connection.sessionCeiling ∧
        fecFloorPermille ≤ session.pipeline.fecPermille ∧
        session.pipeline.fecPermille ≤ fecCapPermille) ∧
      (bitrateMinBps ≤ connection.sessionCeiling ∧
        connection.sessionCeiling ≤ bitrateMaxBps) ∧
      (fecFloorPermille ≤ connection.fecPermille ∧
        connection.fecPermille ≤ fecCapPermille) ∧
      connection.exit ≠ some .panicked ∧
      pinnedShareChecked connection.lastEstimateBps =
        some (connection.lastEstimateBps * 90 / 100) ∧
      ∀ agent env, TickFits agent connection env := by
  intro connection
  have hcontrolled : Controlled connection :=
    foldl_preserves (fun _ event h => h.step event) events
      (controlled_accepted peer mayInteract)
  have hband := hcontrolled.inBand
  refine ⟨?_, ⟨hband.floor, hband.ceiling⟩, hband.parity, hcontrolled.exit,
    pinnedShareChecked_eq hband.estimate, hcontrolled.tickFits⟩
  intro session hsession
  have hthere : (session.pipeline.bitrate, session.pipeline.fecPermille) ∈
      connection.rates.session := Option.mem_map_of_mem _ hsession
  obtain ⟨hlow, hhigh⟩ := hband.target _ hthere
  obtain ⟨hfloor, hcap⟩ := hband.sessionParity _ hthere
  exact ⟨hlow, hhigh, hfloor, hcap⟩

end GameStreamer.BitrateControl
