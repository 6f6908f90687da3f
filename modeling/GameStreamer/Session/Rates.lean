import GameStreamer.Session.Service

/-!
# The rates of a connection

The target and the parity of the active session, the session ceiling, the
latest estimate and the Auto switch are changed by a few messages and by the
tick.  This module reads them off a connection and says once what a turn of
the service can do to them.
-/

namespace GameStreamer

open Service

/-- What bitrate control reads and writes. -/
structure Rates where
  /-- Target and parity of the active session's pipeline. -/
  session : Option (ℕ × ℕ)
  ceiling : ℕ
  estimate : ℕ
  parity : ℕ
  abr : Bool
  deriving DecidableEq, Repr

def Connection.rates (connection : Connection) : Rates where
  session := connection.active.map fun session =>
    (session.pipeline.bitrate, session.pipeline.fecPermille)
  ceiling := connection.sessionCeiling
  estimate := connection.lastEstimateBps
  parity := connection.fecPermille
  abr := connection.abrEnabled

namespace Rates

/-- The same without a session. -/
def closed (rates : Rates) : Rates := { rates with session := none }

/-- With another target for the session that may be there. -/
def withTarget (rates : Rates) (target : ℕ) : Rates :=
  { rates with session := rates.session.map fun session =>
      (target, session.2) }

def opened (rates : Rates) (hostCap : Option ℕ) (request : SessionRequest) :
    Rates :=
  let resolved := resolveBitrates (request.bitrateBps.map UInt32.toNat)
    request.abr hostCap
  { rates with
    session := some (resolved.1, fecFloorPermille)
    ceiling := resolved.2
    abr := request.abr }

def withBitrate (rates : Rates) (rate : ℕ) : Rates :=
  { rates.withTarget (clampBand rate) with ceiling := clampBand rate }

/-- The rate that a session is pinned at. -/
def pinned (rates : Rates) : Option ℕ :=
  if 0 < rates.estimate then
    clamp (rates.estimate * 90 / 100) bitrateMinBps rates.ceiling
  else some rates.ceiling

/-- The latest estimate and the parity that a tick finds, given what the
estimator emits. -/
def measured (rates : Rates) (estimateBps : Option ℕ) (env : TickEnv) :
    Rates :=
  let parity := adaptFec rates.parity env.lossPermille.toNat
  { rates with
    session := rates.session.map fun session => (session.1, parity)
    estimate := (estimateBps.map fun estimate =>
      min estimate (2 ^ 32 - 1)).getD rates.estimate
    parity := parity }

/-- In Auto the estimate drives the target. -/
def steered (rates : Rates) : Option Rates :=
  if rates.abr && 0 < rates.estimate then
    (clamp (abrTarget rates.estimate rates.parity) bitrateMinBps
      rates.ceiling).map rates.withTarget
  else some rates

end Rates

/-- What a turn on an event can do to the rates. -/
inductive Moves (hostCap : Option ℕ) (before : Rates) :
    Service.Event → Rates → Prop
  | keeps (event : Service.Event) : Moves hostCap before event before
  | closes (env : MessageEnv) :
      Moves hostCap before (.message .stopSession env) before.closed
  | opens (request : SessionRequest) (env : MessageEnv)
      (hidle : before.session = none) :
      Moves hostCap before (.message (.startSession request) env)
        (before.opened hostCap request)
  | sets (rate : UInt32) (env : MessageEnv) :
      Moves hostCap before (.message (.setBitrate rate) env)
        (before.withBitrate rate.toNat)
  | toggles (enabled : Bool) (env : MessageEnv) :
      Moves hostCap before (.message (.setAbr enabled) env)
        { before with abr := enabled }
  | pins (env : MessageEnv) {target : ℕ}
      (htarget : before.pinned = some target) :
      Moves hostCap before (.message (.setAbr false) env)
        ({ before with abr := false }.withTarget target)
  | ticks (env : TickEnv) (estimateBps : Option ℕ) {driven : Rates}
      (hdriven : (before.measured estimateBps env).steered = some driven) :
      Moves hostCap before (.tick env) driven

namespace Connection

/-- A change of the active session that keeps its target and its parity. -/
theorem rates_of_map {first second : Connection}
    {change : ActiveSession → ActiveSession}
    (hactive : second.active = first.active.map change)
    (hbitrate : ∀ session,
      (change session).pipeline.bitrate = session.pipeline.bitrate)
    (hparity : ∀ session,
      (change session).pipeline.fecPermille = session.pipeline.fecPermille)
    (hceiling : second.sessionCeiling = first.sessionCeiling)
    (hestimate : second.lastEstimateBps = first.lastEstimateBps)
    (hfec : second.fecPermille = first.fecPermille)
    (habr : second.abrEnabled = first.abrEnabled) :
    second.rates = first.rates := by
  simp only [rates, hactive, hceiling, hestimate, hfec, habr, Option.map_map,
    Function.comp_def, hbitrate, hparity]

theorem rates_withTarget (connection : Connection) (target : ℕ) :
    (connection.mapPipeline fun pipeline =>
      { pipeline with bitrate := target }).rates =
        connection.rates.withTarget target := by
  simp only [rates, mapPipeline, Rates.withTarget, Option.map_map,
    Function.comp_def]

theorem rates_measure (connection : Connection) (env : TickEnv) :
    (Service.measure connection env).rates =
      connection.rates.measured (Service.estimateBps connection env) env := by
  simp only [rates, Service.measure, mapPipeline, Rates.measured,
    Option.map_map, Function.comp_def]

end Connection

namespace Service

@[simp]
theorem rates_sendMsg (agent : AgentState) (connection : Connection)
    (message : A2C) (sent : Bool) (failed : Flow) :
    (sendMsg agent connection message sent failed).connection.rates =
      connection.rates := by
  rw [sendMsg]
  split <;> rfl

@[simp]
theorem rates_sendOrEscape (agent : AgentState) (connection : Connection)
    (message : A2C) (sent : Bool) :
    (sendOrEscape agent connection message sent).connection.rates =
      connection.rates := rates_sendMsg _ _ _ _ _

@[simp]
theorem rates_notify (agent : AgentState) (connection : Connection)
    (injected : List (Notification × Bool)) :
    (notify agent connection injected).connection.rates =
      connection.rates := by
  induction injected generalizing agent connection with
  | nil => rfl
  | cons head rest ih =>
      simp only [notify]
      split
      · rw [ih, rates_sendOrEscape]
      · exact rates_sendOrEscape _ _ _ _

@[simp]
theorem rates_onHello (agent : AgentState) (connection : Connection)
    (hello : Hello) (env : MessageEnv) :
    (onHello agent connection hello env).connection.rates =
      connection.rates := by
  rw [onHello]
  split
  · dsimp only
    split <;> exact rates_sendOrEscape _ _ _ _
  · exact rates_sendOrEscape _ _ _ _

@[simp]
theorem rates_onInputBatch (agent : AgentState) (connection : Connection)
    (env : MessageEnv) :
    (onInputBatch agent connection env).connection.rates =
      connection.rates := by
  rw [onInputBatch]
  split
  · exact rates_notify _ _ _
  · rfl

@[simp]
theorem rates_onPacketFeedback (agent : AgentState) (connection : Connection)
    (feedback : PacketFeedback) (nowUs : ℕ) :
    (onPacketFeedback agent connection feedback nowUs).connection.rates =
      connection.rates := by
  rw [onPacketFeedback]
  split
  · exact Connection.rates_of_map rfl (fun _ => rfl) (fun _ => rfl) rfl rfl
      rfl rfl
  · rfl

@[simp]
theorem rates_announce (agent : AgentState) (connection : Connection)
    (point : Option UInt32) (sent : Bool) :
    (announce agent connection point sent).connection.rates =
      connection.rates := by
  cases point with
  | some firstSafe => exact rates_sendMsg _ _ _ _ _
  | none => rfl

@[simp]
theorem rates_sendStats (agent : AgentState) (connection : Connection)
    (env : TickEnv) :
    (sendStats agent connection env).connection.rates = connection.rates := by
  rw [sendStats]
  split
  · split
    · exact rates_sendMsg _ _ _ _ _
    · rfl
  · rfl

@[simp]
theorem rates_trackPath (connection : Connection) (env : TickEnv) :
    (trackPath connection env).rates = connection.rates := by
  rw [trackPath]
  split
  · exact Connection.rates_of_map rfl (fun _ => rfl) (fun _ => rfl) rfl rfl
      rfl rfl
  · rfl

@[simp]
theorem streaming_trackPath (connection : Connection) (env : TickEnv) :
    (trackPath connection env).streaming = connection.streaming := by
  rw [trackPath]
  split
  · simp [Connection.streaming, Connection.mapPipeline]
  · rfl

@[simp]
theorem estimateBps_trackPath (connection : Connection) (env : TickEnv) :
    estimateBps (trackPath connection env) env =
      estimateBps connection env := by
  rw [trackPath]
  split <;> rfl

theorem rates_onStopSession (agent : AgentState) (connection : Connection) :
    (onStopSession agent connection).connection.rates =
      connection.rates.closed := by
  unfold onStopSession
  dsimp only
  split <;> rfl

theorem rates_onSetBitrate (agent : AgentState) {connection : Connection}
    (hactive : connection.active.isSome) (bitrateBps : ℕ) :
    (onSetBitrate agent connection bitrateBps).connection.rates =
      connection.rates.withBitrate bitrateBps := by
  rw [onSetBitrate, if_pos hactive]
  change { (connection.mapPipeline fun pipeline =>
    { pipeline with bitrate := clampBand bitrateBps }).rates with
      ceiling := clampBand bitrateBps } = _
  rw [connection.rates_withTarget]
  rfl

theorem moves_onSetBitrate (agent : AgentState) (connection : Connection)
    (rate : UInt32) (env : MessageEnv) (hostCap : Option ℕ) :
    Moves hostCap connection.rates (.message (.setBitrate rate) env)
      (onSetBitrate agent connection rate.toNat).connection.rates := by
  by_cases hactive : connection.active.isSome
  · rw [rates_onSetBitrate agent hactive]
    exact .sets rate env
  · rw [onSetBitrate, if_neg hactive]
    exact .keeps _

theorem moves_onSetAbr (agent : AgentState) (connection : Connection)
    (enabled : Bool) (env : MessageEnv) (hostCap : Option ℕ) :
    Moves hostCap connection.rates (.message (.setAbr enabled) env)
      (onSetAbr agent connection enabled).connection.rates := by
  unfold onSetAbr
  dsimp only
  split
  case isTrue hpins =>
    obtain ⟨-, hoff⟩ := Bool.and_eq_true_iff.mp hpins
    obtain rfl : enabled = false := by simpa using hoff
    split
    case h_1 hnone => exact .toggles false env
    case h_2 target htarget =>
      rw [Connection.rates_withTarget]
      exact .pins env htarget
  case isFalse => exact .toggles enabled env

theorem moves_onStartSession (agent : AgentState) (connection : Connection)
    (request : SessionRequest) (env : MessageEnv) :
    Moves agent.hostCap connection.rates (.message (.startSession request) env)
      (onStartSession agent connection request env).connection.rates := by
  rw [onStartSession]
  split
  case h_1 =>
    rw [rates_sendOrEscape]
    exact .keeps _
  case h_2 hidle =>
    cases hstart : env.start with
    | failed message =>
        simp only [startSession, rates_sendOrEscape]
        exact .keeps _
    | ready modes encoderCaps injector =>
        simp only [startSession, rates_sendOrEscape]
        apply Moves.opens request env
        rw [Connection.rates, hidle]
        rfl

/-- The tick measures and steers where a session streams. -/
theorem rates_steer (connection : Connection) :
    (steer connection).map Connection.rates = connection.rates.steered := by
  have hauto : (connection.rates.abr &&
      decide (0 < connection.rates.estimate)) =
      (connection.abrEnabled && decide (0 < connection.lastEstimateBps)) := rfl
  rw [steer, Rates.steered, hauto]
  split
  · rw [Option.map_map]
    have htarget : (Connection.rates ∘ fun target =>
        connection.mapPipeline fun pipeline =>
          { pipeline with bitrate := target }) =
        connection.rates.withTarget := by
      funext target
      exact connection.rates_withTarget target
    rw [htarget]
    rfl
  · rfl

/-- Where a session streams, the tick measures and then steers. -/
theorem rates_onTick_of_streaming (agent : AgentState)
    {connection : Connection} (env : TickEnv)
    (hstreaming : connection.streaming) {driven : Rates}
    (hdriven : (connection.rates.measured (estimateBps connection env)
      env).steered = some driven) :
    (onTick agent connection env).connection.rates = driven := by
  have hticked : (trackPath
      { connection with tickCount := connection.tickCount + 1 } env).rates =
      connection.rates := rates_trackPath _ env
  have hthere : (trackPath { connection with
      tickCount := connection.tickCount + 1 } env).streaming := by
    rw [streaming_trackPath]
    exact hstreaming
  have hestimate : estimateBps (trackPath
      { connection with tickCount := connection.tickCount + 1 } env) env =
      estimateBps connection env := estimateBps_trackPath _ env
  rw [← hticked, ← hestimate, ← Connection.rates_measure,
    ← rates_steer] at hdriven
  obtain ⟨steered, hsteered, rfl⟩ := Option.map_eq_some_iff.mp hdriven
  rw [onTick]
  dsimp only
  rw [if_pos hthere, hsteered]
  dsimp only
  split <;> simp only [rates_sendStats, rates_announce]

/-- Elsewhere it leaves the rates alone. -/
theorem rates_onTick_of_not_streaming (agent : AgentState)
    {connection : Connection} (env : TickEnv)
    (hstreaming : ¬connection.streaming) :
    (onTick agent connection env).connection.rates = connection.rates := by
  have hticked : (trackPath
      { connection with tickCount := connection.tickCount + 1 } env).rates =
      connection.rates := rates_trackPath _ env
  have hthere : ¬(trackPath { connection with
      tickCount := connection.tickCount + 1 } env).streaming := by
    rw [streaming_trackPath]
    exact hstreaming
  rw [onTick]
  dsimp only
  rw [if_neg hthere]
  dsimp only
  split <;> simp only [rates_sendStats, rates_announce, hticked]

theorem moves_onTick (agent : AgentState) (connection : Connection)
    (env : TickEnv) (hostCap : Option ℕ) :
    Moves hostCap connection.rates (.tick env)
      (onTick agent connection env).connection.rates := by
  have hticked : (trackPath
      { connection with tickCount := connection.tickCount + 1 } env).rates =
      connection.rates := rates_trackPath _ env
  rw [onTick]
  dsimp only
  split
  case h_1 =>
    rw [hticked]
    exact .keeps _
  case h_2 driven hdriven =>
    have hmoves : Moves hostCap connection.rates (.tick env) driven.rates := by
      split_ifs at hdriven
      · apply Moves.ticks
        rw [← hticked, ← Connection.rates_measure, ← rates_steer, hdriven]
        rfl
      · rw [← Option.some.inj hdriven, hticked]
        exact .keeps _
    split <;> simpa only [rates_sendStats, rates_announce] using hmoves

theorem moves_onMessage (agent : AgentState) (connection : Connection)
    (message : C2A) (env : MessageEnv) :
    Moves agent.hostCap connection.rates (.message message env)
      (onMessage agent connection message env).connection.rates := by
  have hkeeps : ∀ {after : Rates}, after = connection.rates →
      Moves agent.hostCap connection.rates (.message message env) after :=
    fun h => h ▸ .keeps _
  cases hhelloed : connection.helloed with
  | false =>
      cases message <;> simp only [onMessage, hhelloed]
      case hello hello => exact hkeeps (rates_onHello _ _ _ _)
      all_goals exact hkeeps (rates_sendOrEscape _ _ _ _)
  | true =>
      cases message <;>
        simp only [onMessage, hhelloed, Bool.not_true, Bool.false_eq_true,
          if_false]
      case hello hello => exact hkeeps (rates_onHello _ _ _ _)
      case listSources => exact hkeeps (rates_sendOrEscape _ _ _ _)
      case startSession request =>
          exact moves_onStartSession agent connection request env
      case stopSession =>
          rw [rates_onStopSession]
          exact .closes env
      case inputBatch size => exact hkeeps (rates_onInputBatch _ _ _)
      case packetFeedback feedback =>
          exact hkeeps (rates_onPacketFeedback _ _ _ _)
      case setBitrate rate => exact moves_onSetBitrate _ _ _ _ _
      case setAbr enabled => exact moves_onSetAbr _ _ _ _ _
      case ping clientTsUs => exact hkeeps (rates_sendOrEscape _ _ _ _)
      case requestKeyframe | requestRecovery | nack =>
          exact hkeeps (Connection.rates_of_map rfl (fun _ => rfl)
            (fun _ => rfl) rfl rfl rfl rfl)
      case frameAck | statsReport => exact .keeps _

/-- One turn makes one of the moves. -/
theorem turn_moves (agent : AgentState) (connection : Connection)
    (event : Event) :
    Moves agent.hostCap connection.rates event
      (turn agent connection event).connection.rates := by
  cases event with
  | message message env => exact moves_onMessage agent connection message env
  | tick env => exact moves_onTick agent connection env _
  | recoveryReady point sent =>
      rw [turn, onRecoveryReady, rates_announce]
      exact .keeps _
  | stamped record =>
      have hsame : (turn agent connection (.stamped record)).connection.rates =
          connection.rates :=
        Connection.rates_of_map rfl (fun _ => rfl) (fun _ => rfl) rfl rfl rfl
          rfl
      rw [hsame]
      exact .keeps _
  | received failed closed => exact .keeps _

/-- What follows the loop only ends the session. -/
theorem rates_finish (result : Turn) :
    (finish result).2.rates = result.connection.rates ∨
      (finish result).2.rates = result.connection.rates.closed := by
  rw [finish]
  cases result.flow with
  | next => exact Or.inl rfl
  | leave exit =>
      right
      cases result.connection.active <;> rfl
  | escape exit => exact Or.inr rfl

/-- One turn of a connection that may have returned. -/
theorem serve_moves (agent : AgentState) (connection : Connection)
    (event : Event) :
    ∃ after, Moves agent.hostCap connection.rates event after ∧
      ((serve agent connection event).2.rates = after ∨
        (serve agent connection event).2.rates = after.closed) := by
  rw [serve]
  split
  · exact ⟨_, .keeps event, Or.inl rfl⟩
  · exact ⟨_, turn_moves agent connection event, rates_finish _⟩

end Service

end GameStreamer
