import GameStreamer.Session.Service

/-!
# What one turn of the service does

Every turn of the loop keeps, starts or stops the connection's session; some
return without the clean-up while a session is active; and none takes the
session ceiling below the safety band.  One lemma for each function of the
service says so, and the runs across connections rest on their sum.
-/

namespace GameStreamer

namespace Service

/-! ## What one turn does to the registry -/

/-- Two states of a connection between which no session began or ended. -/
structure SameSession (first second : Connection) : Prop where
  active : second.sessionId = first.sessionId
  registered : second.registered = first.registered
  exit : second.exit = first.exit
  idle : second.active = none ↔ first.active = none

theorem SameSession.refl (connection : Connection) :
    SameSession connection connection := ⟨rfl, rfl, rfl, Iff.rfl⟩

theorem SameSession.trans {first second third : Connection}
    (hfirst : SameSession first second) (hsecond : SameSession second third) :
    SameSession first third where
  active := hsecond.active.trans hfirst.active
  registered := hsecond.registered.trans hfirst.registered
  exit := hsecond.exit.trans hfirst.exit
  idle := hsecond.idle.trans hfirst.idle

/-- A change of the active session that keeps its id. -/
theorem sameSession_of_map {first second : Connection}
    {change : ActiveSession → ActiveSession}
    (hactive : second.active = first.active.map change)
    (hid : ∀ session, (change session).id = session.id)
    (hregistered : second.registered = first.registered)
    (hexit : second.exit = first.exit) : SameSession first second where
  active := by simp [Connection.sessionId, hactive, Function.comp_def, hid]
  registered := hregistered
  exit := hexit
  idle := by simp [hactive]

theorem sameSession_mapPipeline (connection : Connection)
    (change : Pipeline → Pipeline) :
    SameSession connection (connection.mapPipeline change) :=
  sameSession_of_map rfl (fun _ => rfl) rfl rfl

theorem sameSession_trackPath (connection : Connection) (env : TickEnv) :
    SameSession connection (trackPath connection env) := by
  rw [trackPath]
  split
  · exact sameSession_of_map rfl (fun _ => rfl) rfl rfl
  · exact SameSession.refl _

theorem sameSession_measure (connection : Connection) (env : TickEnv) :
    SameSession connection (measure connection env) :=
  sameSession_of_map rfl (fun _ => rfl) rfl rfl

theorem sameSession_steer {connection driven : Connection}
    (hsteer : steer connection = some driven) :
    SameSession connection driven := by
  rw [steer] at hsteer
  split at hsteer
  · obtain ⟨target, -, rfl⟩ := Option.map_eq_some_iff.mp hsteer
    exact sameSession_mapPipeline _ _
  · obtain rfl := Option.some.inj hsteer
    exact SameSession.refl _

/-- A turn that leaves the registry and the sessions alone. -/
structure Kept (agent : AgentState) (connection : Connection)
    (result : Turn) : Prop where
  registry : result.agent = agent
  same : SameSession connection result.connection

/-- A turn that starts and registers a session under a fresh id. -/
structure Started (agent : AgentState) (connection : Connection)
    (result : Turn) : Prop where
  idle : connection.active = none
  nextSession : result.agent.nextSession = agent.nextSession + 1
  registry : result.agent.registered = agent.nextSession ::
    agent.registered.filter fun id => decide (id ≠ agent.nextSession)
  active : result.connection.sessionId = some agent.nextSession
  registered : result.connection.registered =
    agent.nextSession :: connection.registered
  exit : result.connection.exit = connection.exit

/-- A turn that stops the active session and removes it. -/
structure Stopped (agent : AgentState) (connection : Connection)
    (result : Turn) (id : ℕ) : Prop where
  active : connection.sessionId = some id
  registry : result.agent = agent.removeSession id
  idle : result.connection.active = none
  registered : result.connection.registered = connection.registered
  exit : result.connection.exit = connection.exit

@[simp]
theorem registered_removeSession (agent : AgentState) (id : ℕ) :
    (agent.removeSession id).registered =
      agent.registered.filter fun other => decide (other ≠ id) := by
  simp [AgentState.removeSession, AgentState.registered, List.filter_map,
    Function.comp_def]

theorem kept_refl (agent : AgentState) (connection : Connection)
    (flow : Flow) : Kept agent connection ⟨agent, connection, flow⟩ :=
  ⟨rfl, SameSession.refl _⟩

theorem Kept.after {agent : AgentState} {first second : Connection}
    {result : Turn} (hkept : Kept agent second result)
    (hsame : SameSession first second) : Kept agent first result :=
  ⟨hkept.registry, hsame.trans hkept.same⟩

theorem Kept.trans {agent : AgentState} {connection : Connection}
    {first second : Turn} (hfirst : Kept agent connection first)
    (hsecond : Kept first.agent first.connection second) :
    Kept agent connection second :=
  ⟨hsecond.registry.trans hfirst.registry, hfirst.same.trans hsecond.same⟩

theorem kept_sendMsg (agent : AgentState) (connection : Connection)
    (message : A2C) (sent : Bool) (failed : Flow) :
    Kept agent connection (sendMsg agent connection message sent failed) := by
  rw [sendMsg]
  split <;> exact ⟨rfl, rfl, rfl, rfl, Iff.rfl⟩

theorem kept_notify (agent : AgentState) (connection : Connection)
    (injected : List (Notification × Bool)) :
    Kept agent connection (notify agent connection injected) := by
  induction injected generalizing agent connection with
  | nil => exact kept_refl _ _ _
  | cons head rest ih =>
      obtain ⟨notification, sent⟩ := head
      have hsend := kept_sendMsg agent connection (.notification notification)
        sent (.escape .sendFailed)
      simp only [notify, sendOrEscape]
      split
      · exact hsend.trans (ih _ _)
      · exact hsend

theorem kept_onHello (agent : AgentState) (connection : Connection)
    (hello : Hello) (env : MessageEnv) :
    Kept agent connection (onHello agent connection hello env) := by
  rw [onHello]
  split
  · dsimp only
    split
    · have hsend := kept_sendMsg agent connection
        (.error ("protocol " ++ toString hello.proto ++
          " unsupported (agent speaks " ++ toString protoVersion ++ ")"))
        env.sent (.escape .sendFailed)
      exact ⟨hsend.registry, hsend.same⟩
    · exact kept_sendMsg _ _ _ _ _
  · exact (kept_sendMsg _ _ _ _ _).after ⟨rfl, rfl, rfl, Iff.rfl⟩

theorem onStartSession_cases (agent : AgentState) (connection : Connection)
    (request : SessionRequest) (env : MessageEnv) :
    Kept agent connection (onStartSession agent connection request env) ∨
      Started agent connection
        (onStartSession agent connection request env) := by
  rw [onStartSession]
  split
  case h_1 => exact Or.inl (kept_sendMsg _ _ _ _ _)
  case h_2 hidle =>
      cases hstart : env.start with
      | failed message => exact Or.inl (kept_sendMsg _ _ _ _ _)
      | ready modes encoderCaps injector =>
          right
          simp only [startSession]
          have hsend := kept_sendMsg
          exact
            { idle := hidle
              nextSession := by
                rw [sendOrEscape, (hsend _ _ _ _ _).registry]
                rfl
              registry := by
                rw [sendOrEscape, (hsend _ _ _ _ _).registry]
                simp [AgentState.registered, AgentState.registerSession,
                  List.filter_map, Function.comp_def]
              active := by
                rw [sendOrEscape, (hsend _ _ _ _ _).same.active]
                rfl
              registered := by
                rw [sendOrEscape, (hsend _ _ _ _ _).same.registered]
              exit := by
                rw [sendOrEscape, (hsend _ _ _ _ _).same.exit] }

theorem onStopSession_cases (agent : AgentState) (connection : Connection) :
    Kept agent connection (onStopSession agent connection) ∨
      ∃ id, Stopped agent connection (onStopSession agent connection) id := by
  unfold onStopSession
  dsimp only
  split
  case h_1 session hactive =>
      exact Or.inr ⟨session.id, by rw [Connection.sessionId, hactive]; rfl,
        rfl, rfl, rfl, rfl⟩
  case h_2 hidle =>
      exact Or.inl ⟨rfl, by simp [Connection.sessionId, hidle], rfl, rfl,
        by simp [hidle]⟩

theorem kept_onInputBatch (agent : AgentState) (connection : Connection)
    (env : MessageEnv) :
    Kept agent connection (onInputBatch agent connection env) := by
  rw [onInputBatch]
  split
  · exact kept_notify _ _ _
  · exact kept_refl _ _ _

theorem kept_onPacketFeedback (agent : AgentState) (connection : Connection)
    (feedback : PacketFeedback) (nowUs : ℕ) :
    Kept agent connection
      (onPacketFeedback agent connection feedback nowUs) := by
  rw [onPacketFeedback]
  split
  · exact ⟨rfl, sameSession_of_map rfl (fun _ => rfl) rfl rfl⟩
  · exact kept_refl _ _ _

theorem kept_onSetBitrate (agent : AgentState) (connection : Connection)
    (bitrateBps : ℕ) :
    Kept agent connection (onSetBitrate agent connection bitrateBps) := by
  rw [onSetBitrate]
  split
  · exact ⟨rfl, sameSession_of_map rfl (fun _ => rfl) rfl rfl⟩
  · exact kept_refl _ _ _

theorem kept_onSetAbr (agent : AgentState) (connection : Connection)
    (enabled : Bool) :
    Kept agent connection (onSetAbr agent connection enabled) := by
  have htoggled : SameSession connection
      { connection with abrEnabled := enabled } := ⟨rfl, rfl, rfl, Iff.rfl⟩
  unfold onSetAbr
  dsimp only
  split
  · split
    · exact ⟨rfl, htoggled⟩
    · exact ⟨rfl, sameSession_of_map rfl (fun _ => rfl) rfl rfl⟩
  · exact ⟨rfl, htoggled⟩

theorem onMessage_cases (agent : AgentState) (connection : Connection)
    (message : C2A) (env : MessageEnv) :
    Kept agent connection (onMessage agent connection message env) ∨
      Started agent connection (onMessage agent connection message env) ∨
      ∃ id, Stopped agent connection
        (onMessage agent connection message env) id := by
  cases hhelloed : connection.helloed with
  | false =>
      left
      cases message <;> simp only [onMessage, hhelloed]
      case hello hello => exact kept_onHello agent connection hello env
      all_goals exact kept_sendMsg _ _ _ _ _
  | true =>
      cases message <;>
        simp only [onMessage, hhelloed, Bool.not_true, Bool.false_eq_true,
          if_false]
      case hello hello => exact Or.inl (kept_onHello agent connection hello env)
      case listSources => exact Or.inl (kept_sendMsg _ _ _ _ _)
      case startSession request =>
          rcases onStartSession_cases agent connection request env with h | h
          · exact Or.inl h
          · exact Or.inr (Or.inl h)
      case stopSession =>
          rcases onStopSession_cases agent connection with h | h
          · exact Or.inl h
          · exact Or.inr (Or.inr h)
      case inputBatch size => exact Or.inl (kept_onInputBatch _ _ _)
      case packetFeedback feedback =>
          exact Or.inl (kept_onPacketFeedback _ _ _ _)
      case setBitrate bitrateBps => exact Or.inl (kept_onSetBitrate _ _ _)
      case setAbr enabled => exact Or.inl (kept_onSetAbr _ _ _)
      case ping clientTsUs => exact Or.inl (kept_sendMsg _ _ _ _ _)
      case requestKeyframe =>
          exact Or.inl
            ⟨rfl, sameSession_of_map rfl (fun _ => rfl) rfl rfl⟩
      case requestRecovery id =>
          exact Or.inl
            ⟨rfl, sameSession_of_map rfl (fun _ => rfl) rfl rfl⟩
      case nack seqs =>
          exact Or.inl
            ⟨rfl, sameSession_of_map rfl (fun _ => rfl) rfl rfl⟩
      case frameAck => exact Or.inl (kept_refl _ _ _)
      case statsReport => exact Or.inl (kept_refl _ _ _)

theorem kept_announce (agent : AgentState) (connection : Connection)
    (point : Option UInt32) (sent : Bool) :
    Kept agent connection (announce agent connection point sent) := by
  simp only [announce]
  split
  · exact kept_sendMsg _ _ _ _ _
  · exact kept_refl _ _ _

theorem kept_sendStats (agent : AgentState) (connection : Connection)
    (env : TickEnv) :
    Kept agent connection (sendStats agent connection env) := by
  rw [sendStats]
  split
  · split
    · exact kept_sendMsg _ _ _ _ _
    · exact kept_refl _ _ _
  · exact kept_refl _ _ _

theorem kept_onTick (agent : AgentState) (connection : Connection)
    (env : TickEnv) : Kept agent connection (onTick agent connection env) := by
  have hcounted : SameSession connection
      { connection with tickCount := connection.tickCount + 1 } :=
    ⟨rfl, rfl, rfl, Iff.rfl⟩
  have hticked := hcounted.trans (sameSession_trackPath _ env)
  rw [onTick]
  dsimp only
  split
  case h_1 => exact ⟨rfl, hticked⟩
  case h_2 driven hdriven =>
      have hsame : SameSession connection driven := by
        split at hdriven
        · exact (hticked.trans (sameSession_measure _ env)).trans
            (sameSession_steer hdriven)
        · exact hticked.trans (Option.some.inj hdriven ▸ SameSession.refl _)
      have hannounce := fun point =>
        (kept_announce agent driven point env.pointSent).after hsame
      split
      · exact (hannounce _).trans (kept_sendStats _ _ env)
      · exact hannounce _

/-- Every turn keeps, starts or stops a session. -/
theorem turn_cases (agent : AgentState) (connection : Connection)
    (event : Event) :
    Kept agent connection (turn agent connection event) ∨
      Started agent connection (turn agent connection event) ∨
      ∃ id, Stopped agent connection (turn agent connection event) id := by
  cases event with
  | message message env => exact onMessage_cases agent connection message env
  | tick env => exact Or.inl (kept_onTick agent connection env)
  | recoveryReady point sent => exact Or.inl (kept_announce _ _ _ _)
  | stamped record =>
      exact Or.inl ⟨rfl, sameSession_of_map rfl (fun _ => rfl) rfl rfl⟩
  | received failed closed => exact Or.inl (kept_refl _ _ _)

/-! ## Which turns return with a session behind them -/

/-- A turn that returns without the clean-up while a session is active. -/
def Leaks (result : Turn) : Prop :=
  (∃ exit, result.flow = .escape exit) ∧ result.connection.active ≠ none

/-- The arm of this message writes a reply through `?`. -/
def replies (connection : Connection) : C2A → Bool
  | .hello _ => true
  | .listSources => true
  | .startSession _ => true
  | .ping _ => true
  | _ => !connection.helloed

/-- A session is active when that reply is written. -/
def activeAtReply (connection : Connection) (message : C2A)
    (start : StartEnv) : Bool :=
  connection.active.isSome ||
    match message, start with
    | .startSession _, .ready _ _ _ => connection.helloed
    | _, _ => false

/-- The injector of an active session handles this message. -/
def injects (connection : Connection) : C2A → Bool
  | .inputBatch _ => connection.helloed && connection.mayInteract &&
      connection.active.any fun session => session.injector
  | _ => false

/-- No write through `?` fails while a session is active. -/
def WritesSucceed (connection : Connection) : Event → Prop
  | .message message env =>
      (replies connection message = true →
        activeAtReply connection message env.start = true →
        env.sent = true) ∧
      (injects connection message = true →
        ∀ notified ∈ env.injected, notified.2 = true)
  | _ => True

instance (connection : Connection) : (event : Event) →
    Decidable (WritesSucceed connection event)
  | .message _ _ => inferInstanceAs (Decidable (_ ∧ _))
  | .tick _ => inferInstanceAs (Decidable True)
  | .recoveryReady _ _ => inferInstanceAs (Decidable True)
  | .stamped _ => inferInstanceAs (Decidable True)
  | .received _ _ => inferInstanceAs (Decidable True)

theorem leaks_sendOrEscape (agent : AgentState) (connection : Connection)
    (message : A2C) (sent : Bool) :
    Leaks (sendOrEscape agent connection message sent) ↔
      sent = false ∧ connection.active ≠ none := by
  cases sent <;> simp [Leaks, sendOrEscape, sendMsg]

theorem not_leaks_sendOrLeave (agent : AgentState) (connection : Connection)
    (message : A2C) (sent : Bool) :
    ¬ Leaks (sendOrLeave agent connection message sent) := by
  cases sent <;> simp [Leaks, sendOrLeave, sendMsg]

theorem not_leaks_next (agent : AgentState) (connection : Connection) :
    ¬ Leaks ⟨agent, connection, .next⟩ := by
  simp [Leaks]

theorem leaks_notify (agent : AgentState) (connection : Connection)
    (injected : List (Notification × Bool)) :
    Leaks (notify agent connection injected) ↔
      connection.active ≠ none ∧ ∃ notified ∈ injected, notified.2 = false := by
  induction injected generalizing connection with
  | nil => simp [notify, Leaks]
  | cons head rest ih =>
      obtain ⟨notification, sent⟩ := head
      cases sent with
      | false => simp [notify, sendOrEscape, sendMsg, Leaks]
      | true =>
          simp only [notify, sendOrEscape, sendMsg, if_true]
          rw [ih]
          simp

theorem leaks_onHello (agent : AgentState) (connection : Connection)
    (hello : Hello) (env : MessageEnv) :
    Leaks (onHello agent connection hello env) ↔
      env.sent = false ∧ connection.active ≠ none := by
  rw [onHello]
  split
  · cases hsent : env.sent <;>
      simp [sendOrEscape, sendMsg, Leaks]
  · rw [leaks_sendOrEscape]

theorem leaks_onStartSession (agent : AgentState) (connection : Connection)
    (request : SessionRequest) (env : MessageEnv)
    (hhelloed : connection.helloed = true) :
    Leaks (onStartSession agent connection request env) ↔
      env.sent = false ∧
        activeAtReply connection (.startSession request) env.start = true := by
  rw [onStartSession]
  split
  case h_1 session hactive =>
      rw [leaks_sendOrEscape]
      simp [activeAtReply, hactive]
  case h_2 hidle =>
      cases hstart : env.start <;>
        simp [startSession, leaks_sendOrEscape, activeAtReply, hidle, hhelloed]

/-- A ceiling within the band keeps the clamps of ABR from panicking. -/
theorem clamp_isSome (value : ℕ) {high : ℕ} (hhigh : bitrateMinBps ≤ high) :
    ∃ clamped, clamp value bitrateMinBps high = some clamped :=
  ⟨_, if_pos hhigh⟩

theorem not_leaks_onSetAbr (agent : AgentState) (connection : Connection)
    (enabled : Bool) (hceiling : bitrateMinBps ≤ connection.sessionCeiling) :
    ¬ Leaks (onSetAbr agent connection enabled) := by
  have hpinned : ∃ pinned, pinnedBitrate
      { connection with abrEnabled := enabled } = some pinned := by
    rw [pinnedBitrate]
    split
    · exact clamp_isSome _ hceiling
    · exact ⟨_, rfl⟩
  obtain ⟨pinned, hpinned⟩ := hpinned
  unfold onSetAbr
  dsimp only
  split
  · rw [hpinned]
    exact not_leaks_next _ _
  · exact not_leaks_next _ _

theorem leaks_onInputBatch (agent : AgentState) (connection : Connection)
    (env : MessageEnv) :
    Leaks (onInputBatch agent connection env) ↔
      (connection.mayInteract = true ∧
        (connection.active.any fun session => session.injector) = true) ∧
      ∃ notified ∈ env.injected, notified.2 = false := by
  rw [onInputBatch]
  split
  case isTrue hinjects =>
      have hboth := (Bool.and_eq_true _ _).mp hinjects
      rw [leaks_notify]
      refine ⟨fun h => ⟨hboth, h.2⟩, fun h => ⟨fun hnone => ?_, h.2⟩⟩
      simp [hnone] at hboth
  case isFalse hnot =>
      refine iff_of_false (not_leaks_next _ _) fun h => hnot ?_
      rw [Bool.and_eq_true]
      exact h.1

theorem not_leaks_onPacketFeedback (agent : AgentState)
    (connection : Connection) (feedback : PacketFeedback) (nowUs : ℕ) :
    ¬ Leaks (onPacketFeedback agent connection feedback nowUs) := by
  rw [onPacketFeedback]
  split <;> exact not_leaks_next _ _

theorem not_leaks_onSetBitrate (agent : AgentState)
    (connection : Connection) (bitrateBps : ℕ) :
    ¬ Leaks (onSetBitrate agent connection bitrateBps) := by
  rw [onSetBitrate]
  split <;> exact not_leaks_next _ _

theorem not_leaks_onStopSession (agent : AgentState)
    (connection : Connection) : ¬ Leaks (onStopSession agent connection) := by
  unfold onStopSession
  dsimp only
  split <;> exact not_leaks_next _ _

/-- A message that is answered through `?` leaks exactly when that write
fails under an active session. -/
theorem leaks_iff_of_replies {connection : Connection} {message : C2A}
    {env : MessageEnv} {result : Turn}
    (hreplies : replies connection message = true)
    (hinjects : injects connection message = false)
    (hleaks : Leaks result ↔ env.sent = false ∧
      activeAtReply connection message env.start = true) :
    Leaks result ↔ ¬ WritesSucceed connection (.message message env) := by
  rw [hleaks]
  simp only [WritesSucceed, hreplies, hinjects]
  cases env.sent <;> simp

/-- A message that is not answered at all never leaks. -/
theorem leaks_iff_of_silent {connection : Connection} {message : C2A}
    {env : MessageEnv} {result : Turn}
    (hreplies : replies connection message = false)
    (hinjects : injects connection message = false)
    (hleaks : ¬ Leaks result) :
    Leaks result ↔ ¬ WritesSucceed connection (.message message env) := by
  refine iff_of_false hleaks (not_not.mpr ?_)
  simp [WritesSucceed, hreplies, hinjects]

theorem leaks_onMessage (agent : AgentState) (connection : Connection)
    (message : C2A) (env : MessageEnv)
    (hceiling : bitrateMinBps ≤ connection.sessionCeiling) :
    Leaks (onMessage agent connection message env) ↔
      ¬ WritesSucceed connection (.message message env) := by
  have hactive : ∀ message, (∀ request, message ≠ .startSession request) →
      (activeAtReply connection message env.start = true ↔
        connection.active ≠ none) := by
    intro message hother
    cases message <;>
      simp [activeAtReply, Option.isSome_iff_ne_none]
    exact absurd rfl (hother _)
  cases hhelloed : connection.helloed with
  | false =>
      have hfirst : ∀ message, replies connection message = true := by
        intro message
        cases message <;> simp [replies, hhelloed]
      have hnone : injects connection message = false := by
        cases message <;> simp [injects, hhelloed]
      refine leaks_iff_of_replies (hfirst message) hnone ?_
      cases message <;> simp only [onMessage, hhelloed, Bool.not_false, if_true]
      case hello hello => rw [leaks_onHello, hactive _ (by simp)]
      case startSession request =>
          rw [leaks_sendOrEscape]
          cases env.start <;>
            simp [activeAtReply, hhelloed, Option.isSome_iff_ne_none]
      all_goals rw [leaks_sendOrEscape, hactive _ (by simp)]
  | true =>
      cases message <;>
        simp only [onMessage, hhelloed, Bool.not_true, Bool.false_eq_true,
          if_false]
      case hello hello =>
          refine leaks_iff_of_replies rfl rfl ?_
          rw [leaks_onHello, hactive _ (by simp)]
      case listSources =>
          refine leaks_iff_of_replies rfl rfl ?_
          rw [leaks_sendOrEscape, hactive _ (by simp)]
      case ping clientTsUs =>
          refine leaks_iff_of_replies rfl rfl ?_
          rw [leaks_sendOrEscape, hactive _ (by simp)]
      case startSession request =>
          exact leaks_iff_of_replies rfl rfl
            (leaks_onStartSession agent connection request env hhelloed)
      case inputBatch size =>
          rw [leaks_onInputBatch]
          simp [WritesSucceed, replies, injects, hhelloed, and_assoc]
      case stopSession =>
          exact leaks_iff_of_silent (by simp [replies, hhelloed]) rfl
            (not_leaks_onStopSession _ _)
      case packetFeedback feedback =>
          exact leaks_iff_of_silent (by simp [replies, hhelloed]) rfl
            (not_leaks_onPacketFeedback _ _ _ _)
      case setBitrate bitrateBps =>
          exact leaks_iff_of_silent (by simp [replies, hhelloed]) rfl
            (not_leaks_onSetBitrate _ _ _)
      case setAbr enabled =>
          exact leaks_iff_of_silent (by simp [replies, hhelloed]) rfl
            (not_leaks_onSetAbr _ _ _ hceiling)
      all_goals
        exact leaks_iff_of_silent (by simp [replies, hhelloed]) rfl
          (not_leaks_next _ _)

theorem not_leaks_announce (agent : AgentState) (connection : Connection)
    (point : Option UInt32) (sent : Bool) :
    ¬ Leaks (announce agent connection point sent) := by
  simp only [announce]
  split
  · exact not_leaks_sendOrLeave _ _ _ _
  · exact not_leaks_next _ _

theorem not_leaks_sendStats (agent : AgentState) (connection : Connection)
    (env : TickEnv) : ¬ Leaks (sendStats agent connection env) := by
  rw [sendStats]
  split
  · split
    · exact not_leaks_sendOrLeave _ _ _ _
    · exact not_leaks_next _ _
  · exact not_leaks_next _ _

@[simp]
theorem sessionCeiling_trackPath (connection : Connection) (env : TickEnv) :
    (trackPath connection env).sessionCeiling = connection.sessionCeiling := by
  rw [trackPath]
  split <;> rfl

theorem not_leaks_onTick (agent : AgentState) (connection : Connection)
    (env : TickEnv) (hceiling : bitrateMinBps ≤ connection.sessionCeiling) :
    ¬ Leaks (onTick agent connection env) := by
  have hsteer : ∀ ticked : Connection,
      ticked.sessionCeiling = connection.sessionCeiling →
      ∃ driven, steer (measure ticked env) = some driven := by
    intro ticked hticked
    rw [steer]
    split
    · have hband : bitrateMinBps ≤ (measure ticked env).sessionCeiling :=
        hticked.symm ▸ hceiling
      obtain ⟨target, htarget⟩ := clamp_isSome
        (abrTarget (measure ticked env).lastEstimateBps
          (measure ticked env).fecPermille) hband
      exact ⟨_, by rw [htarget]; rfl⟩
    · exact ⟨_, rfl⟩
  rw [onTick]
  dsimp only
  split
  case h_1 hnone =>
      split at hnone
      · obtain ⟨driven, hdriven⟩ := hsteer _
          (sessionCeiling_trackPath
            { connection with tickCount := connection.tickCount + 1 } env)
        rw [hdriven] at hnone
        cases hnone
      · cases hnone
  case h_2 =>
      split
      · exact not_leaks_sendStats _ _ _
      · exact not_leaks_announce _ _ _ _

/-- A turn leaks exactly when a write through `?` fails while a session is
active. -/
theorem leaks_turn (agent : AgentState) (connection : Connection)
    (event : Event) (hceiling : bitrateMinBps ≤ connection.sessionCeiling) :
    Leaks (turn agent connection event) ↔ ¬ WritesSucceed connection event := by
  cases event with
  | message message env =>
      exact leaks_onMessage agent connection message env hceiling
  | tick env =>
      exact iff_of_false (not_leaks_onTick _ _ _ hceiling) (not_not.mpr trivial)
  | recoveryReady point sent =>
      exact iff_of_false (not_leaks_announce _ _ _ _) (not_not.mpr trivial)
  | stamped record =>
      exact iff_of_false (not_leaks_next _ _) (not_not.mpr trivial)
  | received failed closed =>
      refine iff_of_false ?_ (not_not.mpr trivial)
      rintro ⟨⟨exit, hexit⟩, -⟩
      cases hexit

/-! ## The ceiling stays within the band -/

theorem bitrateMin_le_clampBand (value : ℕ) :
    bitrateMinBps ≤ clampBand value := Nat.le_max_left _ _

theorem bitrateMin_le_resolveBitrates (requested : Option ℕ) (abr : Bool)
    (hostCap : Option ℕ) :
    bitrateMinBps ≤ (resolveBitrates requested abr hostCap).2 := by
  have hmax : bitrateMinBps ≤ bitrateMaxBps := by decide
  have hhost : bitrateMinBps ≤
      (hostCap.map clampBand).getD bitrateMaxBps := by
    cases hostCap with
    | none => exact hmax
    | some cap => exact bitrateMin_le_clampBand cap
  rw [resolveBitrates]
  cases abr <;> cases requested
  · exact hhost
  · exact bitrateMin_le_clampBand _
  · exact hhost
  · exact Nat.le_min.mpr ⟨bitrateMin_le_clampBand _, hhost⟩

@[simp]
theorem sessionCeiling_sendMsg (agent : AgentState) (connection : Connection)
    (message : A2C) (sent : Bool) (failed : Flow) :
    (sendMsg agent connection message sent failed).connection.sessionCeiling =
      connection.sessionCeiling := by
  rw [sendMsg]
  split <;> rfl

@[simp]
theorem sessionCeiling_notify (agent : AgentState) (connection : Connection)
    (injected : List (Notification × Bool)) :
    (notify agent connection injected).connection.sessionCeiling =
      connection.sessionCeiling := by
  induction injected generalizing agent connection with
  | nil => rfl
  | cons head rest ih =>
      simp only [notify, sendOrEscape]
      split
      · rw [ih, sessionCeiling_sendMsg]
      · exact sessionCeiling_sendMsg _ _ _ _ _

theorem bitrateMin_le_onMessage (agent : AgentState)
    (connection : Connection) (message : C2A) (env : MessageEnv)
    (hceiling : bitrateMinBps ≤ connection.sessionCeiling) :
    bitrateMinBps ≤
      (onMessage agent connection message env).connection.sessionCeiling := by
  cases hhelloed : connection.helloed <;> cases message <;>
    simp only [onMessage, hhelloed, Bool.not_false, Bool.not_true, if_true,
      Bool.false_eq_true, if_false, sendOrEscape, sessionCeiling_sendMsg,
      Connection.mapPipeline] <;>
    try exact hceiling
  case false.hello hello | true.hello hello =>
      rw [onHello]
      split
      · dsimp only [sendOrEscape]
        split <;> simpa using hceiling
      · simpa [sendOrEscape] using hceiling
  case true.startSession request =>
      rw [onStartSession]
      split
      · simpa [sendOrEscape] using hceiling
      · cases hstart : env.start with
        | failed message => simpa [sendOrEscape, startSession] using hceiling
        | ready modes encoderCaps injector =>
            simpa [sendOrEscape, startSession] using
              bitrateMin_le_resolveBitrates _ _ _
  case true.stopSession =>
      unfold onStopSession
      dsimp only
      split <;> exact hceiling
  case true.inputBatch size =>
      rw [onInputBatch]
      split
      · simpa using hceiling
      · exact hceiling
  case true.packetFeedback feedback =>
      rw [onPacketFeedback]
      split <;> exact hceiling
  case true.setBitrate bitrateBps =>
      rw [onSetBitrate]
      split
      · exact bitrateMin_le_clampBand _
      · exact hceiling
  case true.setAbr enabled =>
      unfold onSetAbr
      dsimp only
      split
      · split <;> exact hceiling
      · exact hceiling

@[simp]
theorem sessionCeiling_announce (agent : AgentState) (connection : Connection)
    (point : Option UInt32) (sent : Bool) :
    (announce agent connection point sent).connection.sessionCeiling =
      connection.sessionCeiling := by
  simp only [announce]
  split
  · exact sessionCeiling_sendMsg _ _ _ _ _
  · rfl

@[simp]
theorem sessionCeiling_sendStats (agent : AgentState)
    (connection : Connection) (env : TickEnv) :
    (sendStats agent connection env).connection.sessionCeiling =
      connection.sessionCeiling := by
  rw [sendStats]
  split
  · split
    · exact sessionCeiling_sendMsg _ _ _ _ _
    · rfl
  · rfl

theorem sessionCeiling_steer {connection driven : Connection}
    (hsteer : steer connection = some driven) :
    driven.sessionCeiling = connection.sessionCeiling := by
  rw [steer] at hsteer
  split at hsteer
  · obtain ⟨target, -, rfl⟩ := Option.map_eq_some_iff.mp hsteer
    rfl
  · rw [Option.some.inj hsteer]

@[simp]
theorem sessionCeiling_onTick (agent : AgentState) (connection : Connection)
    (env : TickEnv) :
    (onTick agent connection env).connection.sessionCeiling =
      connection.sessionCeiling := by
  rw [onTick]
  dsimp only
  split
  case h_1 => exact sessionCeiling_trackPath _ env
  case h_2 driven hdriven =>
      have hsame : driven.sessionCeiling = connection.sessionCeiling := by
        split at hdriven
        · exact (sessionCeiling_steer hdriven).trans
            (sessionCeiling_trackPath _ env)
        · rw [← Option.some.inj hdriven]
          exact sessionCeiling_trackPath _ env
      split
      · rw [sessionCeiling_sendStats, sessionCeiling_announce, hsame]
      · rw [sessionCeiling_announce, hsame]

theorem bitrateMin_le_turn (agent : AgentState) (connection : Connection)
    (event : Event) (hceiling : bitrateMinBps ≤ connection.sessionCeiling) :
    bitrateMinBps ≤
      (turn agent connection event).connection.sessionCeiling := by
  cases event with
  | message message env =>
      exact bitrateMin_le_onMessage agent connection message env hceiling
  | tick env => simpa [turn] using hceiling
  | recoveryReady point sent => simpa [turn, onRecoveryReady] using hceiling
  | stamped record => exact hceiling
  | received failed closed => exact hceiling

end Service

end GameStreamer
