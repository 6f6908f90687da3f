import GameStreamer.Session.Feedback
import GameStreamer.Session.Rates
import GameStreamer.Session.ServiceTurn

/-!
# Sessions after sessions on one connection

The estimator, the send history and the sequence numbers are new in every
session.  The loop variables of `serve_inner` are not: the latest estimate
outlives the session that it was measured in.  It never reaches a later
session's target, because the first tick of every session emits an estimate of
its own before anything is steered.  But nothing in a feedback batch tells
which session sent the datagrams that it acknowledges, so a sample that comes
late meets the records of the session that follows.
-/

namespace GameStreamer.SessionIsolation

open EventRun Service BweDriver SendHistory

/-- An event of the service.  The samples of a feedback batch come with the
session that sent each sample's datagram. -/
structure Event where
  event : Service.Event
  origins : List ℕ
  tagged : ∀ batch env, event = .message (.packetFeedback batch) env →
    batch.samples.length = origins.length

/-- A connection over any number of sessions, with what the code does not keep:
the datagrams of the active session, and whether its rate is still its own
opening rate. -/
structure World where
  agent : AgentState
  connection : Connection
  /-- How many datagrams the active session stamped. -/
  stamped : ℕ
  /-- The active session was started in Auto, and since then its estimator
  gave no estimate and the client set neither the bitrate nor Auto. -/
  fresh : Bool

def start (agent : AgentState) (peer : String) (mayInteract : Bool) :
    World where
  agent := agent
  connection := .accepted peer mayInteract
  stamped := 0
  fresh := false

/-- The sender task stamps with its session's own counter. -/
def World.stamp (world : World) : Service.Event → Service.Event
  | .stamped record => .stamped { record with serial := world.stamped }
  | event => event

/-- A session is there that was not there before. -/
def opens (before after : Connection) : Bool :=
  before.active.isNone && after.active.isSome

def World.freshAfter (world : World) (after : Connection) :
    Service.Event → Bool
  | .message (.startSession request) _ =>
      if opens world.connection after then request.abr else world.fresh
  | .message (.setBitrate _) _ => false
  | .message (.setAbr _) _ => false
  | .tick env =>
      world.fresh && !(world.connection.streaming &&
        (estimateBps world.connection env).isSome)
  | _ => world.fresh

def World.stampedAfter (world : World) (after : Connection) :
    Service.Event → ℕ
  | .stamped _ => world.stamped + 1
  | _ => if opens world.connection after then 0 else world.stamped

/-- One turn of the service.  A started session stamps its datagrams from 0
again, which is how the sessions can be mistaken for one another. -/
def step (world : World) (event : Event) : World :=
  let served := serve world.agent world.connection (world.stamp event.event)
  { agent := served.1
    connection := served.2
    stamped := world.stampedAfter served.2 event.event
    fresh := world.freshAfter served.2 event.event }

/-- The target of a fresh session is the rate that it was opened at. -/
def AtOpening (world : World) : Prop :=
  world.fresh → ∀ session ∈ world.connection.active,
    session.pipeline.bitrate =
      min abrStartBps world.connection.sessionCeiling

/-- What a step tells the estimator about single packets. -/
def told (world : World) (event : Event) : List TwccSendRecord :=
  match world.connection.driver, (step world event).connection.driver with
  | some first, some second =>
      newReports first.toBweDriver second.toBweDriver
  | _, _ => []

/-- A sample that is matched, or whose seq drains the history, is of a
datagram of the active session. -/
def Unmixed (world : World) (event : Event) : Prop :=
  ∀ batch env, event.event = .message (.packetFeedback batch) env →
    ∀ session ∈ world.connection.active,
      (∀ report ∈ told world event, report.received.isSome →
        originOf batch event.origins report.record.seq = some session.id) ∧
      ∀ origin ∈ event.origins.getLast?, origin ≠ session.id →
        ∀ later ∈ (step world event).connection.active,
          later.pipeline.sendHistory = session.pipeline.sendHistory

/-- One step keeps the active session apart from the earlier ones. -/
def Isolated (world : World) (event : Event) : Prop :=
  AtOpening (step world event) ∧ Unmixed world event

/-- An earlier session's sample in a batch has the seq of no awaited record,
nor, as the last one, a seq that the oldest record of the history is
within. -/
def Separate (world : World) (event : Event) : Prop :=
  match event.event with
  | .message (.packetFeedback batch) _ =>
      ∀ session ∈ world.connection.active,
        ∀ driver ∈ world.connection.driver,
          ∀ last ∈ batch.samples.getLast?,
            (∀ record ∈ driver.awaiting
                (takeUpto session.pipeline.sendHistory last.1).1,
              ∀ origin ∈ originOf batch event.origins record.seq,
                origin = session.id) ∧
            ∀ origin ∈ event.origins.getLast?, origin ≠ session.id →
              ∀ record ∈ session.pipeline.sendHistory.head?,
                last.1 < record.seq
  | _ => True

instance (world : World) : Decidable (AtOpening world) :=
  inferInstanceAs (Decidable (_ → _))

instance (world : World) (event : Event) :
    Decidable (Separate world event) := by
  unfold Separate
  split
  -- Decided on the one sample that may be there, not over all of them.
  · exact @Option.decidableForallMem _ _ (fun _ =>
      @Option.decidableForallMem _ _ (fun _ =>
        Option.decidableForallMem _) _) _
  · infer_instance

/-! ## The target of the pipeline -/

/-- The later driver, if there is one, has the estimator of the earlier one. -/
def SameBwe (earlier later : Option SessionDriver) : Prop :=
  ∀ driver ∈ later, ∃ before ∈ earlier, driver.bwe = before.bwe

theorem sameBwe_of_eq {earlier later : Option SessionDriver}
    (h : later = earlier) : SameBwe earlier later := by
  rintro driver hdriver
  exact ⟨driver, h ▸ hdriver, rfl⟩

/-- No target changed, no session began, and no estimator was polled. -/
structure Quiet (first second : Connection) : Prop where
  rate : ∀ later ∈ second.active, ∃ earlier ∈ first.active,
    later.pipeline.bitrate = earlier.pipeline.bitrate
  ceiling : second.sessionCeiling = first.sessionCeiling
  driver : SameBwe first.driver second.driver

theorem Quiet.refl (connection : Connection) : Quiet connection connection :=
  ⟨fun later hlater => ⟨later, hlater, rfl⟩, rfl, sameBwe_of_eq rfl⟩

theorem Quiet.trans {first second third : Connection}
    (hfirst : Quiet first second) (hsecond : Quiet second third) :
    Quiet first third := by
  refine ⟨fun later hlater => ?_, hsecond.ceiling.trans hfirst.ceiling,
    fun later hlater => ?_⟩
  · obtain ⟨middle, hmiddle, hrate⟩ := hsecond.rate later hlater
    obtain ⟨earlier, hearlier, hrate'⟩ := hfirst.rate middle hmiddle
    exact ⟨earlier, hearlier, hrate.trans hrate'⟩
  · obtain ⟨middle, hmiddle, hbwe⟩ := hsecond.driver later hlater
    obtain ⟨earlier, hearlier, hbwe'⟩ := hfirst.driver middle hmiddle
    exact ⟨earlier, hearlier, hbwe.trans hbwe'⟩

/-- Rates that kept their target and ceiling, or lost their session. -/
theorem quiet_of_rates {first second : Connection}
    (hsession : second.rates.session = none ∨
      second.rates.session.map Prod.fst = first.rates.session.map Prod.fst)
    (hceiling : second.rates.ceiling = first.rates.ceiling)
    (hdriver : ∀ later ∈ second.driver, ∃ earlier ∈ first.driver,
      later.bwe = earlier.bwe) : Quiet first second := by
  refine ⟨fun later hlater => ?_, hceiling, hdriver⟩
  have hthere : second.rates.session =
      some (later.pipeline.bitrate, later.pipeline.fecPermille) := by
    rw [Connection.rates, hlater, Option.map_some]
  rw [hthere, Option.map_some] at hsession
  have hkept := hsession.resolve_left (Option.some_ne_none _)
  obtain ⟨target, htarget, hrate⟩ := Option.map_eq_some_iff.mp hkept.symm
  obtain ⟨earlier, hearlier, rfl⟩ := Option.map_eq_some_iff.mp htarget
  exact ⟨earlier, hearlier, hrate.symm⟩

/-- Only the client and a tick move a target. -/
theorem target_of_moves {hostCap : Option ℕ} {before after : Rates}
    {event : Service.Event} (h : Moves hostCap before event after)
    (hstart : ∀ request env, event = .message (.startSession request) env →
      before.session ≠ none)
    (hbitrate : ∀ rate env, event ≠ .message (.setBitrate rate) env)
    (habr : ∀ enabled env, event ≠ .message (.setAbr enabled) env)
    (htick : ∀ env, event ≠ .tick env) :
    (after.session = none ∨
      after.session.map Prod.fst = before.session.map Prod.fst) ∧
    after.ceiling = before.ceiling := by
  cases h with
  | keeps => exact ⟨Or.inr rfl, rfl⟩
  | closes env => exact ⟨Or.inl rfl, rfl⟩
  | opens request env hidle => exact absurd hidle (hstart request env rfl)
  | sets rate env => exact absurd rfl (hbitrate rate env)
  | toggles enabled env => exact absurd rfl (habr enabled env)
  | pins env => exact absurd rfl (habr false env)
  | ticks env => exact absurd rfl (htick env)

/-! ## The estimator of the driver -/

@[simp]
theorem driver_sendOrEscape (agent : AgentState) (connection : Connection)
    (message : A2C) (sent : Bool) :
    (sendOrEscape agent connection message sent).connection.driver =
      connection.driver := by
  rw [sendOrEscape, sendMsg]
  split <;> rfl

@[simp]
theorem driver_announce (agent : AgentState) (connection : Connection)
    (point : Option UInt32) (sent : Bool) :
    (announce agent connection point sent).connection.driver =
      connection.driver := by
  cases point with
  | none => rfl
  | some firstSafe =>
      rw [announce, sendOrLeave, sendMsg]
      split <;> rfl

@[simp]
theorem driver_sendStats (agent : AgentState) (connection : Connection)
    (env : TickEnv) :
    (sendStats agent connection env).connection.driver =
      connection.driver := by
  rw [sendStats]
  split
  · split
    · rw [sendOrLeave, sendMsg]
      split <;> rfl
    · rfl
  · rfl

@[simp]
theorem driver_notify (agent : AgentState) (connection : Connection)
    (injected : List (Notification × Bool)) :
    (notify agent connection injected).connection.driver =
      connection.driver := by
  induction injected generalizing agent connection with
  | nil => rfl
  | cons head rest ih =>
      simp only [notify]
      split
      · rw [ih, driver_sendOrEscape]
      · exact driver_sendOrEscape _ _ _ _

/-- A tick without a session polls nothing. -/
theorem driver_onTick (agent : AgentState) {connection : Connection}
    (env : TickEnv) (hidle : ¬connection.streaming) :
    (onTick agent connection env).connection.driver = connection.driver := by
  have hticked : (trackPath { connection with
      tickCount := connection.tickCount + 1 } env).driver =
      connection.driver := by
    rw [trackPath]
    split <;> rfl
  have hthere : ¬(trackPath { connection with
      tickCount := connection.tickCount + 1 } env).streaming := by
    rw [streaming_trackPath]
    exact hidle
  rw [onTick]
  dsimp only
  rw [if_neg hthere]
  dsimp only
  split <;> simp only [driver_sendStats, driver_announce, hticked]

@[simp]
theorem driver_onHello (agent : AgentState) (connection : Connection)
    (hello : Hello) (env : MessageEnv) :
    (onHello agent connection hello env).connection.driver =
      connection.driver := by
  rw [onHello]
  split
  · dsimp only
    split <;> exact driver_sendOrEscape _ _ _ _
  · exact driver_sendOrEscape _ _ _ _

/-- A feedback batch polls nothing. -/
theorem sameBwe_onPacketFeedback (agent : AgentState)
    (connection : Connection) (batch : PacketFeedback) (nowUs : ℕ) :
    SameBwe connection.driver
      (onPacketFeedback agent connection batch nowUs).connection.driver := by
  rw [onPacketFeedback]
  split
  case h_1 session driver maxSeq delta hactive hdriver hlast =>
    rintro later hlater
    obtain rfl := Option.some.inj hlater
    exact ⟨driver, hdriver, rfl⟩
  case h_2 => exact sameBwe_of_eq rfl

/-- Only a tick polls a driver, and only a start makes one. -/
theorem sameBwe_onMessage (agent : AgentState) {connection : Connection}
    {message : C2A} (env : MessageEnv)
    (hstart : ∀ request, message = .startSession request →
      connection.active ≠ none) :
    SameBwe connection.driver
      (onMessage agent connection message env).connection.driver := by
  cases hhelloed : connection.helloed with
  | false =>
      cases message <;> simp only [onMessage, hhelloed]
      case hello hello => exact sameBwe_of_eq (driver_onHello _ _ _ _)
      all_goals exact sameBwe_of_eq (driver_sendOrEscape _ _ _ _)
  | true =>
      cases message <;>
        simp only [onMessage, hhelloed, Bool.not_true, Bool.false_eq_true,
          if_false]
      case hello hello => exact sameBwe_of_eq (driver_onHello _ _ _ _)
      case startSession request =>
          obtain ⟨session, hsession⟩ :=
            Option.ne_none_iff_exists'.mp (hstart request rfl)
          rw [onStartSession, hsession]
          exact sameBwe_of_eq (driver_sendOrEscape _ _ _ _)
      case stopSession =>
          rw [onStopSession]
          split <;> exact fun later hlater => by cases hlater
      case packetFeedback batch => exact sameBwe_onPacketFeedback _ _ _ _
      case inputBatch size =>
          rw [onInputBatch]
          split
          · exact sameBwe_of_eq (driver_notify _ _ _)
          · exact sameBwe_of_eq rfl
      case setBitrate rate =>
          rw [onSetBitrate]
          split <;> exact sameBwe_of_eq rfl
      case setAbr enabled =>
          rw [onSetAbr]
          split
          · split <;> exact sameBwe_of_eq rfl
          · exact sameBwe_of_eq rfl
      case listSources | ping =>
          exact sameBwe_of_eq (driver_sendOrEscape _ _ _ _)
      all_goals exact sameBwe_of_eq rfl

/-- A session that starts comes with a driver of its own. -/
theorem driver_onStartSession (agent : AgentState) {connection : Connection}
    (request : SessionRequest) (env : MessageEnv)
    (hidle : connection.active = none) :
    (∀ driver ∈ (onStartSession agent connection request
        env).connection.driver, driver.bwe.Unpolled) ∨
      (onStartSession agent connection request env).connection.driver =
          connection.driver ∧
        (onStartSession agent connection request env).connection.active =
          none := by
  rw [onStartSession, hidle]
  dsimp only
  split
  case h_1 =>
    refine Or.inr ⟨driver_sendOrEscape _ _ _ _, ?_⟩
    rw [sendOrEscape, sendMsg]
    split <;> exact hidle
  case h_2 =>
    refine Or.inl fun driver hdriver => ?_
    rw [driver_sendOrEscape] at hdriver
    obtain rfl := Option.some.inj hdriver
    exact Bwe.unpolled_new _

/-! ## Fresh sessions -/

@[simp]
theorem driver_finish (result : Turn) :
    (finish result).2.driver = result.connection.driver := by
  rw [finish]
  split
  · rfl
  · split <;> rfl
  · rfl

theorem active_finish {result : Turn} (h : result.connection.active = none) :
    (finish result).2.active = none := by
  rw [finish]
  split
  · exact h
  · split <;> rfl
  · rfl

/-- Leaving the loop ends the session. -/
theorem quiet_finish (result : Turn) :
    Quiet result.connection (finish result).2 := by
  have hsame : SameBwe result.connection.driver (finish result).2.driver :=
    sameBwe_of_eq (driver_finish result)
  obtain hkeeps | hcloses := rates_finish result
  · exact quiet_of_rates (Or.inr (by rw [hkeeps])) (by rw [hkeeps]) hsame
  · exact quiet_of_rates (Or.inl (by rw [hcloses]; rfl))
      (by rw [hcloses]; rfl) hsame

/-- Only the client and a tick of a session disturb the quiet. -/
theorem quiet_turn (agent : AgentState) {connection : Connection}
    {event : Service.Event}
    (hstart : ∀ request env, event = .message (.startSession request) env →
      connection.active ≠ none)
    (hbitrate : ∀ rate env, event ≠ .message (.setBitrate rate) env)
    (habr : ∀ enabled env, event ≠ .message (.setAbr enabled) env)
    (htick : ∀ env, event = .tick env → ¬connection.streaming) :
    Quiet connection (turn agent connection event).connection := by
  by_cases hevent : ∃ env, event = .tick env
  · obtain ⟨env, rfl⟩ := hevent
    have hidle := htick env rfl
    have hrates := rates_onTick_of_not_streaming agent env hidle
    apply quiet_of_rates
    · exact Or.inr (by rw [turn, hrates])
    · rw [turn, hrates]
    · exact sameBwe_of_eq (driver_onTick agent env hidle)
  · have hmoved := target_of_moves (turn_moves agent connection event)
      (fun request env hstarts hnone => hstart request env hstarts
        (Option.map_eq_none_iff.mp hnone)) hbitrate habr
      (fun env htick => hevent ⟨env, htick⟩)
    refine quiet_of_rates hmoved.1 hmoved.2 ?_
    cases event with
    | tick env => exact absurd ⟨env, rfl⟩ hevent
    | message message env =>
        exact sameBwe_onMessage agent env fun request hrequest =>
          hstart request env (by rw [hrequest])
    | recoveryReady point sent => exact sameBwe_of_eq (driver_announce _ _ _ _)
    | stamped record => exact sameBwe_of_eq rfl
    | received failed closed => exact sameBwe_of_eq rfl

/-- A fresh session is at its opening rate, and its driver was not polled. -/
structure Untouched (world : World) : Prop where
  target : AtOpening world
  driver : world.fresh → ∀ driver ∈ world.connection.driver,
    driver.bwe.Unpolled

/-- So the first tick of a fresh session emits an estimate. -/
theorem Untouched.estimates {world : World} (h : Untouched world)
    (hfresh : world.fresh) (hstreaming : world.connection.streaming)
    (env : TickEnv) : (estimateBps world.connection env).isSome := by
  obtain ⟨-, hdriver⟩ := Bool.and_eq_true_iff.mp hstreaming
  obtain ⟨driver, hdriver⟩ := Option.isSome_iff_exists.mp hdriver
  rw [estimateBps, polled, hdriver, Option.map_some, Option.bind_some,
    SessionDriver.estimateBps, Option.isSome_map, SessionDriver.onTick,
    (h.driver hfresh driver hdriver).polls]
  rfl

theorem Quiet.fresh {world : World} {event : Event}
    (hquiet : Quiet world.connection (step world event).connection)
    (hfresh : (step world event).fresh) : world.fresh := by
  have hopens : opens world.connection (step world event).connection =
      false := by
    rw [opens, Bool.and_eq_false_iff, Option.isNone_eq_false_iff,
      Option.isSome_eq_false_iff]
    cases hactive : (step world event).connection.active with
    | none => exact Or.inr rfl
    | some later =>
        obtain ⟨earlier, hearlier, -⟩ := hquiet.rate later hactive
        exact Or.inl (Option.isSome_of_eq_some hearlier)
  change world.freshAfter (step world event).connection event.event at hfresh
  unfold World.freshAfter at hfresh
  split at hfresh
  · rwa [hopens] at hfresh
  · cases hfresh
  · cases hfresh
  · exact (Bool.and_eq_true_iff.mp hfresh).1
  · exact hfresh

theorem Untouched.of_quiet {world : World} {event : Event}
    (h : Untouched world)
    (hquiet : Quiet world.connection (step world event).connection) :
    Untouched (step world event) := by
  constructor
  case target =>
    intro hfresh later hlater
    obtain ⟨earlier, hearlier, hrate⟩ := hquiet.rate later hlater
    rw [hrate, hquiet.ceiling]
    exact h.target (hquiet.fresh hfresh) earlier hearlier
  case driver =>
    intro hfresh later hlater
    obtain ⟨earlier, hearlier, hbwe⟩ := hquiet.driver later hlater
    rw [hbwe]
    exact h.driver (hquiet.fresh hfresh) earlier hearlier

theorem untouched_of_not_fresh {world : World}
    (h : world.fresh = false) : Untouched world where
  target hfresh := by
    rw [h] at hfresh
    cases hfresh
  driver hfresh := by
    rw [h] at hfresh
    cases hfresh

/-- A session that begins is at its opening rate. -/
theorem atOpening_onStart {world : World} {event : Event}
    {request : SessionRequest} {env : MessageEnv}
    (hevent : event.event = .message (.startSession request) env)
    (hidle : world.connection.active = none) :
    AtOpening (step world event) := by
  intro hfresh later hlater
  have hserved : (step world event).connection =
      (serve world.agent world.connection
        (.message (.startSession request) env)).2 := by
    rw [step, hevent]
    rfl
  have hopens : opens world.connection (step world event).connection := by
    rw [opens, hidle]
    exact Option.isSome_of_eq_some hlater
  have habr : request.abr := by
    change world.freshAfter (step world event).connection event.event = true
      at hfresh
    rw [hevent] at hfresh
    simpa only [World.freshAfter, hopens, if_true] using hfresh
  obtain ⟨after, hmoves, hafter⟩ := serve_moves world.agent world.connection
    (.message (.startSession request) env)
  rw [← hserved] at hafter
  have hthere : (SessionIsolation.step world event).connection.rates.session =
      some (later.pipeline.bitrate, later.pipeline.fecPermille) := by
    rw [Connection.rates, hlater, Option.map_some]
  have hnone : world.connection.rates.session = none := by
    rw [Connection.rates, hidle, Option.map_none]
  obtain hafter | hclosed := hafter
  case inr =>
    rw [hclosed] at hthere
    cases hthere
  cases hmoves with
  | keeps =>
      rw [hafter, hnone] at hthere
      cases hthere
  | opens =>
      have hceiling := congrArg Rates.ceiling hafter
      rw [hafter] at hthere
      obtain ⟨htarget, -⟩ := Prod.mk.inj (Option.some.inj hthere)
      rw [← htarget]
      change _ = min abrStartBps
        (SessionIsolation.step world event).connection.rates.ceiling
      rw [hceiling]
      simp only [Rates.opened, resolveBitrates, habr, if_true]

theorem untouched_onStart {world : World} (h : Untouched world) {event : Event}
    {request : SessionRequest} {env : MessageEnv}
    (hevent : event.event = .message (.startSession request) env)
    (hidle : world.connection.active = none) :
    Untouched (step world event) := by
  refine ⟨atOpening_onStart hevent hidle, fun hfresh => ?_⟩
  -- A start that opens nothing leaves the driver that was there.
  have hclosed : (step world event).connection.driver =
      world.connection.driver →
      (step world event).connection.active = none →
      ∀ driver ∈ (step world event).connection.driver,
        driver.bwe.Unpolled := by
    intro hsame hnone
    rw [hsame]
    apply h.driver
    change world.freshAfter (step world event).connection event.event = true
      at hfresh
    rw [hevent] at hfresh
    simpa only [World.freshAfter, opens, hnone, Option.isSome_none,
      Bool.and_false, Bool.false_eq_true, if_false] using hfresh
  have hserved : (step world event).connection =
      (serve world.agent world.connection
        (.message (.startSession request) env)).2 := by
    rw [step, hevent]
    rfl
  rw [serve] at hserved
  split_ifs at hserved
  · exact hclosed (congrArg Connection.driver hserved)
      ((congrArg Connection.active hserved).trans hidle)
  · have hstart : (∀ driver ∈ (onMessage world.agent world.connection
        (.startSession request) env).connection.driver,
          driver.bwe.Unpolled) ∨
        (onMessage world.agent world.connection (.startSession request)
            env).connection.driver = world.connection.driver ∧
          (onMessage world.agent world.connection (.startSession request)
            env).connection.active = none := by
      rw [onMessage]
      split_ifs
      · refine Or.inr ⟨driver_sendOrEscape _ _ _ _, ?_⟩
        rw [sendOrEscape, sendMsg]
        split <;> exact hidle
      · exact driver_onStartSession world.agent request env hidle
    obtain hnew | ⟨hdriver, hactive⟩ := hstart
    · rw [hserved, driver_finish]
      exact hnew
    · apply hclosed
      · rw [hserved, driver_finish]
        exact hdriver
      · rw [hserved]
        exact active_finish hactive

/-- A turn that is quiet leaves a fresh session alone. -/
theorem Untouched.of_turn {world : World} {event : Event}
    (h : Untouched world)
    (hquiet : Quiet world.connection (turn world.agent world.connection
      (world.stamp event.event)).connection) :
    Untouched (SessionIsolation.step world event) := by
  refine h.of_quiet ?_
  simp only [SessionIsolation.step, serve]
  split_ifs
  · exact Quiet.refl _
  · exact hquiet.trans (quiet_finish _)

theorem Untouched.message {world : World} (h : Untouched world)
    {event : Event} {message : C2A} {env : MessageEnv}
    (hevent : event.event = .message message env) :
    Untouched (SessionIsolation.step world event) := by
  by_cases hstart : ∃ request, message = .startSession request ∧
    world.connection.active = none
  · obtain ⟨request, rfl, hidle⟩ := hstart
    exact untouched_onStart h hevent hidle
  by_cases hclient : (∃ rate, message = .setBitrate rate) ∨
    ∃ enabled, message = .setAbr enabled
  · -- The session is no longer fresh.
    apply untouched_of_not_fresh
    change world.freshAfter _ event.event = false
    rw [hevent]
    rcases hclient with ⟨rate, rfl⟩ | ⟨enabled, rfl⟩ <;> rfl
  · apply h.of_turn
    rw [hevent]
    apply quiet_turn
    · rintro request _ ⟨⟩ hidle
      exact hstart ⟨request, rfl, hidle⟩
    · rintro rate _ ⟨⟩
      exact hclient (Or.inl ⟨rate, rfl⟩)
    · rintro enabled _ ⟨⟩
      exact hclient (Or.inr ⟨enabled, rfl⟩)
    · exact fun _ htick => by cases htick

/-- A turn that is neither a message nor the tick of a session. -/
theorem Untouched.other {world : World} (h : Untouched world) {event : Event}
    (hmessage : ∀ message env,
      world.stamp event.event ≠ .message message env)
    (htick : ∀ env, world.stamp event.event = .tick env →
      ¬world.connection.streaming) :
    Untouched (SessionIsolation.step world event) :=
  h.of_turn (quiet_turn world.agent (fun _ _ h => absurd h (hmessage _ _))
    (fun _ _ => hmessage _ _) (fun _ _ => hmessage _ _) htick)

theorem Untouched.tick {world : World} (h : Untouched world) {event : Event}
    {env : TickEnv} (hevent : event.event = .tick env) :
    Untouched (SessionIsolation.step world event) := by
  by_cases hstreaming : world.connection.streaming
  · -- The estimate is the session's own, and ends its freshness.
    apply untouched_of_not_fresh
    change world.freshAfter _ event.event = false
    rw [hevent]
    change (world.fresh && !(world.connection.streaming &&
      (estimateBps world.connection env).isSome)) = false
    cases hfresh : world.fresh with
    | false => rfl
    | true =>
        rw [hstreaming, h.estimates hfresh hstreaming env]
        rfl
  · apply h.other
    · rw [hevent]
      exact nofun
    · exact fun _ _ => hstreaming

theorem Untouched.step {world : World} (h : Untouched world) (event : Event) :
    Untouched (step world event) := by
  cases hevent : event.event with
  | message message env => exact h.message hevent
  | tick env => exact h.tick hevent
  | recoveryReady | stamped | received =>
      apply h.other
      · rw [hevent]
        exact nofun
      · rw [hevent]
        exact nofun

/-! ## The feedback join -/

/-- Feedback in a session reaches the driver and the history, or neither. -/
theorem feedback_cases {world : World} {event : Event}
    {batch : PacketFeedback} {env : MessageEnv} {session : ActiveSession}
    (hevent : event.event = .message (.packetFeedback batch) env)
    (hsession : world.connection.active = some session) :
    ((step world event).connection.driver = world.connection.driver ∧
      ∀ later ∈ (step world event).connection.active, later = session) ∨
    ∃ driver last, world.connection.driver = some driver ∧
      batch.samples.getLast? = some last ∧
      (step world event).connection.driver = some (driver.onFeedback
        (takeUpto session.pipeline.sendHistory last.1).1 batch env.nowUs) ∧
      ∀ later ∈ (step world event).connection.active,
        later.pipeline.sendHistory =
          (takeUpto session.pipeline.sendHistory last.1).2 := by
  have hsame : ∀ later ∈ world.connection.active, later = session := by
    rintro later hlater
    exact Option.some.inj (hlater.symm.trans hsession)
  simp only [step, hevent, World.stamp, serve]
  split_ifs
  · exact Or.inl ⟨rfl, hsame⟩
  · simp only [turn, onMessage]
    split_ifs
    · left
      simp only [sendOrEscape, sendMsg]
      split_ifs
      · exact ⟨rfl, hsame⟩
      · refine ⟨rfl, fun later hlater => ?_⟩
        cases hlater
    · simp only [onPacketFeedback, hsession]
      split
      case h_1 _ _ driver maxSeq delta hactive hdriver hlast =>
        obtain rfl := Option.some.inj hactive
        refine Or.inr ⟨driver, (maxSeq, delta), hdriver, hlast, rfl, ?_⟩
        intro later hlater
        simp only [finish, Connection.mapPipeline, hsession] at hlater
        obtain rfl := Option.some.inj hlater
        rfl
      case h_2 => exact Or.inl ⟨rfl, hsame⟩

theorem unmixed_of_separate {world : World} {event : Event}
    (h : Separate world event) : Unmixed world event := by
  intro batch env hevent session hsession
  rcases feedback_cases hevent hsession with ⟨hdriver, hactive⟩ |
    ⟨driver, last, hdriver, hlast, hafter, hhistory⟩
  · have htold : told world event = [] := by
      rw [told, hdriver]
      cases world.connection.driver with
      | none => rfl
      | some driver => exact newReports_self driver.toBweDriver
    refine ⟨?_, ?_⟩
    · rw [htold]
      exact nofun
    · intro _ _ _ later hlater
      rw [hactive later hlater]
  · rw [Separate, hevent] at h
    obtain ⟨hown, hdrain⟩ := h session hsession driver hdriver last hlast
    refine ⟨?_, ?_⟩
    · intro report hreport hreceived
      rw [told, hdriver, hafter] at hreport
      obtain ⟨hrecord, harrival⟩ := (received_newReports_iff _ _ _ _
        report.record).mp ⟨report, hreport, hreceived, rfl⟩
      rw [← isSome_originOf (event.tagged batch env hevent)] at harrival
      obtain ⟨origin, horigin⟩ := Option.isSome_iff_exists.mp harrival
      rw [horigin, hown report.record hrecord origin horigin]
    · intro origin horigin hne later hlater
      rw [hhistory later hlater,
        takeUpto_of_lt (hdrain origin horigin hne)]

/-- In every run, the target of a session started in Auto stays at its opening
rate until the session's own estimator gives an estimate or the client sets the
bitrate or Auto.  And in every run that keeps the sessions' feedback apart, no
sample of an earlier session is joined with the records of a later one, or
drains them. -/
theorem isolated_of_separate (agent : AgentState) (peer : String)
    (mayInteract : Bool) (events : List Event) :
    Along step (fun world event => AtOpening (step world event))
        (start agent peer mayInteract) events ∧
      (Along step Separate (start agent peer mayInteract) events →
        Along step Isolated (start agent peer mayInteract) events) := by
  have hstart : Untouched (start agent peer mayInteract) :=
    untouched_of_not_fresh rfl
  constructor
  · exact along_of_along Untouched (fun _ event h _ => h.step event)
      (fun _ event h _ => (h.step event).target) hstart
      (along_of_forall (fun _ _ => trivial) _)
  · exact along_of_along Untouched (fun _ event h _ => h.step event)
      (fun _ event h hseparate =>
        ⟨(h.step event).target, unmixed_of_separate hseparate⟩) hstart

section Runs

def idleAgent : AgentState := ⟨none, ⟨1920, 1080, 60⟩, 0, []⟩

def quietEnv (nowUs : ℕ) : MessageEnv :=
  ⟨true, nowUs, [.h264], [7], .ready [] ⟨[.h264], .high⟩ false, []⟩

/-- An event without samples. -/
def plain (event : Service.Event)
    (h : ∀ batch env, event ≠ .message (.packetFeedback batch) env) : Event :=
  ⟨event, [], fun batch env heq => absurd heq (h batch env)⟩

def hello : Event :=
  plain (.message (.hello ⟨2, ⟨[.h264], .high⟩⟩) (quietEnv 1000)) nofun

/-- The client asks for an Auto session. -/
def startAuto (nowUs : ℕ) : Event :=
  plain (.message (.startSession ⟨7, none, none, true⟩) (quietEnv nowUs)) nofun

def stop (nowUs : ℕ) : Event :=
  plain (.message .stopSession (quietEnv nowUs)) nofun

def stampAt (sentUs : ℕ) : Event :=
  plain (.stamped ⟨0, sentUs, 1200, false, none⟩) nofun

/-- The estimator has measured a rate. -/
def tickAt (nowUs : ℕ) (rate : ℚ) : Event :=
  plain (.tick ⟨false, 0, 20000, nowUs, ⟨some rate, none, rate, false⟩, none,
    0, true, true⟩) nofun

/-- Feedback about the first datagram of a session. -/
def feedbackFor (session arrivalUs nowUs : ℕ) : Event where
  event := .message (.packetFeedback ⟨arrivalUs, [(0, 0)]⟩) (quietEnv nowUs)
  origins := [session]
  tagged := by
    rintro _ _ ⟨⟩
    rfl

/-- The first session measures 20 Mbit/s and stops; feedback about its only
datagram comes in the second session. -/
def restart : List Event :=
  [hello, startAuto 2000, stampAt 3000, tickAt 250000 20000000, stop 260000,
    startAuto 270000, stampAt 280000, feedbackFor 0 13000 300000]

/-- The second session's first datagram is reported to have arrived when the
first session's did. -/
theorem not_isolated_restart :
    ¬Along step Isolated (start idleAgent "laptop" true) restart := by
  rintro ⟨-, -, -, -, -, -, -, ⟨-, hfeedback⟩, -⟩
  let before := (restart.take 7).foldl step (start idleAgent "laptop" true)
  have htold : ∃ session ∈ before.connection.active, session.id = 1 ∧
      ∃ report ∈ told before (feedbackFor 0 13000 300000),
        report.received.isSome ∧ report.record.serial = 0 := by
    decide +kernel
  obtain ⟨session, hsession, hid, report, hreport, hreceived, hserial⟩ :=
    htold
  have horigin :=
    (hfeedback _ _ rfl session hsession).1 report hreport hreceived
  rw [SendRecord.seq, hserial, hid] at horigin
  revert horigin
  decide

/-- The first session's feedback comes in time, and the second one's in its
own. -/
def orderlyRestart : List Event :=
  [hello, startAuto 2000, stampAt 3000, tickAt 250000 20000000,
    feedbackFor 0 13000 255000, stop 260000, startAuto 270000, stampAt 280000,
    tickAt 500000 9000000, feedbackFor 1 290000 510000]

theorem isolated_orderlyRestart :
    Along step Isolated (start idleAgent "laptop" true) orderlyRestart :=
  (isolated_of_separate idleAgent "laptop" true orderlyRestart).2
    (by decide +kernel)

end Runs

end GameStreamer.SessionIsolation
