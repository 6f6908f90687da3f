import GameStreamer.Session.Estimate

/-!
# The control service of one connection

`serve_inner` drives one client connection until it closes: a loop over the
control messages, the recovery points of the pipeline and a 250 ms tick.  The
loop is left through `break`, after which the active session is stopped and
removed from the agent's registry, or through `?`, which returns at once.

One turn of the loop is one function here.  What a turn meets outside the
service (whether a write to the control stream succeeds, clocks, the encoder
and source factories, the path statistics, what the estimator's floating-point
controllers say) is its argument.  Rates are bits per second.
-/

namespace GameStreamer

def protoVersion : UInt16 := 2
def bitrateMinBps : ℕ := 200000
def bitrateMaxBps : ℕ := 150000000

/-- `Ord::clamp`, which panics unless the bounds are in order. -/
def clamp (value low high : ℕ) : Option ℕ :=
  if low ≤ high then some (max low (min value high)) else none

/-- Clamp to the safety band. -/
def clampBand (value : ℕ) : ℕ := max bitrateMinBps (min value bitrateMaxBps)

/-! ## Shared agent state -/

structure SessionEntry where
  mode : VideoMode
  peer : String
  deriving DecidableEq, Repr

/-- The state that all connections share: the host's settings, the next session
id, and the sessions that status shows. -/
structure AgentState where
  /-- `config.video.bitrate_bps`. -/
  hostCap : Option ℕ
  /-- `config.video.mode`. -/
  configMode : VideoMode
  nextSession : ℕ
  sessions : List (ℕ × SessionEntry)
  deriving DecidableEq, Repr

namespace AgentState

def registerSession (agent : AgentState) (id : ℕ) (entry : SessionEntry) :
    AgentState :=
  { agent with
    sessions := (id, entry) ::
      agent.sessions.filter fun other => decide (other.1 ≠ id) }

def removeSession (agent : AgentState) (id : ℕ) : AgentState :=
  { agent with
    sessions := agent.sessions.filter fun other => decide (other.1 ≠ id) }

/-- The ids that status and session summaries show. -/
def registered (agent : AgentState) : List ℕ := agent.sessions.map Prod.fst

end AgentState

/-! ## Sessions -/

/-- The handle of a streaming pipeline, as far as the service drives it. -/
structure Pipeline where
  mode : VideoMode
  codec : Codec
  h264Profile : H264Profile
  bitrate : ℕ
  fecPermille : ℕ
  linkRate : ℕ
  pathClean : Bool
  forceIdr : Bool
  recoveryRequest : ℕ
  retransmits : List (List UInt32)
  sendHistory : List SendRecord
  deriving DecidableEq, Repr

/-- The session of a connection, with the handle of its pipeline.  A connection
has one at most. -/
structure ActiveSession where
  id : ℕ
  pipeline : Pipeline
  /-- Whether an OS input injector is there. -/
  injector : Bool
  deriving DecidableEq, Repr

structure StartedSession where
  session : ActiveSession
  mode : VideoMode
  /-- The rate the encoder opened at. -/
  bitrate : ℕ
  /-- The cap ABR ramps toward. -/
  ceiling : ℕ
  codec : Codec
  deriving DecidableEq, Repr

def abrStartBps : ℕ := 8000000
def fecFloorPermille : ℕ := 60
def fecCapPermille : ℕ := 250

/-- A session's opening bitrate and ABR ceiling, from the client's request
and the agent's configured bitrate. -/
def resolveBitrates (requested : Option ℕ) (abr : Bool)
    (hostCap : Option ℕ) : ℕ × ℕ :=
  let host := (hostCap.map clampBand).getD bitrateMaxBps
  if abr then
    let ceiling := (requested.map fun rate => min (clampBand rate) host).getD
      host
    (min abrStartBps ceiling, ceiling)
  else
    let rate := (requested.map clampBand).getD host
    (rate, rate)

/-- The encoder's most-preferred codec that the client can also decode,
falling back to H.264. -/
def negotiateCodec (clientDecodes encoderEmits : List Codec) : Codec :=
  (encoderEmits.find? fun codec => clientDecodes.contains codec).getD .h264

/-- What a session start meets: the source, the encoder and the pipeline, any
of which may fail with an error message. -/
inductive StartEnv where
  | failed (message : String)
  | ready (modes : List VideoMode) (encoderCaps : DecodeCaps)
      (injector : Bool)
  deriving DecidableEq, Repr

/-- `pipeline::start`. -/
def openPipeline (mode : VideoMode) (codec : Codec)
    (h264Profile : H264Profile) (bitrate : ℕ) : Pipeline where
  mode := mode
  codec := codec
  h264Profile := h264Profile
  bitrate := bitrate
  fecPermille := fecFloorPermille
  linkRate := 0
  pathClean := true
  forceIdr := false
  recoveryRequest := 0
  retransmits := []
  sendHistory := []

def startSession (agent : AgentState) (peer : String)
    (request : SessionRequest) (client : DecodeCaps) (env : StartEnv) :
    AgentState × Except String StartedSession :=
  match env with
  | .failed message => (agent, .error message)
  | .ready modes encoderCaps injector =>
      let codec := negotiateCodec client.codecs encoderCaps.codecs
      let h264Profile := encoderCaps.maxH264Profile.min client.maxH264Profile
      let mode := (request.mode.or modes.head?).getD agent.configMode
      let (bitrate, ceiling) := resolveBitrates
        (request.bitrateBps.map UInt32.toNat) request.abr agent.hostCap
      let id := agent.nextSession
      let agent := { agent with nextSession := agent.nextSession + 1 }
      (agent.registerSession id ⟨mode, peer⟩,
        .ok
          { session :=
              { id := id
                pipeline := openPipeline mode codec h264Profile bitrate
                injector := injector }
            mode := mode
            bitrate := bitrate
            ceiling := ceiling
            codec := codec })

/-! ## The connection -/

/-- How `serve_inner` ended. -/
inductive Exit where
  | ok
  | sendFailed
  | recvFailed
  | unsupportedVersion (proto : UInt16)
  /-- A clamp panicked; the task is gone without a return. -/
  | panicked
  deriving DecidableEq, Repr

/-- The locals of `serve_inner`, which live as long as the connection.  Some
are set anew at each session start and some are carried over.  What was written
and registered is recorded. -/
structure Connection where
  peer : String
  /-- The peer's scope reaches `Interact`. -/
  mayInteract : Bool
  active : Option ActiveSession
  driver : Option SessionDriver
  sessionCeiling : ℕ
  lastEstimateBps : ℕ
  abrEnabled : Bool
  fecPermille : ℕ
  helloed : Bool
  /-- What the client can decode, from its `Hello`. -/
  decodeCaps : DecodeCaps
  tickCount : ℕ
  minRttUs : ℕ
  uncleanUntilUs : ℕ
  /-- Everything that was written to the control stream, oldest first. -/
  outbox : List A2C
  /-- Every session this connection registered, newest first. -/
  registered : List ℕ
  exit : Option Exit
  deriving DecidableEq, Repr

def Connection.accepted (peer : String) (mayInteract : Bool) :
    Connection where
  peer := peer
  mayInteract := mayInteract
  active := none
  driver := none
  sessionCeiling := bitrateMaxBps
  lastEstimateBps := 0
  abrEnabled := false
  fecPermille := fecFloorPermille
  helloed := false
  decodeCaps := ⟨[.h264], .constrainedBaseline⟩
  tickCount := 0
  minRttUs := 2 ^ 64 - 1
  uncleanUntilUs := 0
  outbox := []
  registered := []
  exit := none

/-- Change the pipeline of the active session. -/
def Connection.mapPipeline (connection : Connection)
    (change : Pipeline → Pipeline) : Connection :=
  { connection with
    active := connection.active.map fun session =>
      { session with pipeline := change session.pipeline } }

/-- The id of the active session. -/
def Connection.sessionId (connection : Connection) : Option ℕ :=
  connection.active.map ActiveSession.id

/-- A session and its driver are both there. -/
def Connection.streaming (connection : Connection) : Bool :=
  connection.active.isSome && connection.driver.isSome

/-- How one turn of the loop goes on. -/
inductive Flow where
  | next
  /-- `break`: the active session is cleaned up. -/
  | leave (exit : Exit)
  /-- `?`, or a panic: nothing more is done. -/
  | escape (exit : Exit)
  deriving DecidableEq, Repr

/-- What one branch of the loop leaves behind, and whether the loop goes on,
breaks or returns through `?`. -/
structure Turn where
  agent : AgentState
  connection : Connection
  flow : Flow
  deriving DecidableEq, Repr

namespace Service

/-- Write one message; the outcome of a failure is `failed`. -/
def sendMsg (agent : AgentState) (connection : Connection) (message : A2C)
    (sent : Bool) (failed : Flow) : Turn :=
  if sent then
    ⟨agent, { connection with outbox := connection.outbox ++ [message] }, .next⟩
  else ⟨agent, connection, failed⟩

/-- `send_msg(..).await?`. -/
def sendOrEscape (agent : AgentState) (connection : Connection)
    (message : A2C) (sent : Bool) : Turn :=
  sendMsg agent connection message sent (.escape .sendFailed)

/-- A send whose failure breaks out of the loop. -/
def sendOrLeave (agent : AgentState) (connection : Connection)
    (message : A2C) (sent : Bool) : Turn :=
  sendMsg agent connection message sent (.leave .sendFailed)

/-- What one message meets. -/
structure MessageEnv where
  /-- The write of the reply succeeds. -/
  sent : Bool
  nowUs : ℕ
  encodeCodecs : List Codec
  sources : List ℕ
  start : StartEnv
  /-- What the injector reports, with the success of each notification. -/
  injected : List (Notification × Bool)
  deriving DecidableEq, Repr

/-- The notifications of one input batch; the first that cannot be written
ends the connection. -/
def notify (agent : AgentState) (connection : Connection) :
    List (Notification × Bool) → Turn
  | [] => ⟨agent, connection, .next⟩
  | (notification, sent) :: rest =>
      let turn := sendOrEscape agent connection (.notification notification)
        sent
      match turn.flow with
      | .next => notify turn.agent turn.connection rest
      | _ => turn

def onHello (agent : AgentState) (connection : Connection) (hello : Hello)
    (env : MessageEnv) : Turn :=
  if hello.proto ≠ protoVersion then
    let turn := sendOrEscape agent connection
      (.error ("protocol " ++ toString hello.proto ++
        " unsupported (agent speaks " ++ toString protoVersion ++ ")"))
      env.sent
    match turn.flow with
    | .next => { turn with flow := .leave (.unsupportedVersion hello.proto) }
    | _ => turn
  else
    sendOrEscape agent
      { connection with
        helloed := true
        decodeCaps := hello.decodeCaps }
      (.helloAck protoVersion env.encodeCodecs) env.sent

def onStartSession (agent : AgentState) (connection : Connection)
    (request : SessionRequest) (env : MessageEnv) : Turn :=
  match connection.active with
  | some _ =>
      sendOrEscape agent connection (.error "session already active") env.sent
  | none =>
      match startSession agent connection.peer request connection.decodeCaps
          env.start with
      | (agent, .error message) =>
          sendOrEscape agent connection (.error message) env.sent
      | (agent, .ok started) =>
          sendOrEscape agent
            { connection with
              sessionCeiling := started.ceiling
              driver := some (.new started.bitrate env.nowUs)
              abrEnabled := request.abr
              active := some started.session
              registered := started.session.id :: connection.registered }
            (.sessionStarted
              { session := started.session.id
                codec := started.codec
                mode := started.mode
                bitrateBps := started.bitrate }) env.sent

def onStopSession (agent : AgentState) (connection : Connection) : Turn :=
  let stopped := { connection with active := none, driver := none }
  match connection.active with
  | some session => ⟨agent.removeSession session.id, stopped, .next⟩
  | none => ⟨agent, stopped, .next⟩

def onPacketFeedback (agent : AgentState) (connection : Connection)
    (feedback : PacketFeedback) (nowUs : ℕ) : Turn :=
  match connection.active, connection.driver, feedback.samples.getLast? with
  | some session, some driver, some (maxSeq, _) =>
      let (sent, left) := SendHistory.takeUpto session.pipeline.sendHistory
        maxSeq
      ⟨agent,
        { connection.mapPipeline fun pipeline =>
            { pipeline with sendHistory := left } with
          driver := some (driver.onFeedback sent feedback nowUs) }, .next⟩
  | _, _, _ => ⟨agent, connection, .next⟩

def onSetBitrate (agent : AgentState) (connection : Connection)
    (bitrateBps : ℕ) : Turn :=
  if connection.active.isSome then
    let clamped := clampBand bitrateBps
    ⟨agent,
      { connection.mapPipeline fun pipeline =>
          { pipeline with bitrate := clamped } with
        sessionCeiling := clamped }, .next⟩
  else ⟨agent, connection, .next⟩

/-- The rate that a session is pinned at when ABR is switched off. -/
def pinnedBitrate (connection : Connection) : Option ℕ :=
  if 0 < connection.lastEstimateBps then
    clamp (connection.lastEstimateBps * 90 / 100) bitrateMinBps
      connection.sessionCeiling
  else some connection.sessionCeiling

def onSetAbr (agent : AgentState) (connection : Connection)
    (enabled : Bool) : Turn :=
  let toggled := { connection with abrEnabled := enabled }
  if connection.active.isSome && !enabled then
    match pinnedBitrate toggled with
    | none => ⟨agent, toggled, .escape .panicked⟩
    | some pinned =>
        ⟨agent, toggled.mapPipeline fun pipeline =>
          { pipeline with bitrate := pinned }, .next⟩
  else ⟨agent, toggled, .next⟩

def onInputBatch (agent : AgentState) (connection : Connection)
    (env : MessageEnv) : Turn :=
  if connection.mayInteract &&
      connection.active.any fun session => session.injector then
    notify agent connection env.injected
  else ⟨agent, connection, .next⟩

/-- The arms of `match msg`. -/
def onMessage (agent : AgentState) (connection : Connection) (message : C2A)
    (env : MessageEnv) : Turn :=
  match message with
  | .hello hello => onHello agent connection hello env
  | message =>
      if !connection.helloed then
        sendOrEscape agent connection (.error "hello first") env.sent
      else
        match message with
        | .listSources =>
            sendOrEscape agent connection (.sources env.sources) env.sent
        | .startSession request => onStartSession agent connection request env
        | .stopSession => onStopSession agent connection
        | .ping clientTsUs =>
            sendOrEscape agent connection (.pong clientTsUs env.nowUs) env.sent
        | .packetFeedback feedback =>
            onPacketFeedback agent connection feedback env.nowUs
        | .requestKeyframe =>
            ⟨agent, connection.mapPipeline fun pipeline =>
              { pipeline with forceIdr := true }, .next⟩
        | .nack seqs =>
            ⟨agent, connection.mapPipeline fun pipeline =>
              { pipeline with
                retransmits := pipeline.retransmits ++ [seqs] }, .next⟩
        | .requestRecovery lastGoodFrameId =>
            ⟨agent, connection.mapPipeline fun pipeline =>
              { pipeline with
                recoveryRequest := lastGoodFrameId.toNat + 1 }, .next⟩
        | .setBitrate bitrateBps =>
            onSetBitrate agent connection bitrateBps.toNat
        | .setAbr enabled => onSetAbr agent connection enabled
        | .inputBatch _ => onInputBatch agent connection env
        | _ => ⟨agent, connection, .next⟩

/-! ## The tick -/

/-- What a tick meets: the measurements of the path, what the estimator's
controllers say, and the outcomes of its two writes. -/
structure TickEnv where
  /-- The ratio of lost to sent packets is positive. -/
  lossSeen : Bool
  /-- That ratio in permille, truncated to 32 bits. -/
  lossPermille : UInt32
  rttUs : ℕ
  nowUs : ℕ
  /-- What the estimator's controllers say. -/
  estimates : EstimateInputs
  /-- What `take_recovery_point` returns. -/
  recoveryPoint : Option UInt32
  emittedBitrateBps : ℕ
  pointSent : Bool
  statsSent : Bool
  deriving DecidableEq, Repr

/-- Any loss, or an rtt well above the observed floor, parks the pacer's burst
mode for two seconds. -/
def trackPath (connection : Connection) (env : TickEnv) : Connection :=
  if connection.active.isSome then
    let floor := max (min connection.minRttUs env.rttUs) 1
    let minRttUs := floor + floor / 512
    let uncleanUntilUs :=
      if env.lossSeen || decide (minRttUs * 3 / 2 + 10000 < env.rttUs)
      then env.nowUs + 2000000 else connection.uncleanUntilUs
    { connection.mapPipeline fun pipeline =>
        { pipeline with pathClean := decide (uncleanUntilUs ≤ env.nowUs) } with
      minRttUs := minRttUs
      uncleanUntilUs := uncleanUntilUs }
  else connection

/-- `u32::saturating_mul`. -/
def saturatingMul (left right : ℕ) : ℕ := min (left * right) (2 ^ 32 - 1)

/-- Parity tracks the observed loss, decays slowly after bursts, and stays
within its bounds. -/
def adaptFec (fecPermille lossPermille : ℕ) : ℕ :=
  max fecFloorPermille (min
    (max (fecPermille * 9 / 10) (saturatingMul lossPermille 4)) fecCapPermille)

/-- 90% of the measured rate, minus what parity will add on the wire. -/
def abrTarget (estimateBps fecPermille : ℕ) : ℕ :=
  estimateBps * 90 / 100 * 1000 / (1000 + fecPermille) % 2 ^ 32

/-- Drive the estimator and poll it, where there is one. -/
def polled (connection : Connection) (env : TickEnv) :
    Option (Option ℕ × SessionDriver) :=
  connection.driver.map fun driver =>
    (driver.onTick env.nowUs env.estimates).estimateBps env.estimates

/-- The smoothed estimate that this tick's poll emits. -/
def estimateBps (connection : Connection) (env : TickEnv) : Option ℕ :=
  (polled connection env).bind Prod.fst

/-- Note the latest estimate and adapt the parity. -/
def measure (connection : Connection) (env : TickEnv) : Connection :=
  let lastEstimateBps := ((estimateBps connection env).map fun estimate =>
    min estimate (2 ^ 32 - 1)).getD connection.lastEstimateBps
  let fecPermille := adaptFec connection.fecPermille env.lossPermille.toNat
  { connection.mapPipeline fun pipeline =>
      { pipeline with
        fecPermille := fecPermille
        linkRate := lastEstimateBps } with
    driver := (polled connection env).map Prod.snd
    lastEstimateBps := lastEstimateBps
    fecPermille := fecPermille }

/-- In Auto the estimate drives the target; nothing where the clamp
panics. -/
def steer (connection : Connection) : Option Connection :=
  if connection.abrEnabled && 0 < connection.lastEstimateBps then
    (clamp (abrTarget connection.lastEstimateBps connection.fecPermille)
      bitrateMinBps connection.sessionCeiling).map fun target =>
        connection.mapPipeline fun pipeline =>
          { pipeline with bitrate := target }
  else some connection

/-- Encoder telemetry, about once a second. -/
def sendStats (agent : AgentState) (connection : Connection) (env : TickEnv) :
    Turn :=
  match connection.active with
  | some session =>
      if connection.tickCount % 4 = 0 then
        sendOrLeave agent connection
          (.encodeStats
            { targetBitrateBps := session.pipeline.bitrate
              emittedBitrateBps := env.emittedBitrateBps
              ceilingBitrateBps := connection.sessionCeiling
              estimateBitrateBps := connection.lastEstimateBps
              abrEnabled := connection.abrEnabled }) env.statsSent
      else ⟨agent, connection, .next⟩
  | none => ⟨agent, connection, .next⟩

/-- Announce a recovery point, if there is one. -/
def announce (agent : AgentState) (connection : Connection)
    (point : Option UInt32) (sent : Bool) : Turn :=
  match point with
  | some firstSafe =>
      sendOrLeave agent connection (.recoveryPoint firstSafe) sent
  | none => ⟨agent, connection, .next⟩

def onTick (agent : AgentState) (connection : Connection) (env : TickEnv) :
    Turn :=
  let ticked := trackPath
    { connection with tickCount := connection.tickCount + 1 } env
  let driven := if ticked.streaming then steer (measure ticked env)
    else some ticked
  match driven with
  | none => ⟨agent, ticked, .escape .panicked⟩
  | some driven =>
      let announced := announce agent driven
        (if ticked.streaming then env.recoveryPoint else none) env.pointSent
      match announced.flow with
      | .next => sendStats announced.agent announced.connection env
      | _ => announced

/-- The pipeline signals that a recovery point is ready. -/
def onRecoveryReady (agent : AgentState) (connection : Connection)
    (point : Option UInt32) (sent : Bool) : Turn :=
  announce agent connection (if connection.active.isSome then point else none)
    sent

/-! ## One turn of the loop -/

inductive Event where
  | message (message : C2A) (env : MessageEnv)
  | tick (env : TickEnv)
  | recoveryReady (point : Option UInt32) (sent : Bool)
  /-- The sender task records a datagram. -/
  | stamped (record : SendRecord)
  /-- The control stream ended, or reading from it failed while the
  connection was (`closed`) or was not being closed. -/
  | received (failed closed : Bool)
  deriving DecidableEq, Repr

/-- One turn of the `select!` loop of `serve_inner`: a message, a tick, a
recovery point, a datagram of the sender task, or the end of the stream. -/
def turn (agent : AgentState) (connection : Connection) : Event → Turn
  | .message message env => onMessage agent connection message env
  | .tick env => onTick agent connection env
  | .recoveryReady point sent => onRecoveryReady agent connection point sent
  | .stamped record =>
      ⟨agent, connection.mapPipeline fun pipeline =>
        { pipeline with
          sendHistory := SendHistory.push pipeline.sendHistory record }, .next⟩
  | .received failed closed =>
      ⟨agent, connection,
        .leave (if failed && !closed then .recvFailed else .ok)⟩

/-- What follows the loop: after `break` the active session is stopped and
removed; a return through `?` only drops it. -/
def finish (turn : Turn) : AgentState × Connection :=
  match turn.flow with
  | .next => (turn.agent, turn.connection)
  | .leave exit =>
      let left := { turn.connection with active := none, exit := some exit }
      match turn.connection.active with
      | some session => (turn.agent.removeSession session.id, left)
      | none => (turn.agent, left)
  | .escape exit =>
      (turn.agent, { turn.connection with active := none, exit := some exit })

/-- One turn of a connection that has not returned, with its clean-up when the
turn ends the loop.  After that the connection stays as it is. -/
def serve (agent : AgentState) (connection : Connection) (event : Event) :
    AgentState × Connection :=
  if connection.exit.isSome then (agent, connection)
  else finish (turn agent connection event)

end Service

end GameStreamer
