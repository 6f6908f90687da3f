import GameStreamer.Client.ClockSync
import GameStreamer.Client.Reassembly
import GameStreamer.Protocol.Control
import Mathlib.Data.List.Sort

/-!
# The client's loss-recovery gate

`Client::gate` decides for every reassembled frame whether the decoder gets
it.  After a break in the reference chain the gate freezes: it skips P frames
and asks the agent for recovery until an IDR, or an agent-announced recovery
point, resynchronises the decoder.  A delivered frame may be held back for a
few milliseconds by the de-jitter buffer before it is handed over.

Each function of the source that reads a clock or writes to the network takes
what it would read or meet there as an argument.
-/

namespace GameStreamer

/-- A completed frame with its true arrival time. -/
structure ArrivedFrame where
  frame : CompletedFrame
  arrivalUs : ℕ
  deriving DecidableEq, Repr

/-- Where the client's control messages go: to the background writer, to the
control stream itself, or nowhere once the stream was moved and its writer
handle is gone. -/
inductive ControlPath where
  | writer
  | stream
  | detached
  deriving DecidableEq, Repr

/-- The part of the client that the gate and the de-jitter buffer use.  The
flags are shared with the embedder and the control reader, which set them
between two frames. -/
structure Client where
  control : ControlPath
  clockSync : ClockSync
  /-- Last frame that passed the gate or was skipped by it. -/
  lastFrameId : Option UInt32
  /-- Last frame delivered for decoding. -/
  lastDeliveredId : Option UInt32
  lastKeyframeRequestUs : ℕ
  /-- The reference chain is broken. -/
  awaitingIdr : Bool
  /-- Agent-announced first safe frame id plus one, 0 for none. -/
  recoveryPoint : ℕ
  /-- Set by the embedder when its decoder rejected a delivered frame. -/
  decodeError : Bool
  dejitter : Bool
  jitterWin : List UInt32
  lastJitterUs : UInt32
  dejitterActive : Bool
  firstGateUs : Option ℕ
  deriving DecidableEq, Repr

namespace Client

/-- The state that `Client::connect` leaves behind. -/
def connected (control : ControlPath) (clockSync : ClockSync) : Client where
  control := control
  clockSync := clockSync
  lastFrameId := none
  lastDeliveredId := none
  lastKeyframeRequestUs := 0
  awaitingIdr := true
  recoveryPoint := 0
  decodeError := false
  dejitter := true
  jitterWin := []
  lastJitterUs := 0
  dejitterActive := false
  firstGateUs := none

/-- The control reader stores a `RecoveryPoint` that the agent announced. -/
def storeRecoveryPoint (client : Client) (firstSafeFrameId : UInt32) :
    Client :=
  { client with recoveryPoint := firstSafeFrameId.toNat + 1 }

/-! ## Asking for recovery -/

/-- What one recovery request meets: the clock, and whether a write to the
control stream succeeds. -/
structure RequestEnv where
  nowUs : ℕ
  written : Bool
  deriving DecidableEq, Repr

/-- The client after a request site, the message that left it if any, and
whether the call returned `Ok`. -/
structure Asked where
  client : Client
  sent : Option C2A
  ok : Bool

/-- With a known frame the agent can clean references instead of sending an
IDR. -/
def keyframeRequest (client : Client) : C2A :=
  match client.lastDeliveredId with
  | some lastGoodFrameId => .requestRecovery lastGoodFrameId
  | none => .requestKeyframe

def sendKeyframeRequest (client : Client) (written : Bool) : Asked :=
  match client.control with
  | .writer => ⟨client, some client.keyframeRequest, true⟩
  | .stream =>
      if written then ⟨client, some client.keyframeRequest, true⟩
      else ⟨client, none, false⟩
  | .detached => ⟨client, none, true⟩

def minRequestIntervalUs : ℕ := 250000

/-- Request a healing keyframe, rate-limited. -/
def requestKeyframeThrottled (client : Client) (env : RequestEnv) : Asked :=
  if env.nowUs - client.lastKeyframeRequestUs < minRequestIntervalUs then
    ⟨client, none, true⟩
  else
    sendKeyframeRequest { client with lastKeyframeRequestUs := env.nowUs }
      env.written

/-! ## De-jitter -/

def jitterWindow : ℕ := 32
def jitterOnUs : UInt32 := 12000
def jitterOffUs : UInt32 := 8000
def dejitterMaxUs : UInt32 := 33000
def warmupUs : ℕ := 2000000

/-- `u32::saturating_add`. -/
def saturatingAdd (left right : UInt32) : UInt32 :=
  UInt32.ofNat (min (left.toNat + right.toNat) (2 ^ 32 - 1))

/-- Record one latency in the bounded window. -/
def recordLatency (client : Client) (latency : Option UInt32) : Client :=
  match latency with
  | none => client
  | some lat =>
      let win := if client.jitterWin.length = jitterWindow then
        client.jitterWin.tail else client.jitterWin
      { client with jitterWin := win ++ [lat] }

/-- The 10th and 90th percentile of the latency window. -/
def percentiles (win : List UInt32) : UInt32 × UInt32 :=
  let lat := win.insertionSort (· ≤ ·)
  (lat.getD (lat.length / 10) 0, lat.getD (lat.length * 9 / 10) 0)

/-- Hold an early frame to the capture-anchored latency target.  The result
is the client and the wait in µs, `none` where the source returns without
sleeping. -/
def dejitterRelease (client : Client) (nowUs : ℕ) (captureTsUs : UInt32)
    (arrivalUs : ℕ) (backlog : Bool) : Client × Option ℕ :=
  let client := { client with
    firstGateUs := some (client.firstGateUs.getD nowUs) }
  let client := client.recordLatency
    (client.clockSync.frameLatencyUs arrivalUs captureTsUs)
  if client.jitterWin.length < jitterWindow / 2 then (client, none)
  else
    let (p10, p90) := percentiles client.jitterWin
    let jitter := p90 - p10
    let client := { client with lastJitterUs := jitter }
    if backlog || !client.dejitter then (client, none)
    else if nowUs - client.firstGateUs.getD nowUs < warmupUs then
      (client, none)
    else
      let high := if client.dejitterActive then decide (jitterOffUs ≤ jitter)
        else decide (jitterOnUs ≤ jitter)
      let client := { client with dejitterActive := high }
      if !high then (client, none)
      else
        match client.clockSync.frameLatencyUs nowUs captureTsUs with
        | none => (client, none)
        | some latNow =>
            let target := min p90 (saturatingAdd p10 dejitterMaxUs)
            if latNow < target then
              (client, some (min (target - latNow) dejitterMaxUs).toNat)
            else (client, none)

/-! ## The gate -/

/-- A frame whose id is ahead of the last one by more than one step; an id
that is not ahead at all is only logged. -/
def gapBefore (client : Client) (frameId : UInt32) : Bool :=
  match client.lastFrameId with
  | none => false
  | some last =>
      let delta := frameId - last
      !(delta = 0 || halfRange < delta) && delta ≠ 1

/-- The stored recovery point is at or before the frame. -/
def recoveryCovers (client : Client) (frameId : UInt32) : Bool :=
  0 < client.recoveryPoint &&
    frameId - UInt32.ofNat (client.recoveryPoint - 1) < halfRange

/-- What one pass through the gate meets: the two places where it may ask for
recovery, and the clock that the de-jitter buffer reads. -/
structure GateEnv where
  breakRequest : RequestEnv
  skipRequest : RequestEnv
  dejitterNowUs : ℕ
  deriving DecidableEq, Repr

inductive GateOutcome where
  /-- A recovery request could not be written; the error reaches the caller. -/
  | failed
  /-- The frame was skipped while frozen. -/
  | skipped
  /-- The frame is handed over, after `wait` µs if the buffer holds it. -/
  | delivered (header : VideoDatagramHeader) (data : Bytes) (wait : Option ℕ)
  deriving DecidableEq, Repr

/-- What one call of the gate leaves behind: the client, the messages it sent,
and what became of the frame. -/
structure Gated where
  client : Client
  sent : List C2A
  outcome : GateOutcome

/-- The synthetic header that the gate hands over with a frame. -/
def deliveredHeader (frame : CompletedFrame) : VideoDatagramHeader where
  seq := 0
  sessionEpoch := 0
  frameId := frame.frameId
  kind := frame.kind
  chunkIndex := 0
  chunkCount := 1
  parityCount := 0
  frameLen := 0
  captureTsUs := frame.captureTsUs

/-- Freeze and ask for recovery. -/
def freeze (client : Client) (env : RequestEnv) : Asked :=
  requestKeyframeThrottled { client with awaitingIdr := true } env

/-- The head of the gate: consume the embedder's decode-error flag.  A rejected
frame breaks the reference chain, so the gate freezes and asks for recovery. -/
def takeDecodeError (client : Client) (env : RequestEnv) : Asked :=
  let unflagged := { client with decodeError := false }
  if client.decodeError && !client.awaitingIdr then unflagged.freeze env
  else ⟨unflagged, none, true⟩

/-- The middle of the gate: an IDR thaws it, a gap before a P frame freezes it.
A gate that is frozen already does not ask again here. -/
def noteFrame (client : Client) (frame : CompletedFrame)
    (env : RequestEnv) : Asked :=
  if frame.kind = .idr then ⟨{ client with awaitingIdr := false }, none, true⟩
  else if client.gapBefore frame.frameId && !client.awaitingIdr then
    client.freeze env
  else ⟨client, none, true⟩

/-- Hand the frame over.  It becomes the last one delivered, and the de-jitter
buffer says how long it waits. -/
def deliver (client : Client) (arrived : ArrivedFrame) (backlog : Bool)
    (nowUs : ℕ) (sent : List C2A) : Gated :=
  let frame := arrived.frame
  let noted := { client with
    lastFrameId := some frame.frameId
    lastDeliveredId := some frame.frameId }
  let (held, wait) := noted.dejitterRelease nowUs frame.captureTsUs
    arrived.arrivalUs backlog
  ⟨held, sent, .delivered (deliveredHeader frame) frame.data wait⟩

/-- The tail of the gate: skip while frozen, otherwise deliver. -/
def releaseOrSkip (client : Client) (arrived : ArrivedFrame) (backlog : Bool)
    (env : GateEnv) (sent : List C2A) : Gated :=
  let frame := arrived.frame
  if client.awaitingIdr && frame.kind ≠ .idr then
    if client.recoveryCovers frame.frameId then
      deliver { client with awaitingIdr := false } arrived backlog
        env.dejitterNowUs sent
    else
      let asked := requestKeyframeThrottled
        { client with lastFrameId := some frame.frameId } env.skipRequest
      ⟨asked.client, sent ++ asked.sent.toList,
        if asked.ok then .skipped else .failed⟩
  else deliver client arrived backlog env.dejitterNowUs sent

/-- `Client::gate`.  At most one of the two early request sites is reached, so
they share one environment. -/
def gate (client : Client) (arrived : ArrivedFrame) (backlog : Bool)
    (env : GateEnv) : Gated :=
  let flagged := client.takeDecodeError env.breakRequest
  if !flagged.ok then ⟨flagged.client, flagged.sent.toList, .failed⟩
  else
    let noted := flagged.client.noteFrame arrived.frame env.breakRequest
    let sent := flagged.sent.toList ++ noted.sent.toList
    if !noted.ok then ⟨noted.client, sent, .failed⟩
    else noted.client.releaseOrSkip arrived backlog env sent

/-- The `Err` arm of `recv_frame`: the decoder rejected the frame that the
gate has just handed over. -/
def decodeFailed (client : Client) (env : RequestEnv) : Asked :=
  client.freeze env

/-! ## What the parts of the gate change -/

/-- The write of this request fails; the throttle lets it through and the
client still owns the control stream. -/
def requestFails (client : Client) (env : RequestEnv) : Bool :=
  client.control = .stream && !env.written &&
    minRequestIntervalUs ≤ env.nowUs - client.lastKeyframeRequestUs

theorem requestKeyframeThrottled_client (client : Client)
    (env : RequestEnv) :
    ∃ time, (client.requestKeyframeThrottled env).client =
      { client with lastKeyframeRequestUs := time } := by
  rw [requestKeyframeThrottled, sendKeyframeRequest]
  split
  · exact ⟨client.lastKeyframeRequestUs, rfl⟩
  · refine ⟨env.nowUs, ?_⟩
    split
    · rfl
    · split <;> rfl
    · rfl

theorem requestKeyframeThrottled_ok (client : Client) (env : RequestEnv) :
    (client.requestKeyframeThrottled env).ok = !client.requestFails env := by
  rw [requestKeyframeThrottled, sendKeyframeRequest, requestFails]
  split
  · simp; omega
  · cases hcontrol : client.control <;> cases hwritten : env.written <;>
      simp
    omega

theorem recordLatency_client (client : Client) (latency : Option UInt32) :
    ∃ win, client.recordLatency latency =
      { client with jitterWin := win } := by
  simp only [recordLatency]
  split
  · exact ⟨client.jitterWin, rfl⟩
  · exact ⟨_, rfl⟩

/-- The de-jitter buffer touches only its own four fields. -/
theorem dejitterRelease_client (client : Client) (nowUs : ℕ)
    (captureTsUs : UInt32) (arrivalUs : ℕ) (backlog : Bool) :
    ∃ first win jitter active,
      (client.dejitterRelease nowUs captureTsUs arrivalUs backlog).1 =
        { client with
          firstGateUs := first
          jitterWin := win
          lastJitterUs := jitter
          dejitterActive := active } := by
  obtain ⟨win, hwin⟩ := recordLatency_client
    { client with firstGateUs := some (client.firstGateUs.getD nowUs) }
    (client.clockSync.frameLatencyUs arrivalUs captureTsUs)
  rw [dejitterRelease]
  simp only [hwin]
  split_ifs
  all_goals first
    | exact ⟨_, _, _, _, rfl⟩
    | (split
       · exact ⟨_, _, _, _, rfl⟩
       · split_ifs <;> exact ⟨_, _, _, _, rfl⟩)

/-- A P frame meets a gate that is frozen, or that freezes on this very
frame. -/
def frozenFor (client : Client) (frame : CompletedFrame) : Bool :=
  client.awaitingIdr || client.decodeError || client.gapBefore frame.frameId

theorem takeDecodeError_client (client : Client) (env : RequestEnv) :
    ∃ time, (client.takeDecodeError env).client =
      { client with
        decodeError := false
        awaitingIdr := client.awaitingIdr || client.decodeError
        lastKeyframeRequestUs := time } := by
  rw [takeDecodeError, freeze]
  cases hawaiting : client.awaitingIdr <;>
    cases herror : client.decodeError
  · exact ⟨client.lastKeyframeRequestUs, by simp⟩
  · obtain ⟨time, htime⟩ := requestKeyframeThrottled_client
      { client with decodeError := false, awaitingIdr := true } env
    exact ⟨time, by simpa using htime⟩
  · exact ⟨client.lastKeyframeRequestUs, by simp⟩
  · exact ⟨client.lastKeyframeRequestUs, by simp⟩

theorem takeDecodeError_ok (client : Client) (env : RequestEnv) :
    (client.takeDecodeError env).ok =
      !(client.decodeError && !client.awaitingIdr &&
        client.requestFails env) := by
  have hfails : ({ client with
      decodeError := false, awaitingIdr := true } : Client).requestFails env =
        client.requestFails env := rfl
  rw [takeDecodeError, freeze]
  cases hawaiting : client.awaitingIdr <;>
    cases herror : client.decodeError
  · rfl
  · exact (requestKeyframeThrottled_ok _ env).trans (congrArg _ hfails)
  · rfl
  · rfl

theorem noteFrame_idr (client : Client) {frame : CompletedFrame}
    (hkind : frame.kind = .idr) (env : RequestEnv) :
    client.noteFrame frame env =
      ⟨{ client with awaitingIdr := false }, none, true⟩ := by
  simp [noteFrame, hkind]

theorem noteFrame_client (client : Client) {frame : CompletedFrame}
    (hkind : frame.kind ≠ .idr) (env : RequestEnv) :
    ∃ time, (client.noteFrame frame env).client =
      { client with
        awaitingIdr := client.awaitingIdr || client.gapBefore frame.frameId
        lastKeyframeRequestUs := time } := by
  rw [noteFrame, freeze]
  rw [if_neg hkind]
  cases hawaiting : client.awaitingIdr <;>
    cases hgap : client.gapBefore frame.frameId
  · exact ⟨client.lastKeyframeRequestUs, by cases client; cases hawaiting; rfl⟩
  · obtain ⟨time, htime⟩ := requestKeyframeThrottled_client
      { client with awaitingIdr := true } env
    exact ⟨time, by simpa using htime⟩
  · exact ⟨client.lastKeyframeRequestUs, by cases client; cases hawaiting; rfl⟩
  · exact ⟨client.lastKeyframeRequestUs, by cases client; cases hawaiting; rfl⟩

theorem noteFrame_ok (client : Client) {frame : CompletedFrame}
    (hkind : frame.kind ≠ .idr) (env : RequestEnv) :
    (client.noteFrame frame env).ok =
      !(client.gapBefore frame.frameId && !client.awaitingIdr &&
        client.requestFails env) := by
  have hfails : ({ client with awaitingIdr := true } : Client).requestFails
      env = client.requestFails env := rfl
  rw [noteFrame, freeze, if_neg hkind]
  cases hawaiting : client.awaitingIdr <;>
    cases hgap : client.gapBefore frame.frameId
  · rfl
  · exact (requestKeyframeThrottled_ok _ env).trans (congrArg _ hfails)
  · rfl
  · rfl

/-- The client after `frame` was handed over, and why the gate let it. -/
structure HandedOver (client : Client) (frame : CompletedFrame)
    (env : RequestEnv) (after : Client) : Prop where
  awaitingIdr : after.awaitingIdr = false
  decodeError : after.decodeError = false
  lastFrameId : after.lastFrameId = some frame.frameId
  lastDeliveredId : after.lastDeliveredId = some frame.frameId
  recoveryPoint : after.recoveryPoint = client.recoveryPoint
  admitted : frame.kind = .idr ∨ client.frozenFor frame = false ∨
    (client.recoveryCovers frame.frameId = true ∧
      (client.awaitingIdr = true ∨ client.requestFails env = false))

/-- The client after `frame` was skipped or its recovery request failed. -/
structure HeldBack (client : Client) (frame : CompletedFrame)
    (env : RequestEnv) (after : Client) : Prop where
  awaitingIdr : after.awaitingIdr = true
  decodeError : after.decodeError = false
  lastDeliveredId : after.lastDeliveredId = client.lastDeliveredId
  recoveryPoint : after.recoveryPoint = client.recoveryPoint
  frozen : client.frozenFor frame = true
  refused : (frame.kind ≠ .idr ∧
      client.recoveryCovers frame.frameId = false) ∨
    (client.awaitingIdr = false ∧ client.requestFails env = true)

theorem handedOver_deliver {client core : Client} {arrived : ArrivedFrame}
    {env : RequestEnv} (backlog : Bool) (nowUs : ℕ) (sent : List C2A)
    (hawaiting : core.awaitingIdr = false)
    (herror : core.decodeError = false)
    (hpoint : core.recoveryPoint = client.recoveryPoint)
    (hadmitted : arrived.frame.kind = .idr ∨
      client.frozenFor arrived.frame = false ∨
      (client.recoveryCovers arrived.frame.frameId = true ∧
        (client.awaitingIdr = true ∨ client.requestFails env = false))) :
    (∃ wait, (core.deliver arrived backlog nowUs sent).outcome =
      .delivered (deliveredHeader arrived.frame) arrived.frame.data wait) ∧
    client.HandedOver arrived.frame env
      (core.deliver arrived backlog nowUs sent).client := by
  obtain ⟨first, win, jitter, active, hheld⟩ := dejitterRelease_client
    { core with
      lastFrameId := some arrived.frame.frameId
      lastDeliveredId := some arrived.frame.frameId }
    nowUs arrived.frame.captureTsUs arrived.arrivalUs backlog
  refine ⟨⟨_, rfl⟩, ?_⟩
  rw [deliver]
  simp only [hheld]
  exact ⟨hawaiting, herror, rfl, rfl, hpoint, hadmitted⟩

theorem releaseOrSkip_open {core : Client} {arrived : ArrivedFrame}
    (backlog : Bool) (env : GateEnv) (sent : List C2A)
    (hopen : core.awaitingIdr = false ∨ arrived.frame.kind = .idr) :
    core.releaseOrSkip arrived backlog env sent =
      core.deliver arrived backlog env.dejitterNowUs sent := by
  rcases hopen with hopen | hopen <;> simp [releaseOrSkip, hopen]

theorem releaseOrSkip_thaw {core : Client} {arrived : ArrivedFrame}
    (backlog : Bool) (env : GateEnv) (sent : List C2A)
    (hfrozen : core.awaitingIdr = true) (hkind : arrived.frame.kind ≠ .idr)
    (hcover : core.recoveryCovers arrived.frame.frameId = true) :
    core.releaseOrSkip arrived backlog env sent =
      { core with awaitingIdr := false }.deliver arrived backlog
        env.dejitterNowUs sent := by
  rw [releaseOrSkip]
  rw [if_pos (by simp [hfrozen, hkind]), if_pos hcover]

theorem releaseOrSkip_skip {core : Client} {arrived : ArrivedFrame}
    (backlog : Bool) (env : GateEnv) (sent : List C2A)
    (hfrozen : core.awaitingIdr = true) (hkind : arrived.frame.kind ≠ .idr)
    (hcover : core.recoveryCovers arrived.frame.frameId = false) :
    core.releaseOrSkip arrived backlog env sent =
      let asked := requestKeyframeThrottled
        { core with lastFrameId := some arrived.frame.frameId }
        env.skipRequest
      ⟨asked.client, sent ++ asked.sent.toList,
        if asked.ok then .skipped else .failed⟩ := by
  rw [releaseOrSkip]
  rw [if_pos (by simp [hfrozen, hkind]), if_neg (by simp [hcover])]

/-- The tail of the gate, for a client that has gone through its head. -/
theorem releaseOrSkip_spec {client core : Client} (arrived : ArrivedFrame)
    (backlog : Bool) (env : GateEnv) (sent : List C2A)
    (herror : core.decodeError = false)
    (hdelivered : core.lastDeliveredId = client.lastDeliveredId)
    (hpoint : core.recoveryPoint = client.recoveryPoint)
    (hawaiting : core.awaitingIdr =
      (client.frozenFor arrived.frame && arrived.frame.kind ≠ .idr))
    (hreached : arrived.frame.kind ≠ .idr →
      client.frozenFor arrived.frame = true →
      client.awaitingIdr = true ∨
        client.requestFails env.breakRequest = false) :
    let gated := core.releaseOrSkip arrived backlog env sent
    (∃ wait, gated.outcome =
        .delivered (deliveredHeader arrived.frame) arrived.frame.data wait) ∧
      client.HandedOver arrived.frame env.breakRequest gated.client ∨
    (gated.outcome = .skipped ∨ gated.outcome = .failed) ∧
      client.HeldBack arrived.frame env.breakRequest gated.client := by
  intro gated
  have hcovers : core.recoveryCovers arrived.frame.frameId =
      client.recoveryCovers arrived.frame.frameId := by
    simp only [recoveryCovers, hpoint]
  by_cases hfrozen : core.awaitingIdr = true
  · have hboth : client.frozenFor arrived.frame = true ∧
        arrived.frame.kind ≠ .idr := by
      simpa [hfrozen] using hawaiting.symm
    cases hcover : client.recoveryCovers arrived.frame.frameId with
    | true =>
        left
        rw [show gated = _ from releaseOrSkip_thaw backlog env sent hfrozen
          hboth.2 (hcovers.trans hcover)]
        exact handedOver_deliver backlog _ sent rfl herror hpoint
          (Or.inr (Or.inr ⟨hcover, hreached hboth.2 hboth.1⟩))
    | false =>
        right
        rw [show gated = _ from releaseOrSkip_skip backlog env sent hfrozen
          hboth.2 (hcovers.trans hcover)]
        obtain ⟨time, htime⟩ := requestKeyframeThrottled_client
          { core with lastFrameId := some arrived.frame.frameId }
          env.skipRequest
        refine ⟨?_, ?_⟩
        · dsimp only
          split
          · exact Or.inl rfl
          · exact Or.inr rfl
        · dsimp only
          rw [htime]
          exact ⟨hfrozen, herror, hdelivered, hpoint, hboth.1,
            Or.inl ⟨hboth.2, hcover⟩⟩
  · left
    have hthawed : core.awaitingIdr = false := by simpa using hfrozen
    rw [show gated = _ from releaseOrSkip_open backlog env sent
      (Or.inl hthawed)]
    refine handedOver_deliver backlog _ sent hthawed herror hpoint ?_
    by_cases hkind : arrived.frame.kind = .idr
    · exact Or.inl hkind
    · refine Or.inr (Or.inl ?_)
      simpa [hthawed, hkind] using hawaiting

theorem takeDecodeError_quiet {client : Client}
    (hquiet : (client.decodeError && !client.awaitingIdr) = false)
    (env : RequestEnv) :
    client.takeDecodeError env =
      ⟨{ client with decodeError := false }, none, true⟩ := by
  simp [takeDecodeError, hquiet]

/-- The head of the gate fails for a P frame exactly when this frame freezes
the gate and its request cannot be written. -/
theorem head_ok (client : Client) {frame : CompletedFrame}
    (hkind : frame.kind ≠ .idr) (env : RequestEnv) :
    ((client.takeDecodeError env).ok &&
        ((client.takeDecodeError env).client.noteFrame frame env).ok) =
      !(client.frozenFor frame && !client.awaitingIdr &&
        client.requestFails env) := by
  rw [noteFrame_ok _ hkind]
  cases hsite : client.decodeError && !client.awaitingIdr with
  | true =>
      -- the flag froze the gate, so the gap is no second request site
      obtain ⟨time, htime⟩ := takeDecodeError_client client env
      obtain ⟨herror, hawaiting⟩ : client.decodeError = true ∧
          client.awaitingIdr = false := by simpa using hsite
      rw [takeDecodeError_ok, htime]
      simp [frozenFor, herror, hawaiting]
  | false =>
      have hgap : ({ client with decodeError := false } : Client).gapBefore
          frame.frameId = client.gapBefore frame.frameId := rfl
      have hfails : ({ client with decodeError := false } :
          Client).requestFails env = client.requestFails env := rfl
      rw [takeDecodeError_quiet hsite]
      simp only [hgap, hfails, Bool.true_and, frozenFor]
      cases hawaiting : client.awaitingIdr
      · have herror : client.decodeError = false := by
          simpa [hawaiting] using hsite
        simp [herror]
      · simp

section Spec

variable {client : Client} {arrived : ArrivedFrame} {backlog : Bool}
  {env : GateEnv}

/-- A request for the decode error that cannot be written ends the gate. -/
theorem gate_of_flag_failed
    (hok : (client.takeDecodeError env.breakRequest).ok = false) :
    client.gate arrived backlog env =
      ⟨(client.takeDecodeError env.breakRequest).client,
        (client.takeDecodeError env.breakRequest).sent.toList, .failed⟩ := by
  rw [gate, hok]
  rfl

/-- So does one for the gap. -/
theorem gate_of_note_failed
    (hok : (client.takeDecodeError env.breakRequest).ok = true)
    {noted : Asked}
    (hnoted : (client.takeDecodeError env.breakRequest).client.noteFrame
      arrived.frame env.breakRequest = noted) (hfailed : noted.ok = false) :
    client.gate arrived backlog env =
      ⟨noted.client, (client.takeDecodeError env.breakRequest).sent.toList ++
        noted.sent.toList, .failed⟩ := by
  simp only [gate, hok, hnoted, hfailed]
  rfl

/-- Otherwise the tail of the gate sees the frame. -/
theorem gate_of_ok
    (hok : (client.takeDecodeError env.breakRequest).ok = true)
    {noted : Asked}
    (hnoted : (client.takeDecodeError env.breakRequest).client.noteFrame
      arrived.frame env.breakRequest = noted) (hpassed : noted.ok = true) :
    client.gate arrived backlog env =
      noted.client.releaseOrSkip arrived backlog env
        ((client.takeDecodeError env.breakRequest).sent.toList ++
          noted.sent.toList) := by
  simp only [gate, hok, hnoted, hpassed]
  rfl

/-- Where the decode error ends the gate, the frame is held back. -/
theorem heldBack_of_flag_failed
    (hok : (client.takeDecodeError env.breakRequest).ok = false) :
    client.HeldBack arrived.frame env.breakRequest
      (client.takeDecodeError env.breakRequest).client := by
  obtain ⟨time, htime⟩ := takeDecodeError_client client env.breakRequest
  obtain ⟨⟨herror, hquiet⟩, hfails⟩ :
      (client.decodeError = true ∧ client.awaitingIdr = false) ∧
        client.requestFails env.breakRequest = true := by
    simpa [hok] using takeDecodeError_ok client env.breakRequest
  exact ⟨by simp [htime, herror], by simp [htime], by simp [htime],
    by simp [htime], by simp [frozenFor, herror], Or.inr ⟨hquiet, hfails⟩⟩

/-- What the head of the gate makes of the client at a P frame. -/
theorem head_client (hkind : arrived.frame.kind ≠ .idr) {noted : Asked}
    (hnoted : (client.takeDecodeError env.breakRequest).client.noteFrame
      arrived.frame env.breakRequest = noted) :
    noted.client.decodeError = false ∧
      noted.client.lastDeliveredId = client.lastDeliveredId ∧
      noted.client.recoveryPoint = client.recoveryPoint ∧
      noted.client.awaitingIdr = client.frozenFor arrived.frame := by
  obtain ⟨time, htime⟩ := takeDecodeError_client client env.breakRequest
  obtain ⟨time', htime'⟩ := noteFrame_client
    (client.takeDecodeError env.breakRequest).client hkind env.breakRequest
  rw [hnoted] at htime'
  have hgap : (client.takeDecodeError env.breakRequest).client.gapBefore
      arrived.frame.frameId = client.gapBefore arrived.frame.frameId := by
    simp only [htime, gapBefore]
  refine ⟨?_, ?_, ?_, ?_⟩
  · simp [htime', htime]
  · simp [htime', htime]
  · simp [htime', htime]
  · simp only [htime', hgap]
    simp [htime, frozenFor]

/-- Everything the gate can do with a frame. -/
theorem gate_spec (client : Client) (arrived : ArrivedFrame) (backlog : Bool)
    (env : GateEnv) :
    let gated := client.gate arrived backlog env
    (∃ wait, gated.outcome =
        .delivered (deliveredHeader arrived.frame) arrived.frame.data wait) ∧
      client.HandedOver arrived.frame env.breakRequest gated.client ∨
    (gated.outcome = .skipped ∨ gated.outcome = .failed) ∧
      client.HeldBack arrived.frame env.breakRequest gated.client := by
  intro gated
  cases hok : (client.takeDecodeError env.breakRequest).ok with
  | false =>
      rw [show gated = _ from gate_of_flag_failed hok]
      exact Or.inr ⟨Or.inr rfl, heldBack_of_flag_failed hok⟩
  | true =>
      by_cases hkind : arrived.frame.kind = .idr
      · obtain ⟨time, htime⟩ := takeDecodeError_client client env.breakRequest
        rw [show gated = _ from
          gate_of_ok hok (noteFrame_idr _ hkind env.breakRequest) rfl]
        apply releaseOrSkip_spec <;> simp [htime, hkind]
      · have hhead := head_ok client hkind env.breakRequest
        generalize hnoted :
          (client.takeDecodeError env.breakRequest).client.noteFrame
            arrived.frame env.breakRequest = noted at hhead
        obtain ⟨herror, hdelivered, hpoint, hawaiting⟩ :=
          head_client hkind hnoted
        rw [hok, Bool.true_and] at hhead
        cases hpassed : noted.ok with
        | true =>
            rw [show gated = _ from gate_of_ok hok hnoted hpassed]
            apply releaseOrSkip_spec _ _ _ _ herror hdelivered hpoint
            · simp [hawaiting, hkind]
            · intro _ hfrozen
              rw [hpassed, hfrozen] at hhead
              cases hfroze : client.awaitingIdr with
              | true => exact Or.inl rfl
              | false => exact Or.inr (by simpa [hfroze] using hhead)
        | false =>
            rw [show gated = _ from gate_of_note_failed hok hnoted hpassed]
            rw [hpassed] at hhead
            obtain ⟨⟨hfrozen, hquiet⟩, hfails⟩ :
                (client.frozenFor arrived.frame = true ∧
                  client.awaitingIdr = false) ∧
                  client.requestFails env.breakRequest = true := by
              simpa using hhead
            exact Or.inr ⟨Or.inr rfl, hawaiting.trans hfrozen, herror,
              hdelivered, hpoint, hfrozen, Or.inr ⟨hquiet, hfails⟩⟩

end Spec

/-! ## What the gate asks for -/

/-- This request gets past the throttle and onto the wire. -/
def canSend (client : Client) (env : RequestEnv) : Bool :=
  decide (minRequestIntervalUs ≤ env.nowUs - client.lastKeyframeRequestUs) &&
    (client.control = .writer || client.control = .stream && env.written)

theorem requestKeyframeThrottled_sent (client : Client) (env : RequestEnv) :
    (client.requestKeyframeThrottled env).sent =
      if client.canSend env then some client.keyframeRequest else none := by
  rw [requestKeyframeThrottled, sendKeyframeRequest, canSend]
  split
  case isTrue hsoon => simp [Nat.not_le.mpr hsoon]
  case isFalse hlate =>
      simp only [Nat.not_lt.mp hlate, decide_true, Bool.true_and]
      cases client.control <;> cases env.written <;> rfl

/-- A request that is not sent leaves the throttle as it was, unless nothing
can be sent any more or the write fails. -/
theorem requestKeyframeThrottled_quiet {client : Client} {env : RequestEnv}
    (hquiet : client.canSend env = false)
    (hok : client.requestFails env = false) :
    (client.requestKeyframeThrottled env).client = client ∨
      client.control = .detached := by
  rw [requestKeyframeThrottled, sendKeyframeRequest]
  split
  case isTrue => exact Or.inl rfl
  case isFalse hlate =>
      cases hcontrol : client.control with
      | detached => exact Or.inr rfl
      | writer => simp [canSend, hcontrol, Nat.not_lt.mp hlate] at hquiet
      | stream =>
          cases hwritten : env.written with
          | true =>
              simp [canSend, hcontrol, hwritten, Nat.not_lt.mp hlate] at hquiet
          | false =>
              simp [requestFails, hcontrol, hwritten, Nat.not_lt.mp hlate]
                at hok

end Client

end GameStreamer
