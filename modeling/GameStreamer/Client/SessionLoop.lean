import GameStreamer.Client.Gate
import GameStreamer.Core.EventRun

/-!
# The embedder's session loop

`session_loop` selects between the stop signal, the control events of the
agent and `recv_encoded`.  When another branch wins, the receive future is
dropped at the await point it is suspended on, and the next iteration calls
`recv_encoded` afresh.  The future has two such points: the channel of
released frames, and the sleep of the de-jitter buffer, which comes after the
gate has already noted the frame as delivered.
-/

namespace GameStreamer

/-- What `recv_encoded` returns. -/
structure EncodedFrame where
  data : Bytes
  frameId : UInt32
  keyframe : Bool
  captureTsUs : UInt32
  latencyUs : Option UInt32
  deriving DecidableEq, Repr

/-- The tail of `recv_encoded`, for a frame that the gate handed over. -/
def Client.recvEncoded (client : Client) (header : VideoDatagramHeader)
    (data : Bytes) (nowUs : ℕ) : EncodedFrame where
  data := data
  frameId := header.frameId
  keyframe := decide (header.kind = .idr)
  captureTsUs := header.captureTsUs
  latencyUs := client.clockSync.frameLatencyUs nowUs header.captureTsUs

/-- The frame itself, without the time it was returned at. -/
def EncodedFrame.untimed (frame : EncodedFrame) : EncodedFrame :=
  { frame with latencyUs := none }

namespace SessionLoop

/-- Where the loop is suspended. -/
inductive Phase where
  /-- On the channel of released frames. -/
  | receiving
  /-- On the sleep of the de-jitter buffer. -/
  | waiting (header : VideoDatagramHeader) (data : Bytes)
  /-- The loop was left, possibly in the middle of a sleep. -/
  | ended (cut : Option (VideoDatagramHeader × Bytes))
  deriving DecidableEq, Repr

/-- The loop of the embedder around `recv_encoded`, with the frame that it
holds while the de-jitter buffer sleeps.  What the loop passes on is
recorded. -/
structure State where
  client : Client
  /-- The channel of released frames, oldest first. -/
  queue : List ArrivedFrame
  /-- The receive task has ended. -/
  closed : Bool
  phase : Phase
  /-- Every frame that the gate has accepted, oldest first. -/
  accepted : List (VideoDatagramHeader × Bytes)
  /-- Every frame that was passed to the embedder, oldest first. -/
  shown : List EncodedFrame
  deriving DecidableEq, Repr

def start (clockSync : ClockSync) : State where
  client := Client.connected .writer clockSync
  queue := []
  closed := false
  phase := .receiving
  accepted := []
  shown := []

inductive Event where
  /-- The receive task releases a frame. -/
  | released (arrived : ArrivedFrame)
  /-- The receive task ends. -/
  | closed
  /-- The control reader stores an announced recovery point. -/
  | recoveryPoint (firstSafe : UInt32)
  /-- The embedder raises the decode-error flag. -/
  | embedderRejects
  /-- The embedder switches the de-jitter buffer. -/
  | setDejitter (enabled : Bool)
  /-- The receive future is polled on the channel. -/
  | poll (env : Client.GateEnv) (nowUs : ℕ)
  /-- The sleep elapses, and the receive future is polled. -/
  | elapsed (nowUs : ℕ)
  /-- A control event wins the select. -/
  | control
  /-- The stop signal wins the select. -/
  | stop
  deriving DecidableEq, Repr

/-- One pass of `next_gated_frame` over the head of the channel. -/
def pollFrame (state : State) (arrived : ArrivedFrame)
    (rest : List ArrivedFrame) (env : Client.GateEnv) (nowUs : ℕ) : State :=
  let gated := state.client.gate arrived (!rest.isEmpty) env
  let next := { state with client := gated.client, queue := rest }
  match gated.outcome with
  | .failed => { next with phase := .ended none }
  | .skipped => next
  | .delivered header data none =>
      { next with
        accepted := state.accepted ++ [(header, data)]
        shown := state.shown ++ [gated.client.recvEncoded header data nowUs] }
  | .delivered header data (some _) =>
      { next with
        accepted := state.accepted ++ [(header, data)]
        phase := .waiting header data }

/-- One event of the loop.  A control event or the stop signal during the sleep
of the de-jitter buffer cancels the call that sleeps, and with it the frame
that it holds. -/
def step (state : State) : Event → State
  | .released arrived => { state with queue := state.queue ++ [arrived] }
  | .closed => { state with closed := true }
  | .recoveryPoint firstSafe =>
      { state with client := state.client.storeRecoveryPoint firstSafe }
  | .embedderRejects =>
      { state with client := { state.client with decodeError := true } }
  | .setDejitter enabled =>
      { state with client := { state.client with dejitter := enabled } }
  | .poll env nowUs =>
      match state.phase, state.queue with
      | .receiving, arrived :: rest => pollFrame state arrived rest env nowUs
      | .receiving, [] =>
          if state.closed then { state with phase := .ended none } else state
      | _, _ => state
  | .elapsed nowUs =>
      match state.phase with
      | .waiting header data =>
          { state with
            phase := .receiving
            shown := state.shown ++
              [state.client.recvEncoded header data nowUs] }
      | _ => state
  | .control =>
      match state.phase with
      | .waiting _ _ => { state with phase := .receiving }
      | _ => state
  | .stop =>
      match state.phase with
      | .waiting header data =>
          { state with phase := .ended (some (header, data)) }
      | .receiving => { state with phase := .ended none }
      | .ended _ => state

/-- The accepted frame that the loop still holds, or held when it ended. -/
def Phase.held : Phase → List (VideoDatagramHeader × Bytes)
  | .receiving => []
  | .waiting header data => [(header, data)]
  | .ended cut => cut.toList

/-- The frame that the embedder must see for an accepted one. -/
def encodedOf (accepted : VideoDatagramHeader × Bytes) : EncodedFrame where
  data := accepted.2
  frameId := accepted.1.frameId
  keyframe := decide (accepted.1.kind = .idr)
  captureTsUs := accepted.1.captureTsUs
  latencyUs := none

/-- Every frame that the gate accepted was returned, in order, except for one
whose sleep is still running or was cut short by the end of the session. -/
def NoneLost (state : State) : Prop :=
  state.accepted.map encodedOf =
    state.shown.map EncodedFrame.untimed ++ state.phase.held.map encodedOf

instance (state : State) : Decidable (NoneLost state) :=
  inferInstanceAs (Decidable (_ = _))

/-- No control event wins the select during a sleep of the de-jitter
buffer. -/
def UndisturbedSleep (state : State) : Event → Prop
  | .control => ∀ header data, state.phase ≠ .waiting header data
  | _ => True

@[simp]
theorem untimed_recvEncoded (client : Client) (header : VideoDatagramHeader)
    (data : Bytes) (nowUs : ℕ) :
    (client.recvEncoded header data nowUs).untimed =
      encodedOf (header, data) := rfl

/-! ## The bookkeeping of the gate -/

/-- The newest accepted frame is the one the gate remembers as delivered. -/
def Remembered (state : State) : Prop :=
  state.client.lastDeliveredId =
    state.accepted.getLast?.map fun accepted => accepted.1.frameId

/-- Frames that were returned or are still held were accepted. -/
def Accounted (state : State) : Prop :=
  state.shown.length + state.phase.held.length ≤ state.accepted.length

theorem pollFrame_cases (state : State) (arrived : ArrivedFrame)
    (rest : List ArrivedFrame) (env : Client.GateEnv) (nowUs : ℕ)
    (hphase : state.phase = .receiving) :
    let next := pollFrame state arrived rest env nowUs
    (next.accepted = state.accepted ∧ next.shown = state.shown ∧
      next.phase.held = [] ∧
      next.client.lastDeliveredId = state.client.lastDeliveredId) ∨
    ∃ header data, next.accepted = state.accepted ++ [(header, data)] ∧
      next.client.lastDeliveredId = some header.frameId ∧
      next.shown.map EncodedFrame.untimed ++ next.phase.held.map encodedOf =
        state.shown.map EncodedFrame.untimed ++
          [encodedOf (header, data)] := by
  intro next
  rcases Client.gate_spec state.client arrived (!rest.isEmpty) env with
    ⟨⟨wait, hout⟩, hover⟩ | ⟨hout, hheld⟩
  · right
    refine ⟨Client.deliveredHeader arrived.frame, arrived.frame.data, ?_⟩
    cases wait with
    | none =>
        simp only [next, pollFrame, hout]
        exact ⟨trivial, hover.lastDeliveredId, by simp [hphase, Phase.held]⟩
    | some wait =>
        simp only [next, pollFrame, hout]
        exact ⟨trivial, hover.lastDeliveredId, by simp [Phase.held]⟩
  · left
    rcases hout with hout | hout
    · simp only [next, pollFrame, hout]
      exact ⟨trivial, trivial, by simp [hphase, Phase.held],
        hheld.lastDeliveredId⟩
    · simp only [next, pollFrame, hout]
      exact ⟨trivial, trivial, rfl, hheld.lastDeliveredId⟩

theorem remembered_step (state : State) (event : Event)
    (hremembered : Remembered state) : Remembered (step state event) := by
  cases event with
  | released arrived => exact hremembered
  | closed => exact hremembered
  | recoveryPoint firstSafe => exact hremembered
  | embedderRejects => exact hremembered
  | setDejitter enabled => exact hremembered
  | poll env nowUs =>
      simp only [step]
      split
      case h_1 arrived rest hphase _ =>
          rcases pollFrame_cases state arrived rest env nowUs hphase with
            ⟨haccepted, -, -, hlast⟩ | ⟨header, data, haccepted, hlast, -⟩
          · rw [Remembered, haccepted, hlast]
            exact hremembered
          · rw [Remembered, haccepted, hlast]
            simp
      case h_2 => split <;> exact hremembered
      case h_3 => exact hremembered
  | elapsed nowUs => simp only [step]; split <;> exact hremembered
  | control => simp only [step]; split <;> exact hremembered
  | stop => simp only [step]; split <;> exact hremembered

/-- The ghost list of accepted frames follows `last_delivered_id`. -/
theorem remembered_run (clockSync : ClockSync) (events : List Event) :
    Remembered (events.foldl step (start clockSync)) :=
  EventRun.foldl_preserves remembered_step events rfl

theorem accounted_step (state : State) (event : Event)
    (haccounted : Accounted state) : Accounted (step state event) := by
  rw [Accounted] at haccounted
  cases event with
  | released arrived => exact haccounted
  | closed => exact haccounted
  | recoveryPoint firstSafe => exact haccounted
  | embedderRejects => exact haccounted
  | setDejitter enabled => exact haccounted
  | poll env nowUs =>
      simp only [step]
      split
      case h_1 arrived rest hphase _ =>
          simp only [hphase, Phase.held] at haccounted
          rcases pollFrame_cases state arrived rest env nowUs hphase with
            ⟨haccepted, hshown, hheld, -⟩ | ⟨header, data, haccepted, -, hall⟩
          · simpa [Accounted, haccepted, hshown, hheld] using haccounted
          · have hlength := congrArg List.length hall
            simp only [List.length_append, List.length_map,
              List.length_singleton] at hlength
            simp only [Accounted, hlength, haccepted, List.length_append,
              List.length_singleton]
            exact Nat.succ_le_succ haccounted
      case h_2 hphase _ =>
          split
          · simpa [Accounted, hphase, Phase.held] using haccounted
          · simpa [Accounted, hphase, Phase.held] using haccounted
      case h_3 => exact haccounted
  | elapsed nowUs =>
      simp only [step]
      split
      case h_1 header data hphase =>
          simpa [Accounted, hphase, Phase.held] using haccounted
      case h_2 => exact haccounted
  | control =>
      simp only [step]
      split
      case h_1 header data hphase =>
          simp only [hphase, Phase.held, List.length_singleton] at haccounted
          simp only [Accounted, Phase.held, List.length_nil]
          omega
      case h_2 => exact haccounted
  | stop =>
      simp only [step]
      split
      case h_1 header data hphase =>
          simpa [Accounted, hphase, Phase.held] using haccounted
      case h_2 hphase => simpa [Accounted, hphase, Phase.held] using haccounted
      case h_3 => exact haccounted

/-! ## Which runs lose a frame -/

/-- A step loses a frame exactly when a control event cuts a sleep short, and
what was lost stays lost. -/
theorem noneLost_step_iff (state : State) (event : Event)
    (haccounted : Accounted state) :
    NoneLost (step state event) ↔
      NoneLost state ∧ UndisturbedSleep state event := by
  cases event with
  | released arrived => exact (and_iff_left trivial).symm
  | closed => exact (and_iff_left trivial).symm
  | recoveryPoint firstSafe => exact (and_iff_left trivial).symm
  | embedderRejects => exact (and_iff_left trivial).symm
  | setDejitter enabled => exact (and_iff_left trivial).symm
  | poll env nowUs =>
      rw [and_iff_left (show UndisturbedSleep state (.poll env nowUs) from
        trivial)]
      simp only [step]
      split
      case h_1 arrived rest hphase _ =>
          have hheld : state.phase.held = [] := by rw [hphase]; rfl
          rcases pollFrame_cases state arrived rest env nowUs hphase with
            ⟨haccepted, hshown, hnext, -⟩ | ⟨header, data, haccepted, -, hall⟩
          · simp [NoneLost, haccepted, hshown, hnext, hheld]
          · simp [NoneLost, hall, haccepted, hheld]
      case h_2 hphase _ =>
          split
          · simp [NoneLost, hphase, Phase.held]
          · rfl
      case h_3 => rfl
  | elapsed nowUs =>
      rw [and_iff_left (show UndisturbedSleep state (.elapsed nowUs) from
        trivial)]
      simp only [step]
      split
      case h_1 header data hphase => simp [NoneLost, hphase, Phase.held]
      case h_2 => rfl
  | control =>
      simp only [step]
      split
      case h_1 header data hphase =>
          refine iff_of_false (fun hnone => ?_)
            fun h => h.2 header data hphase
          have hlength := congrArg List.length hnone
          simp only [Accounted, hphase, Phase.held] at haccounted
          simp [Phase.held] at hlength haccounted
          omega
      case h_2 hphase =>
          exact (and_iff_left fun header data => hphase header data).symm
  | stop =>
      rw [and_iff_left (show UndisturbedSleep state .stop from trivial)]
      simp only [step]
      split
      case h_1 header data hphase => simp [NoneLost, hphase, Phase.held]
      case h_2 hphase => simp [NoneLost, hphase, Phase.held]
      case h_3 => rfl

/-- While the session runs, a frame that is still held is returned as soon as
its sleep elapses. -/
theorem elapsed_returns {state : State} (hnone : NoneLost state)
    (hrunning : ∀ cut, state.phase ≠ .ended cut) (nowUs : ℕ) :
    (step state (.elapsed nowUs)).shown.map EncodedFrame.untimed =
      state.accepted.map encodedOf := by
  rw [NoneLost] at hnone
  cases hphase : state.phase with
  | receiving => simp [step, hphase, hnone, Phase.held]
  | waiting header data => simp [step, hphase, hnone, Phase.held]
  | ended cut => exact absurd hphase (hrunning cut)

/-- A run returns every frame that the gate accepted, or will once the sleep
in progress elapses, exactly when no control event cut a sleep of the
de-jitter buffer short. -/
theorem noneLost_iff_undisturbedSleep (clockSync : ClockSync)
    (events : List Event) :
    let final := events.foldl step (start clockSync)
    (NoneLost final ↔
      EventRun.Along step UndisturbedSleep (start clockSync) events) ∧
    (NoneLost final → (∀ cut, final.phase ≠ .ended cut) → ∀ nowUs,
      (step final (.elapsed nowUs)).shown.map EncodedFrame.untimed =
        final.accepted.map encodedOf) := by
  intro final
  refine ⟨?_, fun hnone hrunning nowUs => elapsed_returns hnone hrunning nowUs⟩
  refine EventRun.good_iff_along_of_preserves Accounted NoneLost accounted_step
    ?_ ?_ ?_ ?_
  · intro state event haccounted hafter
    exact ((noneLost_step_iff state event haccounted).mp hafter).1
  · intro state event haccounted hgood
    rw [noneLost_step_iff state event haccounted, and_iff_right hgood]
  · exact Nat.le_refl 0
  · rfl

/-- Fifteen frames whose latencies alternate between 1 ms and 21 ms, and a
sixteenth that is early and is held back. -/
def jitteryFrame (id : ℕ) : List Event :=
  let captureUs := id * 200000
  let nowUs := captureUs + if id % 2 = 0 then 21000 else 1000
  [.released
    ⟨⟨UInt32.ofNat id, if id = 0 then .idr else .p, UInt32.ofNat captureUs,
      []⟩, nowUs⟩,
    .poll ⟨⟨nowUs, true⟩, ⟨nowUs, true⟩, nowUs⟩ nowUs]

def cancelledSleep : List Event :=
  (List.range 16).flatMap jitteryFrame ++ [.control]

/-- The sixteenth frame is noted as delivered and never returned. -/
theorem not_noneLost_cancelledSleep :
    ¬ NoneLost (cancelledSleep.foldl step (start ⟨some (4000, 0)⟩)) := by
  decide +kernel

end SessionLoop

end GameStreamer
