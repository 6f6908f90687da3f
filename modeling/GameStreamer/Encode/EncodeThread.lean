import GameStreamer.Core.EventRun
import GameStreamer.Core.Requests
import GameStreamer.Encode.Api

/-!
# The encode thread over a back end

The thread owns the encoder.  It takes a capture, applies a rate change,
answers a recovery request, submits the frame and hands over the chunks.  The
other threads reach it through shared cells, and each of their accesses is one
event.  Only the thread clears these cells, so a pass up to `submit` is one
step: what another thread stores in the middle of it counts as stored after
it.  The recovery points that the thread publishes play no role here.
-/

namespace GameStreamer.Encode.EncodeThread

/-- Where the thread stands. -/
inductive Phase where
  | capturing
  | draining
  | sweeping
  | exited
  deriving DecidableEq, Repr

/-- The encode thread over a back end.  The flags and the two requests are
shared with the session's other threads, which set them between the steps of a
pass. -/
structure State (Enc : Type) where
  forceIdr : Bool
  /-- Client's last good frame id plus one, 0 for none. -/
  recoveryRequest : ℕ
  bitrate : UInt32
  appliedBitrate : UInt32
  phase : Phase
  encoder : Enc
  /-- How many frames the encoder has taken. -/
  submitted : ℕ
  /-- The keyframe requests and the chunks handed to the sender task. -/
  history : List (Requests.Entry EncodedChunk)

inductive Event (Answer Background : Type) where
  /-- `request_keyframe`, or the sender task drops its backlog. -/
  | requestKeyframe
  | requestRecovery (lastGood : UInt32)
  | setBitrate (bitrateBps : UInt32)
  /-- The encoder works on its own thread. -/
  | background (input : Background)
  /-- A pass up to `submit`, with what the back end's driver answers. -/
  | submit (frame : GpuFrame) (answer : Answer)
  /-- `next_chunk` returns; `sent` says whether the sender task is still
  there. -/
  | nextChunk (sent : Bool)
  /-- One `poll_bitstream` of the sweep. -/
  | sweep (sent : Bool)
  /-- The stop flag is set or the capture channel is closed. -/
  | stop

section Thread

variable {Enc Answer Background : Type}

/-- `force_idr` is set; the next frame to be submitted is the first one after
it. -/
def State.request (state : State Enc) : State Enc :=
  { state with
    forceIdr := true
    history := state.history ++ [.requested state.submitted] }

variable (backend : Encoder Enc Answer Background)

/-- The pipeline starts with an open encoder. -/
def start (cfg : EncodeConfig) (answer : Answer) : State Enc :=
  let (encoder, result) := backend.openWith backend.new cfg answer
  { forceIdr := false
    recoveryRequest := 0
    bitrate := cfg.bitrateBps
    appliedBitrate := cfg.bitrateBps
    phase := if result.toBool then .capturing else .exited
    encoder := encoder
    submitted := 0
    history := [] }

/-- Apply a pending bitrate change before the frame. -/
def applyRate (state : State Enc) (answer : Answer) : State Enc :=
  if state.bitrate = state.appliedBitrate then state
  else
    match backend.updateRate state.encoder state.bitrate answer with
    | (encoder, .ok ()) =>
        { state with encoder := encoder, appliedBitrate := state.bitrate }
    | (encoder, .error _) => { state with encoder := encoder }

/-- Invalidate references, or else request an IDR. -/
def recover (state : State Enc) (answer : Answer) : State Enc :=
  if state.recoveryRequest = 0 then state
  else
    let lastGood := UInt32.ofNat (state.recoveryRequest - 1)
    let taken := { state with recoveryRequest := 0 }
    if backend.invalidateRefs state.encoder lastGood answer then taken
    else taken.request

/-- What a pass does before it submits the frame. -/
def prepare (state : State Enc) (answer : Answer) : State Enc :=
  recover backend (applyRate backend state answer) answer

/-- Take the flag and submit the frame with it. -/
def submitFrame (state : State Enc) (frame : GpuFrame) (answer : Answer) :
    State Enc :=
  let taken := { state with forceIdr := false }
  match backend.submit state.encoder { frame with serial := state.submitted }
      ⟨state.forceIdr⟩ answer with
  | (encoder, .error _) => { taken with encoder := encoder, phase := .exited }
  | (encoder, .ok _) =>
      { taken with
        encoder := encoder
        phase := .draining
        submitted := state.submitted + 1 }

/-- Hand a chunk to the sender task; without one the thread returns. -/
def handOver (state : State Enc) (chunk : EncodedChunk) (sent : Bool) :
    State Enc :=
  if sent then
    { state with
      phase := .sweeping
      history := state.history ++ [.emitted chunk] }
  else { state with phase := .exited }

/-- `next_chunk` and what the thread does with its result.  An error ends the
thread; a time-out goes on with the sweep. -/
def drain (state : State Enc) (sent : Bool) : State Enc :=
  match backend.pollBitstream state.encoder with
  | (encoder, .error _) => { state with encoder := encoder, phase := .exited }
  | (encoder, .ok none) => { state with encoder := encoder, phase := .sweeping }
  | (encoder, .ok (some chunk)) =>
      handOver { state with encoder := encoder } chunk sent

/-- One turn of the sweep that picks up additional chunks. -/
def sweepOne (state : State Enc) (sent : Bool) : State Enc :=
  match backend.pollBitstream state.encoder with
  | (encoder, .ok (some chunk)) =>
      handOver { state with encoder := encoder } chunk sent
  | (encoder, _) => { state with encoder := encoder, phase := .capturing }

/-- One step of the thread, a request from outside, or work of the encoder on
its own thread.  A pass submits a frame, drains a chunk and sweeps up what else
is there. -/
def step (state : State Enc) : Event Answer Background → State Enc
  | .requestKeyframe => state.request
  | .requestRecovery lastGood =>
      { state with recoveryRequest := lastGood.toNat + 1 }
  | .setBitrate bitrateBps => { state with bitrate := bitrateBps }
  | .background input =>
      { state with encoder := (backend.background state.encoder input).1 }
  | .submit frame answer =>
      if state.phase = .capturing then
        submitFrame backend (prepare backend state answer) frame answer
      else state
  | .nextChunk sent =>
      if state.phase = .draining then drain backend state sent else state
  | .sweep sent =>
      if state.phase = .sweeping then sweepOne backend state sent else state
  | .stop =>
      if state.phase = .capturing then { state with phase := .exited }
      else state

def run (cfg : EncodeConfig) (answer : Answer)
    (events : List (Event Answer Background)) : State Enc :=
  events.foldl (step backend) (start backend cfg answer)

/-! ## What the stages of a pass do -/

variable {backend}

/-- A rate change touches the encoder and the applied rate only. -/
theorem applyRate_cases (state : State Enc) (answer : Answer) :
    applyRate backend state answer = state ∨
      ∃ applied, applyRate backend state answer =
        { state with
          encoder := (backend.updateRate state.encoder state.bitrate answer).1
          appliedBitrate := applied } := by
  rw [applyRate]
  split
  case isTrue => exact Or.inl rfl
  case isFalse =>
      split
      case h_1 encoder hrate => exact Or.inr ⟨state.bitrate, by rw [hrate]⟩
      case h_2 encoder error hrate =>
          exact Or.inr ⟨state.appliedBitrate, by rw [hrate]⟩

theorem applyRate_encoder {state : State Enc}
    (hnew : state.bitrate ≠ state.appliedBitrate) (answer : Answer) :
    (applyRate backend state answer).encoder =
      (backend.updateRate state.encoder state.bitrate answer).1 := by
  rw [applyRate, if_neg hnew]
  split
  case h_1 encoder hrate => rw [hrate]
  case h_2 encoder error hrate => rw [hrate]

/-- A recovery request is taken, and becomes a keyframe request where the
back end does not invalidate references. -/
theorem recover_cases (state : State Enc) (answer : Answer) :
    recover backend state answer = state ∨
      recover backend state answer = { state with recoveryRequest := 0 } ∨
      recover backend state answer =
        { state with recoveryRequest := 0 }.request := by
  rw [recover]
  split
  case isTrue => exact Or.inl rfl
  case isFalse =>
      dsimp only
      split
      · exact Or.inr (Or.inl rfl)
      · exact Or.inr (Or.inr rfl)

theorem prepare_phase (state : State Enc) (answer : Answer) :
    (prepare backend state answer).phase = state.phase := by
  have hrate : (applyRate backend state answer).phase = state.phase := by
    rcases applyRate_cases state answer with
      h | ⟨applied, h⟩
    · rw [h]
    · rw [h]
  rw [prepare, ← hrate]
  rcases recover_cases (applyRate backend state answer) answer with h | h | h
  · rw [h]
  · rw [h]
  · rw [h]
    rfl

/-- Where the encoder and the rates stand after a stage that leaves the rates
alone. -/
structure RatesKept (state after : State Enc) (encoder : Enc) : Prop where
  encoder : after.encoder = encoder
  applied : after.appliedBitrate = state.appliedBitrate
  target : after.bitrate = state.bitrate

theorem recover_rates (state : State Enc) (answer : Answer) :
    RatesKept state (recover backend state answer) state.encoder := by
  rcases recover_cases state answer with h | h | h
  · rw [h]
    exact ⟨rfl, rfl, rfl⟩
  · rw [h]
    exact ⟨rfl, rfl, rfl⟩
  · rw [h]
    exact ⟨rfl, rfl, rfl⟩

theorem submitFrame_rates (state : State Enc) (frame : GpuFrame)
    (answer : Answer) :
    RatesKept state (submitFrame backend state frame answer)
      (backend.submit state.encoder { frame with serial := state.submitted }
        ⟨state.forceIdr⟩ answer).1 := by
  rw [submitFrame]
  split
  case h_1 encoder error hsubmit =>
      rw [hsubmit]
      exact ⟨rfl, rfl, rfl⟩
  case h_2 encoder made hsubmit =>
      rw [hsubmit]
      exact ⟨rfl, rfl, rfl⟩

/-- A pass changes the rates in `applyRate` only. -/
theorem pass_rates (state : State Enc) (frame : GpuFrame) (answer : Answer) :
    ∃ frame' directives,
      RatesKept (applyRate backend state answer)
        (submitFrame backend (prepare backend state answer) frame answer)
        (backend.submit (applyRate backend state answer).encoder frame'
          directives answer).1 := by
  have hrecovered : RatesKept _ (prepare backend state answer) _ :=
    recover_rates (applyRate backend state answer) answer
  have hsubmitted : RatesKept _
      (submitFrame backend (prepare backend state answer) frame answer) _ :=
    submitFrame_rates (prepare backend state answer) frame answer
  refine ⟨{ frame with serial := (prepare backend state answer).submitted },
    ⟨(prepare backend state answer).forceIdr⟩, ?_, ?_, ?_⟩
  · rw [hsubmitted.encoder, hrecovered.encoder]
  · exact hsubmitted.applied.trans hrecovered.applied
  · exact hsubmitted.target.trans hrecovered.target

theorem handOver_rates (state : State Enc) (after : Enc)
    (chunk : EncodedChunk) (sent : Bool) :
    RatesKept state (handOver { state with encoder := after } chunk sent)
      after := by
  rw [handOver]
  split
  case isTrue => exact ⟨rfl, rfl, rfl⟩
  case isFalse => exact ⟨rfl, rfl, rfl⟩

theorem drain_rates (state : State Enc) (sent : Bool) :
    RatesKept state (drain backend state sent)
      (backend.pollBitstream state.encoder).1 := by
  rw [drain]
  split
  case h_1 encoder error hpoll =>
      rw [hpoll]
      exact ⟨rfl, rfl, rfl⟩
  case h_2 encoder hpoll =>
      rw [hpoll]
      exact ⟨rfl, rfl, rfl⟩
  case h_3 encoder chunk hpoll =>
      rw [hpoll]
      exact handOver_rates state encoder chunk sent

theorem sweepOne_rates (state : State Enc) (sent : Bool) :
    RatesKept state (sweepOne backend state sent)
      (backend.pollBitstream state.encoder).1 := by
  rw [sweepOne]
  split
  case h_1 encoder chunk hpoll =>
      rw [hpoll]
      exact handOver_rates state encoder chunk sent
  case h_2 encoder result _ hpoll =>
      rw [hpoll]
      exact ⟨rfl, rfl, rfl⟩

end Thread

end GameStreamer.Encode.EncodeThread
