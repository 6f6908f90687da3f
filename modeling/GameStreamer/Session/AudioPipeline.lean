import GameStreamer.Core.EventRun
import GameStreamer.Protocol.WireFormat

/-!
# The audio pipeline

Capture hands over buffers of any size, and Opus takes frames of exactly 5 ms.
The reframer in between is a queue: whatever is pushed comes out once and in
order, in full frames, and what is left after a drain is less than a frame.
The encode thread pushes what it receives and drains before it receives again.
-/

namespace GameStreamer.AudioPipeline

/-! ## Sizes -/

def sampleRate : ℕ := 48000

/-- Interleaved channels. -/
def channels : ℕ := 2

def frameMs : ℕ := 5

/-- Samples per channel in one frame. -/
def frameSamples : ℕ := sampleRate * frameMs / 1000

/-- Interleaved samples in one stereo frame. -/
def frameInterleaved : ℕ := frameSamples * channels

theorem frameInterleaved_pos : 0 < frameInterleaved := by decide

/-! ## The reframer -/

/-- Regroups capture buffers of any size into frames of 5 ms.  A frame carries
the time stamp of the buffer that came last. -/
structure Reframer where
  buf : List Int16
  /-- Capture timestamp of the most recent input. -/
  lastTsUs : ℕ
  deriving DecidableEq, Repr

namespace Reframer

def new : Reframer := ⟨[], 0⟩

def push (reframer : Reframer) (samples : List Int16) (tsUs : ℕ) : Reframer :=
  ⟨reframer.buf ++ samples, tsUs⟩

/-- Pop one full frame, or nothing if fewer samples are buffered. -/
def nextFrame (reframer : Reframer) : Reframer × Option (List Int16) :=
  if reframer.buf.length < frameInterleaved then (reframer, none)
  else
    ({ reframer with buf := reframer.buf.drop frameInterleaved },
      some (reframer.buf.take frameInterleaved))

theorem nextFrame_cases (reframer : Reframer) :
    (reframer.buf.length < frameInterleaved ∧
        reframer.nextFrame = (reframer, none)) ∨
      ∃ frame rest, reframer.buf = frame ++ rest ∧
        frame.length = frameInterleaved ∧
        reframer.nextFrame = ({ reframer with buf := rest }, some frame) := by
  by_cases hshort : reframer.buf.length < frameInterleaved
  · exact Or.inl ⟨hshort, if_pos hshort⟩
  · refine Or.inr ⟨_, _, (List.take_append_drop frameInterleaved _).symm,
      ?_, if_neg hshort⟩
    rw [List.length_take]
    exact Nat.min_eq_left (Nat.le_of_not_lt hshort)

end Reframer

/-- A reframer with what was pushed into it and what it has emitted. -/
structure Reframing where
  reframer : Reframer
  pushed : List Int16
  frames : List (List Int16)
  deriving DecidableEq, Repr

namespace Reframing

def new : Reframing := ⟨.new, [], []⟩

def push (reframing : Reframing) (samples : List Int16) (tsUs : ℕ) :
    Reframing :=
  { reframing with
    reframer := reframing.reframer.push samples tsUs
    pushed := reframing.pushed ++ samples }

def nextFrame (reframing : Reframing) : Reframing × Option (List Int16) :=
  match reframing.reframer.nextFrame with
  | (reframer, none) => ({ reframing with reframer := reframer }, none)
  | (reframer, some frame) =>
      ({ reframing with
          reframer := reframer
          frames := reframing.frames ++ [frame] }, some frame)

/-- The frames and the rest are what was pushed, and the frames are full. -/
structure Lossless (reframing : Reframing) : Prop where
  stream : reframing.frames.flatten ++ reframing.reframer.buf =
    reframing.pushed
  full : ∀ frame ∈ reframing.frames, frame.length = frameInterleaved

theorem lossless_new : Lossless new where
  stream := rfl
  full frame h := by cases h

theorem Lossless.push {reframing : Reframing} (h : reframing.Lossless)
    (samples : List Int16) (tsUs : ℕ) :
    (reframing.push samples tsUs).Lossless where
  stream := by
    rw [Reframing.push, Reframer.push, ← List.append_assoc, h.stream]
  full := h.full

theorem nextFrame_cases (reframing : Reframing) :
    (reframing.reframer.buf.length < frameInterleaved ∧
        reframing.nextFrame = (reframing, none)) ∨
      ∃ frame rest, reframing.reframer.buf = frame ++ rest ∧
        frame.length = frameInterleaved ∧
        reframing.nextFrame =
          ({ reframing with
              reframer := { reframing.reframer with buf := rest }
              frames := reframing.frames ++ [frame] }, some frame) := by
  rcases reframing.reframer.nextFrame_cases with
    ⟨hshort, hnext⟩ | ⟨frame, rest, hbuf, hlength, hnext⟩
  · exact Or.inl ⟨hshort, by rw [nextFrame, hnext]⟩
  · exact Or.inr ⟨frame, rest, hbuf, hlength, by rw [nextFrame, hnext]⟩

theorem Lossless.nextFrame {reframing : Reframing} (h : reframing.Lossless) :
    reframing.nextFrame.1.Lossless := by
  rcases reframing.nextFrame_cases with
    ⟨-, hnext⟩ | ⟨frame, rest, hbuf, hlength, hnext⟩
  · rw [hnext]
    exact h
  · rw [hnext]
    constructor
    · dsimp only
      rw [List.flatten_append, List.flatten_singleton, List.append_assoc,
        ← hbuf, h.stream]
    · intro other hother
      rcases List.mem_append.mp hother with hold | hnew
      · exact h.full other hold
      · rw [List.mem_singleton.mp hnew, hlength]

/-- A use of the reframer. -/
inductive Call where
  | push (samples : List Int16) (tsUs : ℕ)
  | nextFrame
  deriving DecidableEq, Repr

def call (reframing : Reframing) : Call → Reframing
  | .push samples tsUs => reframing.push samples tsUs
  | .nextFrame => reframing.nextFrame.1

theorem Lossless.call {reframing : Reframing} (h : reframing.Lossless)
    (call : Call) : (reframing.call call).Lossless := by
  cases call with
  | push samples tsUs => exact h.push samples tsUs
  | nextFrame => exact h.nextFrame

/-- The calls of `while let Some(pcm) = reframer.next_frame()`. -/
def drain (reframing : Reframing) (turns : ℕ) : Reframing :=
  (List.replicate turns Call.nextFrame).foldl call reframing

/-- As many turns as there are full frames leave the part of a frame. -/
theorem length_drain (reframing : Reframing) {turns : ℕ}
    (hturns : reframing.reframer.buf.length / frameInterleaved ≤ turns) :
    (reframing.drain turns).reframer.buf.length =
      reframing.reframer.buf.length % frameInterleaved := by
  induction turns generalizing reframing with
  | zero =>
      rw [Nat.le_zero, Nat.div_eq_zero_iff_lt frameInterleaved_pos] at hturns
      exact (Nat.mod_eq_of_lt hturns).symm
  | succ turns ih =>
      have hnext : reframing.drain (turns + 1) =
          reframing.nextFrame.1.drain turns := rfl
      rw [hnext]
      rcases reframing.nextFrame_cases with
        ⟨hshort, hnone⟩ | ⟨frame, rest, hbuf, hlength, hsome⟩
      · rw [hnone]
        apply ih
        rw [Nat.div_eq_of_lt hshort]
        exact Nat.zero_le _
      · have hrest : reframing.reframer.buf.length =
            rest.length + frameInterleaved := by
          rw [hbuf, List.length_append, hlength, Nat.add_comm]
        rw [hsome, hrest, Nat.add_mod_right]
        apply ih
        rw [hrest, Nat.add_div_right _ frameInterleaved_pos] at hturns
        exact Nat.le_of_succ_le_succ hturns

end Reframing

/-! ## The encode thread -/

/-- `OpusEncoder::encode`, with what libopus answers. -/
def encode (pcm : List Int16) (answer : Except String Bytes) :
    Except String Bytes :=
  if pcm.length ≠ frameInterleaved then
    .error s!"expected {frameInterleaved} samples, got {pcm.length}"
  else
    match answer with
    | .error e => .error ("opus encode: " ++ e)
    | .ok opus => .ok opus

/-- Where the thread stands. -/
inductive Phase where
  | receiving
  | draining
  | returned
  deriving DecidableEq, Repr

/-- The encode thread of the audio pipeline: the reframer, the number of the
last datagram, and what was handed to the sender task. -/
structure Thread where
  reframing : Reframing
  seq : UInt16
  phase : Phase
  /-- The datagrams handed to the sender task. -/
  sent : List Bytes
  deriving DecidableEq, Repr

inductive Event where
  /-- A buffer arrives from capture. -/
  | received (samples : List Int16) (captureTsUs : ℕ)
  /-- Receiving times out, or capture is closed. -/
  | timedOut
  /-- One turn of the inner loop; `open` says whether the sender task is still
  there. -/
  | turn (answer : Except String Bytes) (isOpen : Bool)
  /-- The stop flag is seen. -/
  | stop

namespace Thread

def start : Thread := ⟨.new, 0, .receiving, []⟩

/-- A frame is encoded and sent; an encoder error loses the frame only. -/
def emit (thread : Thread) (pcm : List Int16) (answer : Except String Bytes)
    (isOpen : Bool) : Thread :=
  match encode pcm answer with
  | .error _ => thread
  | .ok opus =>
      let seq := thread.seq + 1
      let hdr : AudioDatagramHeader :=
        ⟨seq, wireTs thread.reframing.reframer.lastTsUs⟩
      if isOpen then
        { thread with
          seq := seq
          sent := thread.sent ++ [hdr.encodeWithPayload opus] }
      else { thread with seq := seq, phase := .returned }

/-- `while let Some(pcm) = reframer.next_frame()`, one turn. -/
def turn (thread : Thread) (answer : Except String Bytes) (isOpen : Bool) :
    Thread :=
  match thread.reframing.nextFrame with
  | (reframing, none) =>
      { thread with reframing := reframing, phase := .receiving }
  | (reframing, some pcm) =>
      emit { thread with reframing := reframing } pcm answer isOpen

/-- One step of the thread.  A buffer is pushed and the reframer drained frame
by frame; the stop flag is looked at between two buffers only. -/
def step (thread : Thread) : Event → Thread
  | .received samples captureTsUs =>
      if thread.phase = .receiving then
        { thread with
          reframing := thread.reframing.push samples captureTsUs
          phase := .draining }
      else thread
  | .timedOut => thread
  | .turn answer isOpen =>
      if thread.phase = .draining then thread.turn answer isOpen else thread
  | .stop =>
      if thread.phase = .receiving then { thread with phase := .returned }
      else thread

def run (events : List Event) : Thread := events.foldl step start

/-! ## What a turn does -/

theorem emit_reframing (thread : Thread) (pcm : List Int16)
    (answer : Except String Bytes) (isOpen : Bool) :
    (thread.emit pcm answer isOpen).reframing = thread.reframing := by
  rw [emit]
  split
  case h_1 => rfl
  case h_2 => split_ifs <;> rfl

theorem emit_phase (thread : Thread) (pcm : List Int16)
    (answer : Except String Bytes) (isOpen : Bool) :
    (thread.emit pcm answer isOpen).phase = thread.phase ∨
      (thread.emit pcm answer isOpen).phase = .returned := by
  rw [emit]
  split
  case h_1 => exact Or.inl rfl
  case h_2 =>
      split_ifs
      · exact Or.inl rfl
      · exact Or.inr rfl

/-- A turn finds less than a frame and ends the drain, or takes a frame from
the buffer. -/
theorem turn_cases (thread : Thread) (answer : Except String Bytes)
    (isOpen : Bool) :
    (thread.reframing.reframer.buf.length < frameInterleaved ∧
        thread.turn answer isOpen = { thread with phase := .receiving }) ∨
      (thread.turn answer isOpen).reframing.reframer.buf.length +
          frameInterleaved = thread.reframing.reframer.buf.length ∧
        (thread.turn answer isOpen).reframing =
          thread.reframing.nextFrame.1 ∧
        ((thread.turn answer isOpen).phase = thread.phase ∨
          (thread.turn answer isOpen).phase = .returned) := by
  rcases thread.reframing.nextFrame_cases with
    ⟨hshort, hnext⟩ | ⟨frame, rest, hbuf, hlength, hnext⟩
  · exact Or.inl ⟨hshort, by rw [turn, hnext]⟩
  · right
    rw [turn, hnext]
    dsimp only
    refine ⟨?_, emit_reframing _ _ _ _, emit_phase _ _ _ _⟩
    rw [emit_reframing, hbuf, List.length_append, hlength, Nat.add_comm]

/-- The encoder's length check passes every frame of the reframer: it goes out
unless libopus fails. -/
theorem turn_sent (thread : Thread) (opus : Bytes)
    (hfull : frameInterleaved ≤ thread.reframing.reframer.buf.length) :
    (thread.turn (.ok opus) true).sent.length = thread.sent.length + 1 := by
  rcases thread.reframing.nextFrame_cases with
    ⟨hshort, -⟩ | ⟨frame, rest, -, hlength, hnext⟩
  · exact absurd hfull (Nat.not_le.mpr hshort)
  · have hencode : encode frame (.ok opus) = .ok opus :=
      if_neg (not_not.mpr hlength)
    rw [turn, hnext]
    dsimp only
    rw [emit, hencode]
    exact List.length_append

/-- Nothing is lost, and a thread that waits for a buffer has less than a
frame left. -/
structure Inv (thread : Thread) : Prop where
  lossless : thread.reframing.Lossless
  drained : thread.phase = .receiving →
    thread.reframing.reframer.buf.length < frameInterleaved

theorem inv_start : Inv start where
  lossless := Reframing.lossless_new
  drained _ := frameInterleaved_pos

theorem Inv.turn {thread : Thread} (h : thread.Inv)
    (hphase : thread.phase = .draining) (answer : Except String Bytes)
    (isOpen : Bool) : (thread.turn answer isOpen).Inv := by
  rcases thread.turn_cases answer isOpen with
    ⟨hshort, hturn⟩ | ⟨-, hreframing, hnext⟩
  · rw [hturn]
    exact ⟨h.lossless, fun _ => hshort⟩
  · constructor
    · rw [hreframing]
      exact h.lossless.nextFrame
    · intro hreceiving
      rw [hphase, hreceiving] at hnext
      simp at hnext

theorem Inv.step {thread : Thread} (event : Event) (h : thread.Inv) :
    (thread.step event).Inv := by
  cases event with
  | received samples captureTsUs =>
      rw [Thread.step]
      split
      case isTrue =>
          exact ⟨h.lossless.push samples captureTsUs,
            fun hphase => Phase.noConfusion hphase⟩
      case isFalse => exact h
  | timedOut => exact h
  | turn answer isOpen =>
      rw [Thread.step]
      split
      case isTrue hphase => exact h.turn hphase answer isOpen
      case isFalse => exact h
  | stop =>
      rw [Thread.step]
      split
      case isTrue => exact ⟨h.lossless, fun hphase => Phase.noConfusion hphase⟩
      case isFalse => exact h

/-! ## Sequence numbers -/

/-- The datagrams are packets numbered from one on, and a thread that runs has
the last one's number. -/
structure Numbered (thread : Thread) : Prop where
  seq : thread.phase ≠ .returned →
    thread.seq = UInt16.ofNat thread.sent.length
  sent : ∀ k datagram, thread.sent[k]? = some datagram →
    ∃ tsUs opus, AudioDatagramHeader.parse datagram =
      .ok (⟨UInt16.ofNat (k + 1), tsUs⟩, opus)

theorem numbered_start : Numbered start where
  seq _ := rfl
  sent k datagram h := by cases h

theorem Numbered.withReframing {thread : Thread} (h : thread.Numbered)
    (reframing : Reframing) :
    ({ thread with reframing := reframing } : Thread).Numbered where
  seq := h.seq
  sent := h.sent

theorem Numbered.emit {thread : Thread} (h : thread.Numbered)
    (hphase : thread.phase ≠ .returned) (pcm : List Int16)
    (answer : Except String Bytes) (isOpen : Bool) :
    (thread.emit pcm answer isOpen).Numbered := by
  have hnext : thread.seq + 1 = UInt16.ofNat (thread.sent.length + 1) := by
    rw [h.seq hphase, UInt16.ofNat_add]
    rfl
  rw [Thread.emit]
  split
  case h_1 => exact h
  case h_2 opus hopus =>
      dsimp only
      split_ifs
      · constructor
        · intro _
          rw [List.length_append, hnext]
          rfl
        · intro k datagram hdatagram
          rw [List.getElem?_append] at hdatagram
          split_ifs at hdatagram with hold
          · exact h.sent k datagram hdatagram
          · rw [List.getElem?_singleton] at hdatagram
            split_ifs at hdatagram with hlast
            have hk : k = thread.sent.length := by omega
            cases hdatagram
            refine ⟨wireTs thread.reframing.reframer.lastTsUs, opus, ?_⟩
            rw [AudioDatagramHeader.parse_encodeWithPayload, hnext, hk]
      · exact ⟨fun hreturned => absurd rfl hreturned, h.sent⟩

theorem Numbered.turn {thread : Thread} (h : thread.Numbered)
    (hphase : thread.phase ≠ .returned) (answer : Except String Bytes)
    (isOpen : Bool) : (thread.turn answer isOpen).Numbered := by
  rcases thread.reframing.nextFrame_cases with
    ⟨-, hnext⟩ | ⟨frame, rest, -, -, hnext⟩
  · rw [Thread.turn, hnext]
    exact ⟨fun _ => h.seq hphase, h.sent⟩
  · rw [Thread.turn, hnext]
    dsimp only
    apply Numbered.emit
    · exact h.withReframing _
    · exact hphase

theorem Numbered.step {thread : Thread} (event : Event)
    (h : thread.Numbered) : (thread.step event).Numbered := by
  cases event with
  | received samples captureTsUs =>
      rw [Thread.step]
      split
      case isTrue hphase =>
          have hruns : thread.phase ≠ .returned := by
            rw [hphase]
            exact Phase.noConfusion
          exact ⟨fun _ => h.seq hruns, h.sent⟩
      case isFalse => exact h
  | timedOut => exact h
  | turn answer isOpen =>
      rw [Thread.step]
      split
      case isTrue hphase =>
          have hruns : thread.phase ≠ .returned := by
            rw [hphase]
            exact Phase.noConfusion
          exact h.turn hruns answer isOpen
      case isFalse => exact h
  | stop =>
      rw [Thread.step]
      split
      case isTrue => exact ⟨fun hruns => absurd rfl hruns, h.sent⟩
      case isFalse => exact h

/-- The packets that a run sends are numbered without a gap, also across
encoder errors. -/
theorem run_numbered (events : List Event) : (run events).Numbered :=
  EventRun.foldl_preserves (fun _ event => Numbered.step event) events
    numbered_start

/-! ## The drain -/

/-- The turns of a drain, whatever the encoder and the sender task answer. -/
def drain (thread : Thread) (answers : List (Except String Bytes × Bool)) :
    Thread :=
  answers.foldl (fun thread (answer, isOpen) =>
    thread.step (.turn answer isOpen)) thread

theorem drain_of_ne {thread : Thread} (hphase : thread.phase ≠ .draining)
    (answers : List (Except String Bytes × Bool)) :
    thread.drain answers = thread := by
  induction answers with
  | nil => rfl
  | cons answer answers ih =>
      have hstep : thread.step (.turn answer.1 answer.2) = thread :=
        if_neg hphase
      change (thread.step (.turn answer.1 answer.2)).drain answers = thread
      rw [hstep, ih]

/-- A drain ends within one turn more than there are full frames. -/
theorem drain_ends (thread : Thread)
    {answers : List (Except String Bytes × Bool)}
    (hlong : thread.reframing.reframer.buf.length <
      answers.length * frameInterleaved) :
    (thread.drain answers).phase ≠ .draining := by
  induction answers generalizing thread with
  | nil => simp at hlong
  | cons answer answers ih =>
      by_cases hphase : thread.phase = .draining
      · have hstep : thread.step (.turn answer.1 answer.2) =
            thread.turn answer.1 answer.2 := if_pos hphase
        change ((thread.step (.turn answer.1 answer.2)).drain answers).phase ≠
          .draining
        rw [hstep]
        rcases thread.turn_cases answer.1 answer.2 with
          ⟨-, hturn⟩ | ⟨hshorter, -, -⟩
        · have hended : (thread.turn answer.1 answer.2).phase ≠ .draining := by
            rw [hturn]
            exact Phase.noConfusion
          rw [drain_of_ne hended]
          exact hended
        · apply ih
          rw [List.length_cons, Nat.succ_mul] at hlong
          omega
      · rw [drain_of_ne hphase]
        exact hphase

end Thread

/-- What a run of the encode thread owes to its buffers. -/
structure Thread.Serves (thread : Thread) : Prop where
  lossless : thread.reframing.Lossless
  /-- A thread that receives has less than a frame left, and a buffer that it
  receives is pushed. -/
  drained : thread.phase = .receiving →
    thread.reframing.reframer.buf.length < frameInterleaved
  pushed : thread.phase = .receiving → ∀ samples captureTsUs,
    thread.step (.received samples captureTsUs) =
      { thread with
        reframing := thread.reframing.push samples captureTsUs
        phase := .draining }
  /-- A drain ends within one turn more than there are full frames, and leaves
  less than a frame unless the sender task is gone. -/
  ends : ∀ answers, thread.reframing.reframer.buf.length <
      answers.length * frameInterleaved →
    (thread.drain answers).phase ≠ .draining ∧
      ((thread.drain answers).phase = .receiving →
        (thread.drain answers).reframing.reframer.buf.length <
          frameInterleaved)
  /-- A full frame that libopus encodes goes out, under the next number. -/
  sends : thread.phase = .draining →
    frameInterleaved ≤ thread.reframing.reframer.buf.length → ∀ opus,
      (thread.step (.turn (.ok opus) true)).sent.length =
        thread.sent.length + 1
  numbered : thread.Numbered

theorem Thread.Inv.serves {thread : Thread} (h : thread.Inv)
    (hnumbered : thread.Numbered) : thread.Serves where
  lossless := h.lossless
  drained := h.drained
  pushed hreceiving _ _ := if_pos hreceiving
  ends answers hlong := by
    have hdrained : (thread.drain answers).Inv :=
      EventRun.foldl_preserves (fun _ answer h => h.step (.turn answer.1
        answer.2)) answers h
    exact ⟨thread.drain_ends hlong, hdrained.drained⟩
  sends hdraining hfull opus := by
    rw [Thread.step, if_pos hdraining]
    exact thread.turn_sent opus hfull
  numbered := hnumbered

/-- The reframer is a lossless queue of full frames under any calls, and a
drain of it leaves the part of a frame.  The encode thread pushes every buffer
that it receives, its drains end and leave less than a frame, and what it sends
is numbered without a gap. -/
theorem reframer_lossless :
    (∀ calls : List Reframing.Call,
        (calls.foldl Reframing.call .new).Lossless) ∧
      (∀ (reframing : Reframing) turns,
        reframing.reframer.buf.length / frameInterleaved ≤ turns →
          (reframing.drain turns).reframer.buf.length =
            reframing.reframer.buf.length % frameInterleaved) ∧
      ∀ events : List Event, (Thread.run events).Serves := by
  have hcall : ∀ reframing call, Reframing.Lossless reframing →
      (Reframing.call reframing call).Lossless :=
    fun reframing call h => h.call call
  refine ⟨?_, ?_, ?_⟩
  · exact fun calls =>
      EventRun.foldl_preserves hcall calls Reframing.lossless_new
  · exact fun reframing turns => reframing.length_drain
  · intro events
    have hinv : (Thread.run events).Inv :=
      EventRun.foldl_preserves (fun _ event => Thread.Inv.step event) events
        Thread.inv_start
    exact hinv.serves (Thread.run_numbered events)

end GameStreamer.AudioPipeline
