import GameStreamer.Core.EventRun
import GameStreamer.Core.ConsecutiveIds
import GameStreamer.Encode.Nvenc
import GameStreamer.Encode.Sw
import GameStreamer.Encode.VideoToolbox

/-!
# The numbering of the chunks

A run of a back end is a list of calls, in any order and with any answers.
The back ends that take an id where they put a chunk out number their chunks
without a hole.  NVENC spends an id on an empty bitstream too, and the hole
shows where such a frame lies between two with output.
-/

namespace GameStreamer.Encode

open ConsecutiveIds

/-- One call of the trait, or a step of the back end's own thread. -/
inductive Call (Answer Background : Type) where
  | submit (frame : GpuFrame) (directives : FrameDirectives) (answer : Answer)
  /-- `poll_bitstream` or `next_chunk`. -/
  | poll
  | updateRate (bitrateBps : UInt32) (answer : Answer)
  | forceIdr
  | invalidateRefs (lastGoodWire : UInt32) (answer : Answer)
  | background (input : Background)

/-- What a call does: the chunk that the back end puts out during it, and the
chunk that the caller receives. -/
structure Effect (Enc : Type) where
  encoder : Enc
  emitted : Option EncodedChunk
  polled : Option EncodedChunk

section Runs

variable {Enc Answer Background : Type}
  (backend : Encoder Enc Answer Background)

def Encoder.call (encoder : Enc) : Call Answer Background → Effect Enc
  | .submit frame directives answer =>
      let (after, result) := backend.submit encoder frame directives answer
      ⟨after, result.toOption.join, none⟩
  | .poll =>
      let (after, result) := backend.pollBitstream encoder
      ⟨after, none, result.toOption.join⟩
  | .updateRate bitrateBps answer =>
      ⟨(backend.updateRate encoder bitrateBps answer).1, none, none⟩
  | .forceIdr => ⟨backend.forceIdr encoder, none, none⟩
  | .invalidateRefs _ _ => ⟨encoder, none, none⟩
  | .background input =>
      let (after, chunk) := backend.background encoder input
      ⟨after, chunk, none⟩

def Encoder.next (encoder : Enc) (call : Call Answer Background) : Enc :=
  (backend.call encoder call).encoder

/-- The chunks that a run puts out, in order. -/
def Encoder.emitted (encoder : Enc) :
    List (Call Answer Background) → List EncodedChunk
  | [] => []
  | call :: calls =>
      (backend.call encoder call).emitted.toList ++
        Encoder.emitted (backend.next encoder call) calls

/-- The chunks that the caller receives, in order. -/
def Encoder.polled (encoder : Enc) :
    List (Call Answer Background) → List EncodedChunk
  | [] => []
  | call :: calls =>
      (backend.call encoder call).polled.toList ++
        Encoder.polled (backend.next encoder call) calls

def Encoder.emittedIds (encoder : Enc)
    (calls : List (Call Answer Background)) : List ℕ :=
  (backend.emitted encoder calls).map EncodedChunk.frameId

/-- A call advances the counter exactly with the chunk that it puts out. -/
structure Encoder.Counts (nextFrameId : Enc → ℕ) (encoder : Enc)
    (call : Call Answer Background) : Prop where
  advanced : nextFrameId (backend.next encoder call) = nextFrameId encoder +
    (backend.call encoder call).emitted.toList.length
  numbered : ∀ chunk ∈ (backend.call encoder call).emitted,
    chunk.frameId = nextFrameId encoder

/-- A call keeps the chunks in order between putting them out and handing them
over. -/
def Encoder.Conserves (queue : Enc → List EncodedChunk) (encoder : Enc)
    (call : Call Answer Background) : Prop :=
  queue encoder ++ (backend.call encoder call).emitted.toList =
    (backend.call encoder call).polled.toList ++
      queue (backend.next encoder call)

/-- A frame is submitted only once the caller holds every chunk. -/
def Drained (queue : Enc → List EncodedChunk) (encoder : Enc) :
    Call Answer Background → Prop
  | .submit _ _ _ => queue encoder = []
  | _ => True

theorem Encoder.call_submit {encoder after : Enc} {frame : GpuFrame}
    {directives : FrameDirectives} {answer : Answer}
    {result : Except EncodeError (Option EncodedChunk)}
    (h : backend.submit encoder frame directives answer = (after, result)) :
    backend.call encoder (.submit frame directives answer) =
      ⟨after, result.toOption.join, none⟩ := by
  rw [Encoder.call, h]

theorem Encoder.call_updateRate {encoder after : Enc} {bitrateBps : UInt32}
    {answer : Answer} {result : Except EncodeError Unit}
    (h : backend.updateRate encoder bitrateBps answer = (after, result)) :
    backend.call encoder (.updateRate bitrateBps answer) =
      ⟨after, none, none⟩ := by
  rw [Encoder.call, h]

theorem Encoder.call_background {encoder after : Enc} {input : Background}
    {chunk : Option EncodedChunk}
    (h : backend.background encoder input = (after, chunk)) :
    backend.call encoder (.background input) = ⟨after, chunk, none⟩ := by
  rw [Encoder.call, h]

variable {backend}

theorem Encoder.Counts.of_silent {nextFrameId : Enc → ℕ} {encoder after : Enc}
    {call : Call Answer Background} {polled : Option EncodedChunk}
    (hcall : backend.call encoder call = ⟨after, none, polled⟩)
    (hnext : nextFrameId after = nextFrameId encoder) :
    backend.Counts nextFrameId encoder call where
  advanced := by
    rw [Encoder.next, hcall]
    exact hnext
  numbered chunk hmem := by
    rw [hcall] at hmem
    cases hmem

theorem Encoder.Counts.of_chunk {nextFrameId : Enc → ℕ} {encoder after : Enc}
    {call : Call Answer Background} {chunk : EncodedChunk}
    {polled : Option EncodedChunk}
    (hcall : backend.call encoder call = ⟨after, some chunk, polled⟩)
    (hnext : nextFrameId after = nextFrameId encoder + 1)
    (hid : chunk.frameId = nextFrameId encoder) :
    backend.Counts nextFrameId encoder call where
  advanced := by
    rw [Encoder.next, hcall]
    exact hnext
  numbered chunk hmem := by
    rw [hcall] at hmem
    cases hmem
    exact hid

theorem Encoder.Conserves.of_call {queue : Enc → List EncodedChunk}
    {encoder : Enc} {call : Call Answer Background} {effect : Effect Enc}
    (hcall : backend.call encoder call = effect)
    (h : queue encoder ++ effect.emitted.toList =
      effect.polled.toList ++ queue effect.encoder) :
    backend.Conserves queue encoder call := by
  rw [Encoder.Conserves, Encoder.next, hcall]
  exact h

/-- A call that neither puts a chunk out nor hands one over. -/
theorem Encoder.Conserves.of_quiet {queue : Enc → List EncodedChunk}
    {encoder after : Enc} {call : Call Answer Background}
    (hcall : backend.call encoder call = ⟨after, none, none⟩)
    (h : queue after = queue encoder) :
    backend.Conserves queue encoder call :=
  .of_call hcall ((List.append_nil _).trans h.symm)

/-- Where every call advances the counter exactly with its chunk, the chunks
of a run are numbered from the counter on. -/
theorem emittedIds_eq_range' {nextFrameId : Enc → ℕ}
    (hcounts : ∀ encoder call, backend.Counts nextFrameId encoder call)
    (encoder : Enc) (calls : List (Call Answer Background)) :
    backend.emittedIds encoder calls = List.range' (nextFrameId encoder)
      (backend.emitted encoder calls).length := by
  induction calls generalizing encoder with
  | nil => rfl
  | cons call calls ih =>
      obtain ⟨hnext, hid⟩ := hcounts encoder call
      have hrest := ih (backend.next encoder call)
      rw [Encoder.emittedIds] at hrest ⊢
      rw [Encoder.emitted, List.map_append, hrest, hnext]
      cases hemitted : (backend.call encoder call).emitted with
      | none => rfl
      | some chunk =>
          rw [Option.toList_some, List.map_singleton, hid chunk hemitted,
            List.length_append, List.length_singleton, Nat.add_comm 1,
            List.range'_succ]
          rfl

/-- Where every call keeps the chunks in order, so does a run. -/
theorem queue_append_emitted (queue : Enc → List EncodedChunk)
    {cond : Enc → Call Answer Background → Prop}
    (hcall : ∀ encoder call, cond encoder call →
      backend.Conserves queue encoder call)
    (encoder : Enc) (calls : List (Call Answer Background))
    (halong : EventRun.Along backend.next cond encoder calls) :
    queue encoder ++ backend.emitted encoder calls =
      backend.polled encoder calls ++
        queue (calls.foldl backend.next encoder) := by
  induction calls generalizing encoder with
  | nil => exact List.append_nil _
  | cons call calls ih =>
      calc queue encoder ++ backend.emitted encoder (call :: calls)
          = (queue encoder ++ (backend.call encoder call).emitted.toList) ++
              backend.emitted (backend.next encoder call) calls := by
            rw [Encoder.emitted, List.append_assoc]
        _ = (backend.call encoder call).polled.toList ++
              (queue (backend.next encoder call) ++
                backend.emitted (backend.next encoder call) calls) := by
            rw [(hcall encoder call halong.1 : _ = _), List.append_assoc]
        _ = _ := by
            rw [ih _ halong.2, Encoder.polled, List.append_assoc,
              List.foldl_cons]

end Runs

/-! ## The software back end and VideoToolbox -/

namespace Sw

def nextFrameId (encoder : SwEncoder) : ℕ :=
  (encoder.state.map Open.nextFrameId).getD 0

/-- Only a chunk takes an id. -/
theorem counts (encoder : SwEncoder) (call : Call OpenH264 Empty) :
    backend.Counts nextFrameId encoder call := by
  cases call with
  | submit frame directives codec =>
      rcases submit_cases encoder frame directives codec with
        ⟨after, error, h, hstate⟩ | ⟨after, encoded, h, hstate, -⟩ |
        ⟨state, encoded, chunk, h, hstate, -, -, hid, -⟩
      · have hcall := Encoder.call_submit backend h
        refine .of_silent hcall ?_
        rw [nextFrameId, nextFrameId, hstate]
      · have hcall := Encoder.call_submit backend h
        refine .of_silent hcall ?_
        rw [nextFrameId, nextFrameId, hstate]
      · have hcall := Encoder.call_submit backend h
        refine .of_chunk hcall ?_ ?_
        · rw [nextFrameId, nextFrameId, hstate]
          rfl
        · rw [hid, nextFrameId, hstate]
          rfl
  | poll =>
      refine .of_silent rfl ?_
      change nextFrameId (pollBitstream encoder).1 = _
      rw [nextFrameId, nextFrameId, pollBitstream, Option.map_map]
      rfl
  | updateRate bitrateBps codec =>
      rcases updateRate_cases encoder bitrateBps codec with
        ⟨error, h⟩ | ⟨state, hstate, h⟩
      · have hcall := Encoder.call_updateRate backend h
        exact .of_silent hcall rfl
      · have hcall := Encoder.call_updateRate backend h
        refine .of_silent hcall ?_
        rw [nextFrameId, nextFrameId, hstate]
        rfl
  | forceIdr => exact .of_silent rfl rfl
  | invalidateRefs lastGoodWire codec => exact .of_silent rfl rfl
  | background input => exact input.elim

/-- The chunk that waits to be polled. -/
def queue (encoder : SwEncoder) : List EncodedChunk :=
  (encoder.state.bind Open.pending).toList

theorem conserves (encoder : SwEncoder) (call : Call OpenH264 Empty)
    (hdrained : Drained queue encoder call) :
    backend.Conserves queue encoder call := by
  cases call with
  | submit frame directives codec =>
      rcases submit_cases encoder frame directives codec with
        ⟨after, error, h, hstate⟩ | ⟨after, encoded, h, hstate, -⟩ |
        ⟨state, encoded, chunk, h, -⟩
      · have hcall := Encoder.call_submit backend h
        refine .of_quiet hcall ?_
        rw [queue, queue, hstate]
      · have hcall := Encoder.call_submit backend h
        refine .of_quiet hcall ?_
        rw [queue, queue, hstate]
      · have hcall := Encoder.call_submit backend h
        refine .of_call hcall ?_
        rw [(hdrained : queue encoder = [])]
        rfl
  | poll =>
      refine .of_call rfl ?_
      have hempty : queue (pollBitstream encoder).1 = [] := by
        rw [queue, pollBitstream]
        cases encoder.state <;> rfl
      change queue encoder ++ [] = queue encoder ++ queue (pollBitstream _).1
      rw [hempty]
  | updateRate bitrateBps codec =>
      rcases updateRate_cases encoder bitrateBps codec with
        ⟨error, h⟩ | ⟨state, hstate, h⟩
      · have hcall := Encoder.call_updateRate backend h
        exact .of_quiet hcall rfl
      · have hcall := Encoder.call_updateRate backend h
        refine .of_quiet hcall ?_
        rw [queue, queue, hstate]
        rfl
  | forceIdr => exact .of_quiet rfl rfl
  | invalidateRefs lastGoodWire codec => exact .of_quiet rfl rfl
  | background input => exact input.elim

end Sw

namespace VideoToolbox

theorem counts (encoder : VideoToolboxEncoder)
    (call : Call Framework HandlerCall) :
    backend.Counts VideoToolboxEncoder.nextFrameId encoder call := by
  cases call with
  | submit frame directives framework =>
      rcases submit_cases encoder frame directives framework with
        ⟨flag, error, h⟩ | h
      · have hcall := Encoder.call_submit backend h
        exact .of_silent hcall rfl
      · have hcall := Encoder.call_submit backend h
        exact .of_silent hcall rfl
  | poll => exact .of_silent rfl rfl
  | updateRate bitrateBps framework =>
      rcases updateRate_cases encoder bitrateBps framework with ⟨error, h⟩ | h
      · have hcall := Encoder.call_updateRate backend h
        exact .of_silent hcall rfl
      · have hcall := Encoder.call_updateRate backend h
        exact .of_silent hcall rfl
  | forceIdr => exact .of_silent rfl rfl
  | invalidateRefs lastGoodWire framework => exact .of_silent rfl rfl
  | background input =>
      rcases handle_cases encoder input with
        ⟨-, h⟩ | ⟨handler, rest, -, -, h⟩ |
        ⟨handler, rest, chunk, -, -, hid, -, h⟩
      · have hcall := Encoder.call_background backend h
        exact .of_silent hcall rfl
      · have hcall := Encoder.call_background backend h
        exact .of_silent hcall rfl
      · have hcall := Encoder.call_background backend h
        exact .of_chunk hcall rfl hid

/-- The channel keeps what the handlers emit. -/
theorem conserves (encoder : VideoToolboxEncoder)
    (call : Call Framework HandlerCall) :
    backend.Conserves VideoToolboxEncoder.channel encoder call := by
  cases call with
  | submit frame directives framework =>
      rcases submit_cases encoder frame directives framework with
        ⟨flag, error, h⟩ | h
      · have hcall := Encoder.call_submit backend h
        exact .of_quiet hcall rfl
      · have hcall := Encoder.call_submit backend h
        exact .of_quiet hcall rfl
  | poll =>
      refine .of_call rfl ?_
      change encoder.channel ++ [] =
        encoder.channel.head?.toList ++ encoder.channel.tail
      cases encoder.channel with
      | nil => rfl
      | cons chunk rest => exact List.append_nil _
  | updateRate bitrateBps framework =>
      rcases updateRate_cases encoder bitrateBps framework with ⟨error, h⟩ | h
      · have hcall := Encoder.call_updateRate backend h
        exact .of_quiet hcall rfl
      · have hcall := Encoder.call_updateRate backend h
        exact .of_quiet hcall rfl
  | forceIdr => exact .of_quiet rfl rfl
  | invalidateRefs lastGoodWire framework => exact .of_quiet rfl rfl
  | background input =>
      rcases handle_cases encoder input with
        ⟨-, h⟩ | ⟨handler, rest, -, -, h⟩ |
        ⟨handler, rest, chunk, -, -, -, -, h⟩
      · have hcall := Encoder.call_background backend h
        exact .of_quiet hcall rfl
      · have hcall := Encoder.call_background backend h
        exact .of_quiet hcall rfl
      · have hcall := Encoder.call_background backend h
        exact .of_call hcall rfl

end VideoToolbox

/-! ## NVENC -/

namespace Nvenc

/-- The bitstream that the driver returns during a call, if the call gets that
far. -/
def taken (encoder : NvencEncoder) : Call Driver Empty → Option Bytes
  | .submit frame directives driver =>
      (takeBitstream encoder frame directives driver).2.toOption.map Prod.fst
  | _ => none

/-- The bitstreams that the driver returns in a run, in order. -/
def bitstreams (encoder : NvencEncoder) : List (Call Driver Empty) → List Bytes
  | [] => []
  | call :: calls =>
      (taken encoder call).toList ++
        bitstreams (backend.next encoder call) calls

/-- A call without a bitstream puts nothing out and keeps the counter; a call
with one advances it, and puts a chunk out if the bitstream is not empty. -/
theorem call_of_taken (encoder : NvencEncoder) (call : Call Driver Empty) :
    match taken encoder call with
    | none => (backend.call encoder call).emitted = none ∧
        (backend.next encoder call).nextFrameId = encoder.nextFrameId
    | some data =>
        ((backend.call encoder call).emitted.map EncodedChunk.frameId =
          if data = [] then none else some encoder.nextFrameId) ∧
        (backend.next encoder call).nextFrameId =
          encoder.nextFrameId + 1 := by
  cases call with
  | submit frame directives driver =>
      obtain ⟨session, hopened⟩ :=
        takeBitstream_keeps encoder frame directives driver
      rcases submit_cases encoder frame directives driver with
        ⟨error, htaken, h⟩ | ⟨wasIdr, htaken, h⟩ |
        ⟨chunk, wasIdr, htaken, hdata, -, hid, -, h⟩
      · simp [taken, htaken, Encoder.next, Encoder.call, backend, h, hopened,
          Except.toOption]
      · simp [taken, htaken, Encoder.next, Encoder.call, backend, h, hopened,
          spend, Except.toOption]
      · rw [hopened] at hid
        simp [taken, htaken, Encoder.next, Encoder.call, backend, h, hopened,
          spend, hdata, hid, Except.toOption]
  | poll => exact ⟨rfl, rfl⟩
  | updateRate bitrateBps driver =>
      obtain ⟨config, session, h⟩ := updateRate_keeps encoder bitrateBps driver
      have hnext := congrArg NvencEncoder.nextFrameId h
      exact ⟨rfl, hnext⟩
  | forceIdr => exact ⟨rfl, rfl⟩
  | invalidateRefs lastGoodWire driver => exact ⟨rfl, rfl⟩
  | background input => exact input.elim

/-- Which of the bitstreams are not empty. -/
def outcomes (encoder : NvencEncoder) (calls : List (Call Driver Empty)) :
    List Bool :=
  (bitstreams encoder calls).map fun data => !data.isEmpty

theorem outcomes_cons (encoder : NvencEncoder) (call : Call Driver Empty)
    (calls : List (Call Driver Empty)) :
    outcomes encoder (call :: calls) =
      ((taken encoder call).toList.map fun data => !data.isEmpty) ++
        outcomes (backend.next encoder call) calls := by
  rw [outcomes, bitstreams, List.map_append]
  rfl

/-- The chunks carry the numbers of their bitstreams. -/
theorem emittedIds_eq_idsFrom (encoder : NvencEncoder)
    (calls : List (Call Driver Empty)) :
    backend.emittedIds encoder calls =
      idsFrom encoder.nextFrameId (outcomes encoder calls) := by
  induction calls generalizing encoder with
  | nil => rfl
  | cons call calls ih =>
      have hcall := call_of_taken encoder call
      have hrest := ih (backend.next encoder call)
      rw [Encoder.emittedIds] at hrest ⊢
      rw [Encoder.emitted, List.map_append, hrest, outcomes_cons]
      cases htaken : taken encoder call with
      | none =>
          rw [htaken] at hcall
          rw [hcall.1, hcall.2]
          rfl
      | some data =>
          rw [htaken] at hcall
          rw [hcall.2, ← Option.toList_map, hcall.1]
          cases data with
          | nil => rfl
          | cons byte rest => rfl

/-- The chunk that waits to be polled. -/
def queue (encoder : NvencEncoder) : List EncodedChunk := encoder.pending.toList

theorem conserves (encoder : NvencEncoder) (call : Call Driver Empty)
    (hdrained : Drained queue encoder call) :
    backend.Conserves queue encoder call := by
  cases call with
  | submit frame directives driver =>
      obtain ⟨session, hopened⟩ :=
        takeBitstream_keeps encoder frame directives driver
      rcases submit_cases encoder frame directives driver with
        ⟨error, -, h⟩ | ⟨wasIdr, -, h⟩ | ⟨chunk, wasIdr, -, -, -, -, -, h⟩
      · have hcall := Encoder.call_submit backend h
        refine .of_quiet hcall ?_
        rw [hopened]
        rfl
      · have hcall := Encoder.call_submit backend h
        refine .of_quiet hcall ?_
        rw [hopened]
        rfl
      · have hcall := Encoder.call_submit backend h
        refine .of_call hcall ?_
        rw [(hdrained : queue encoder = [])]
        rfl
  | poll => exact .of_call rfl rfl
  | updateRate bitrateBps driver =>
      obtain ⟨config, session, h⟩ := updateRate_keeps encoder bitrateBps driver
      refine .of_quiet rfl ?_
      change queue (updateRate encoder bitrateBps driver).1 = _
      rw [h]
      rfl
  | forceIdr => exact .of_quiet rfl rfl
  | invalidateRefs lastGoodWire driver => exact .of_quiet rfl rfl
  | background input => exact input.elim

end Nvenc

/-- The software back end and VideoToolbox number their chunks without a hole,
whatever the codec answers.  NVENC does so exactly where no empty bitstream
lies between two others. -/
theorem frameIds_consecutive (sw : Sw.SwEncoder)
    (swCalls : List (Call Sw.OpenH264 Empty))
    (videoToolbox : VideoToolbox.VideoToolboxEncoder)
    (videoToolboxCalls :
      List (Call VideoToolbox.Framework VideoToolbox.HandlerCall))
    (nvenc : Nvenc.NvencEncoder)
    (nvencCalls : List (Call Nvenc.Driver Empty)) :
    Consecutive (Sw.backend.emittedIds sw swCalls) ∧
      Consecutive
        (VideoToolbox.backend.emittedIds videoToolbox videoToolboxCalls) ∧
      (Consecutive (Nvenc.backend.emittedIds nvenc nvencCalls) ↔
        ¬[true, false, true].Sublist (Nvenc.outcomes nvenc nvencCalls)) := by
  refine ⟨?_, ?_, ?_⟩
  · rw [emittedIds_eq_range' Sw.counts]
    exact consecutive_range' _ _
  · rw [emittedIds_eq_range' VideoToolbox.counts]
    exact consecutive_range' _ _
  · rw [Nvenc.emittedIds_eq_idsFrom]
    exact consecutive_idsFrom_iff _ _

/-- A caller that drains the encoder before every frame receives the chunks
that are put out, in their order and without a gap; VideoToolbox keeps a
channel and needs no such caller. -/
theorem polled_append_queue :
    (∀ encoder calls,
      EventRun.Along Sw.backend.next (Drained Sw.queue) encoder calls →
        Sw.queue encoder ++ Sw.backend.emitted encoder calls =
          Sw.backend.polled encoder calls ++
            Sw.queue (calls.foldl Sw.backend.next encoder)) ∧
    (∀ encoder calls,
      encoder.channel ++ VideoToolbox.backend.emitted encoder calls =
        VideoToolbox.backend.polled encoder calls ++
          (calls.foldl VideoToolbox.backend.next encoder).channel) ∧
    ∀ encoder calls,
      EventRun.Along Nvenc.backend.next (Drained Nvenc.queue) encoder calls →
        Nvenc.queue encoder ++ Nvenc.backend.emitted encoder calls =
          Nvenc.backend.polled encoder calls ++
            Nvenc.queue (calls.foldl Nvenc.backend.next encoder) := by
  refine ⟨fun encoder calls halong => ?_, fun encoder calls => ?_,
    fun encoder calls halong => ?_⟩
  · exact queue_append_emitted Sw.queue Sw.conserves encoder calls halong
  · exact queue_append_emitted VideoToolbox.VideoToolboxEncoder.channel
      (fun encoder call _ => VideoToolbox.conserves encoder call) encoder
      calls (EventRun.along_of_forall (fun _ _ => trivial) encoder)
  · exact queue_append_emitted Nvenc.queue Nvenc.conserves encoder calls
      halong

/-! ## A hole -/

namespace Nvenc

/-- A frame with output, one without, and one with output again. -/
def emptyBetween : List (Call Driver Empty) :=
  [[0, 0, 1, 0x65], [], [0, 0, 1, 0x41]].flatMap fun data =>
    [.submit smallFrame ⟨false⟩ (answering data), .poll]

end Nvenc

/-- The caller polls after every frame, and receives the ids 0 and 2. -/
theorem frameIds_hole :
    let encoder := (Nvenc.backend.openWith Nvenc.new smallConfig
      (Nvenc.answering [])).1
    (Nvenc.backend.polled encoder Nvenc.emptyBetween).map
        EncodedChunk.frameId = [0, 2] ∧
      ¬Consecutive (Nvenc.backend.emittedIds encoder Nvenc.emptyBetween) := by
  decide +kernel

end GameStreamer.Encode
