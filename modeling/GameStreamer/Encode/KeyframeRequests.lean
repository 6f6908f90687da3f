import GameStreamer.Encode.EncodeThread
import GameStreamer.Encode.Nvenc
import GameStreamer.Encode.Sw
import GameStreamer.Encode.VideoToolbox

/-!
# Keyframe requests

A request sets a flag, which the next `submit` takes; the codec makes that
frame an IDR if it outputs it, and forgets the instruction if it does not.
This module proves for each back end that no request is lost in a run where
every frame that carries one comes out, and shows how a dropped frame loses it.
-/

namespace GameStreamer.Encode

open EncodeThread Requests

/-- What is asked of the answers to a `submit` and of the back end's thread for
a request not to get lost: a frame that carries one comes out as a keyframe. -/
structure Demand (Enc Answer Background : Type) where
  submit : Enc → FrameDirectives → Answer → Prop
  background : Enc → Background → Prop

/-- After every request the first chunk of a later frame is an IDR. -/
def RequestsHonoured (history : List (Entry EncodedChunk)) : Prop :=
  Honoured EncodedChunk.serial (fun chunk => chunk.kind = .idr) history

instance (history : List (Entry EncodedChunk)) :
    Decidable (RequestsHonoured history) :=
  inferInstanceAs (Decidable (Honoured _ _ _))

section Thread

variable {Enc Answer Background : Type}
  (backend : Encoder Enc Answer Background)

namespace Demand

/-- A demand on the answers to a `submit`. -/
abbrev ofSubmit (asked : Enc → FrameDirectives → Answer → Prop) :
    Demand Enc Answer Background :=
  ⟨asked, fun _ _ => True⟩

/-- A demand on what the back end does on its own thread. -/
abbrev ofBackground (asked : Enc → Background → Prop) :
    Demand Enc Answer Background :=
  ⟨fun _ _ _ => True, asked⟩

/-- The event meets the demand in the state that the thread is in. -/
def Met (demand : Demand Enc Answer Background) (state : State Enc) :
    Event Answer Background → Prop
  | .submit _ answer =>
      state.phase = .capturing →
        demand.submit (prepare backend state answer).encoder
          ⟨(prepare backend state answer).forceIdr⟩ answer
  | .background input => demand.background state.encoder input
  | _ => True

instance (demand : Demand Enc Answer Background)
    [∀ encoder directives answer,
      Decidable (demand.submit encoder directives answer)]
    [∀ encoder input, Decidable (demand.background encoder input)]
    (state : State Enc) (event : Event Answer Background) :
    Decidable (demand.Met backend state event) :=
  match event with
  | .submit _ _ => inferInstanceAs (Decidable (_ → _))
  | .background input =>
      inferInstanceAs (Decidable (demand.background state.encoder input))
  | .requestKeyframe => isTrue trivial
  | .requestRecovery _ => isTrue trivial
  | .setBitrate _ => isTrue trivial
  | .nextChunk _ => isTrue trivial
  | .sweep _ => isTrue trivial
  | .stop => isTrue trivial

def and (left right : Demand Enc Answer Background) :
    Demand Enc Answer Background where
  submit encoder directives answer :=
    left.submit encoder directives answer ∧
      right.submit encoder directives answer
  background encoder input :=
    left.background encoder input ∧ right.background encoder input

theorem met_and {left right : Demand Enc Answer Background}
    {state : State Enc} {event : Event Answer Background}
    (hleft : left.Met backend state event)
    (hright : right.Met backend state event) :
    (left.and right).Met backend state event := by
  cases event with
  | submit frame answer => exact fun h => ⟨hleft h, hright h⟩
  | background input => exact ⟨hleft, hright⟩
  | _ => trivial

end Demand

/-- No request is lost in any run in which the codec obeys and the frames that
carry a request come out. -/
def KeepsRequests (obeys delivers : Demand Enc Answer Background)
    (cfg : EncodeConfig) : Prop :=
  ∀ answer events,
    EventRun.Along (step backend) (obeys.Met backend)
        (start backend cfg answer) events →
      EventRun.Along (step backend) (delivers.Met backend)
          (start backend cfg answer) events →
        RequestsHonoured (run backend cfg answer events).history

/-- How a back end keeps its frames in a queue, as long as the demand is met:
which slots it holds, and when a frame can be submitted without pushing out a
chunk that nobody has polled. -/
structure FrameQueue (demand : Demand Enc Answer Background) where
  slots : Enc → List QueueSlot
  Drained : Enc → Prop
  opens : ∀ {cfg answer encoder},
    backend.openWith backend.new cfg answer = (encoder, .ok ()) →
      slots encoder = [] ∧ Drained encoder
  rate : ∀ encoder bitrateBps answer,
    slots (backend.updateRate encoder bitrateBps answer).1 = slots encoder ∧
      (Drained encoder →
        Drained (backend.updateRate encoder bitrateBps answer).1)
  background : ∀ {encoder input}, demand.background encoder input →
    Keeps (slots encoder) (slots (backend.background encoder input).1) ∧
      (Drained encoder → Drained (backend.background encoder input).1)
  submit : ∀ {encoder frame directives answer after made}, Drained encoder →
    demand.submit encoder directives answer →
      backend.submit encoder frame directives answer = (after, .ok made) →
        (slots after = slots encoder ∧ directives.idr = false) ∨
          ∃ sure, slots after = slots encoder ++ [⟨frame.serial, sure⟩] ∧
            (directives.idr = true → sure = true)
  polls : ∀ encoder, ∃ after found,
    backend.pollBitstream encoder = (after, .ok found) ∧
      match found with
      | none => slots after = slots encoder ∧ Drained after
      | some chunk => ∃ sure, slots encoder =
          ⟨chunk.serial, sure⟩ :: slots after ∧
            (sure = true → chunk.kind = .idr)

namespace FrameQueue

variable {backend} {demand : Demand Enc Answer Background}
  (queue : FrameQueue backend demand)

/-- The requests are honoured so far, and the queue keeps the pending ones. -/
structure Inv (state : State Enc) : Prop where
  honoured : RequestsHonoured state.history
  tracks : state.phase ≠ .exited →
    Tracks EncodedChunk.serial state.history (queue.slots state.encoder)
      state.submitted state.forceIdr
  drained : state.phase = .capturing → queue.Drained state.encoder

variable {queue}

/-- A thread that is gone needs no queue. -/
theorem Inv.of_exited {state : State Enc} (hphase : state.phase = .exited)
    (h : RequestsHonoured state.history) : queue.Inv state where
  honoured := h
  tracks hne := absurd hphase hne
  drained hcapturing := Phase.noConfusion (hphase.symm.trans hcapturing)

/-- A back end that holds the same slots keeps the requests. -/
theorem Inv.tracks_of_slots {state : State Enc} (h : queue.Inv state)
    (hne : state.phase ≠ .exited) {after : Enc}
    (hslots : queue.slots after = queue.slots state.encoder) :
    Tracks EncodedChunk.serial state.history (queue.slots after)
      state.submitted state.forceIdr := by
  rw [hslots]
  exact h.tracks hne

theorem inv_start (cfg : EncodeConfig) (answer : Answer) :
    queue.Inv (start backend cfg answer) := by
  rw [start]
  rcases hopen : backend.openWith backend.new cfg answer with ⟨encoder, result⟩
  cases result with
  | error error =>
      exact .of_exited rfl Honoured.nil
  | ok opened =>
      obtain ⟨hslots, hdrained⟩ := queue.opens hopen
      refine ⟨Honoured.nil, fun _ => ?_, fun _ => hdrained⟩
      dsimp only
      rw [hslots]
      exact Tracks.empty

theorem Inv.request {state : State Enc} (h : queue.Inv state) :
    queue.Inv state.request where
  honoured := h.honoured.append_requested state.submitted
  tracks hphase := (h.tracks hphase).request
  drained := h.drained

theorem Inv.applyRate {state : State Enc} (h : queue.Inv state)
    (answer : Answer) :
    queue.Inv (EncodeThread.applyRate backend state answer) := by
  obtain ⟨hslots, hdrained⟩ := queue.rate state.encoder state.bitrate answer
  rcases applyRate_cases state answer with hsame | ⟨applied, hafter⟩
  · rw [hsame]
    exact h
  · rw [hafter]
    exact ⟨h.honoured, fun hne => h.tracks_of_slots hne hslots,
      fun hphase => hdrained (h.drained hphase)⟩

theorem Inv.recover {state : State Enc} (h : queue.Inv state)
    (answer : Answer) :
    queue.Inv (EncodeThread.recover backend state answer) := by
  have htaken : queue.Inv { state with recoveryRequest := 0 } :=
    ⟨h.honoured, h.tracks, h.drained⟩
  rcases recover_cases state answer with hafter | hafter | hafter
  · rw [hafter]
    exact h
  · rw [hafter]
    exact htaken
  · rw [hafter]
    exact htaken.request

theorem Inv.prepare {state : State Enc} (h : queue.Inv state)
    (answer : Answer) :
    queue.Inv (EncodeThread.prepare backend state answer) :=
  (h.applyRate answer).recover answer

/-- The frame takes the flag into its slot, or no request was armed. -/
theorem Inv.submitFrame {state : State Enc} (h : queue.Inv state)
    (hphase : state.phase = .capturing) (frame : GpuFrame) {answer : Answer}
    (hdemand : demand.submit state.encoder ⟨state.forceIdr⟩ answer) :
    queue.Inv (EncodeThread.submitFrame backend state frame answer) := by
  have hne : state.phase ≠ .exited := by
    rw [hphase]
    exact Phase.noConfusion
  have htracks := h.tracks hne
  rw [EncodeThread.submitFrame]
  split
  case h_1 encoder error hsubmit =>
      exact .of_exited rfl h.honoured
  case h_2 encoder made hsubmit =>
      refine ⟨h.honoured, fun _ => ?_, fun hne => Phase.noConfusion hne⟩
      rcases queue.submit (h.drained hphase) hdemand hsubmit with
        ⟨hslots, hidle⟩ | ⟨sure, hslots, hsure⟩
      · have hnone : state.forceIdr = false := hidle
        rw [hnone] at htracks
        dsimp only
        rw [hslots]
        exact htracks.lose
      · dsimp only
        rw [hslots]
        exact htracks.submit hsure

/-- What a poll finds goes to the sender task, or ends the thread. -/
theorem Inv.handOver {state : State Enc} (h : queue.Inv state)
    (hphase : state.phase ≠ .exited) {after : Enc} {chunk : EncodedChunk}
    {sure : Bool}
    (hslots : queue.slots state.encoder =
      ⟨chunk.serial, sure⟩ :: queue.slots after)
    (hsure : sure = true → chunk.kind = .idr) (sent : Bool) :
    queue.Inv (EncodeThread.handOver { state with encoder := after } chunk
      sent) := by
  have htracks := h.tracks hphase
  rw [hslots] at htracks
  rw [EncodeThread.handOver]
  split
  case isTrue =>
      refine ⟨?_, fun _ => htracks.emit, fun hne => Phase.noConfusion hne⟩
      refine h.honoured.append_emitted fun serial hpending hle => ?_
      exact hsure (htracks.sure_of_pending hpending hle)
  case isFalse => exact .of_exited rfl h.honoured

theorem Inv.drain {state : State Enc} (h : queue.Inv state)
    (hphase : state.phase = .draining) (sent : Bool) :
    queue.Inv (EncodeThread.drain backend state sent) := by
  have hne : state.phase ≠ .exited := by
    rw [hphase]
    exact Phase.noConfusion
  obtain ⟨after, found, hpoll, hfound⟩ := queue.polls state.encoder
  rw [EncodeThread.drain, hpoll]
  cases found with
  | none =>
      exact ⟨h.honoured, fun _ => h.tracks_of_slots hne hfound.1,
        fun hphase => Phase.noConfusion hphase⟩
  | some chunk =>
      obtain ⟨sure, hslots, hsure⟩ := hfound
      exact h.handOver hne hslots hsure sent

theorem Inv.sweepOne {state : State Enc} (h : queue.Inv state)
    (hphase : state.phase = .sweeping) (sent : Bool) :
    queue.Inv (EncodeThread.sweepOne backend state sent) := by
  have hne : state.phase ≠ .exited := by
    rw [hphase]
    exact Phase.noConfusion
  obtain ⟨after, found, hpoll, hfound⟩ := queue.polls state.encoder
  rw [EncodeThread.sweepOne, hpoll]
  cases found with
  | none =>
      exact ⟨h.honoured, fun _ => h.tracks_of_slots hne hfound.1,
        fun _ => hfound.2⟩
  | some chunk =>
      obtain ⟨sure, hslots, hsure⟩ := hfound
      exact h.handOver hne hslots hsure sent

theorem inv_step {state : State Enc} {event : Event Answer Background}
    (h : queue.Inv state) (hmet : demand.Met backend state event) :
    queue.Inv (step backend state event) := by
  cases event with
  | requestKeyframe => exact h.request
  | requestRecovery lastGood => exact ⟨h.honoured, h.tracks, h.drained⟩
  | setBitrate bitrateBps => exact ⟨h.honoured, h.tracks, h.drained⟩
  | background input =>
      obtain ⟨hkeeps, hdrained⟩ := queue.background hmet
      exact ⟨h.honoured, fun hphase => (h.tracks hphase).keep hkeeps,
        fun hphase => hdrained (h.drained hphase)⟩
  | submit frame answer =>
      rw [step]
      split
      case isTrue hphase =>
          exact (h.prepare answer).submitFrame
            ((prepare_phase state answer).trans hphase) frame (hmet hphase)
      case isFalse => exact h
  | nextChunk sent =>
      rw [step]
      split
      case isTrue hphase => exact h.drain hphase sent
      case isFalse => exact h
  | sweep sent =>
      rw [step]
      split
      case isTrue hphase => exact h.sweepOne hphase sent
      case isFalse => exact h
  | stop =>
      rw [step]
      split
      case isTrue => exact .of_exited rfl h.honoured
      case isFalse => exact h

/-- A back end whose frames are kept in such a queue loses no request. -/
theorem keepsRequests {obeys delivers : Demand Enc Answer Background}
    (queue : FrameQueue backend (obeys.and delivers)) (cfg : EncodeConfig) :
    KeepsRequests backend obeys delivers cfg := by
  intro answer events hobeys hdelivers
  have halong := (EventRun.along_and _ _ _ events).mpr ⟨hobeys, hdelivers⟩
  have hstep : ∀ state event, queue.Inv state →
      obeys.Met backend state event ∧ delivers.Met backend state event →
        queue.Inv (step backend state event) :=
    fun state event h hmet =>
      inv_step h (Demand.met_and backend hmet.1 hmet.2)
  exact (EventRun.foldl_invariant hstep (inv_start cfg answer)
    halong).honoured

end FrameQueue

end Thread

/-- The slot of a chunk that is there. -/
def madeSlot (chunk : EncodedChunk) : QueueSlot :=
  ⟨chunk.serial, decide (chunk.kind = .idr)⟩

/-! ## NVENC -/

namespace Nvenc

/-- The codec makes an IDR of a picture that it is told to and outputs. -/
abbrev obeys : Demand NvencEncoder Driver Empty :=
  .ofSubmit fun _ _ driver =>
    ∀ taken ∈ driver.bitstream true, taken.1 ≠ [] → taken.2 = true

/-- The bitstream of a frame that carries a request is not empty. -/
abbrev delivers : Demand NvencEncoder Driver Empty :=
  .ofSubmit fun _ directives driver =>
    directives.idr = true → ∀ taken ∈ driver.bitstream true, taken.1 ≠ []

def slots (encoder : NvencEncoder) : List QueueSlot :=
  encoder.pending.toList.map madeSlot

theorem slots_submit {encoder after : NvencEncoder} {frame : GpuFrame}
    {directives : FrameDirectives} {driver : Driver}
    {made : Option EncodedChunk} (hdrained : encoder.pending = none)
    (hdemand : (obeys.and delivers).submit encoder directives driver)
    (hsubmit : submit encoder frame directives driver = (after, .ok made)) :
    (slots after = slots encoder ∧ directives.idr = false) ∨
      ∃ sure, slots after = slots encoder ++ [⟨frame.serial, sure⟩] ∧
        (directives.idr = true → sure = true) := by
  obtain ⟨hobeys, hdelivers⟩ := hdemand
  obtain ⟨session, hopened⟩ :=
    takeBitstream_keeps encoder frame directives driver
  have hempty : slots encoder = [] := by rw [slots, hdrained]; rfl
  rcases submit_cases encoder frame directives driver with
    ⟨error, -, h⟩ | ⟨wasIdr, htaken, h⟩ |
    ⟨chunk, wasIdr, htaken, hdata, hkind, -, hserial, h⟩
  · rw [h] at hsubmit
    cases hsubmit
  · rw [h] at hsubmit
    cases hsubmit
    refine Or.inl ⟨?_, ?_⟩
    · rw [hopened]
      rfl
    · have hbitstream := bitstream_of_takeBitstream htaken
      by_contra hidr
      rw [Bool.not_eq_false] at hidr
      rw [hidr, Bool.true_or] at hbitstream
      exact hdelivers hidr _ hbitstream rfl
  · rw [h] at hsubmit
    cases hsubmit
    refine Or.inr ⟨decide (chunk.kind = .idr), ?_, fun hidr => ?_⟩
    · rw [hempty, ← hserial]
      rfl
    · have hbitstream := bitstream_of_takeBitstream htaken
      rw [hidr, Bool.true_or] at hbitstream
      have hwas : wasIdr = true := hobeys _ hbitstream hdata
      rw [hkind, hwas]
      rfl

def frameQueue : FrameQueue backend (obeys.and delivers) where
  slots := slots
  Drained encoder := encoder.pending = none
  opens {cfg answer encoder} h := by
    obtain ⟨config, flag, hopen⟩ := openWith_keeps new cfg
    have hencoder : (openWith new cfg).1 = encoder := congrArg Prod.fst h
    rw [← hencoder, hopen]
    exact ⟨rfl, rfl⟩
  rate encoder bitrateBps driver := by
    obtain ⟨config, session, h⟩ := updateRate_keeps encoder bitrateBps driver
    change slots (updateRate encoder bitrateBps driver).1 = _ ∧
      (_ → (updateRate encoder bitrateBps driver).1.pending = none)
    rw [h]
    exact ⟨rfl, id⟩
  background {_ input} _ := input.elim
  submit := slots_submit
  polls encoder := by
    refine ⟨{ encoder with pending := none }, encoder.pending, rfl, ?_⟩
    cases hpending : encoder.pending with
    | none => exact ⟨by rw [slots, slots, hpending], rfl⟩
    | some chunk =>
        exact ⟨decide (chunk.kind = .idr), by rw [slots, hpending]; rfl,
          of_decide_eq_true⟩

end Nvenc

/-! ## The software back end -/

namespace Sw

/-- openh264 makes an intra frame after `force_intra_frame`, if it outputs the
frame. -/
abbrev obeys : Demand SwEncoder OpenH264 Empty :=
  .ofSubmit fun _ _ codec =>
    ∀ encoded ∈ codec.encode true, ∀ produced ∈ output encoded,
      produced.1 = .idr

/-- A frame that carries a request is not skipped and has output. -/
abbrev delivers : Demand SwEncoder OpenH264 Empty :=
  .ofSubmit fun _ directives codec =>
    directives.idr = true →
      ∀ encoded ∈ codec.encode true, output encoded ≠ none

def slots (encoder : SwEncoder) : List QueueSlot :=
  (encoder.state.bind Open.pending).toList.map madeSlot

theorem slots_submit {encoder after : SwEncoder} {frame : GpuFrame}
    {directives : FrameDirectives} {codec : OpenH264}
    {made : Option EncodedChunk}
    (hdrained : encoder.state.bind Open.pending = none)
    (hdemand : (obeys.and delivers).submit encoder directives codec)
    (hsubmit : submit encoder frame directives codec = (after, .ok made)) :
    (slots after = slots encoder ∧ directives.idr = false) ∨
      ∃ sure, slots after = slots encoder ++ [⟨frame.serial, sure⟩] ∧
        (directives.idr = true → sure = true) := by
  obtain ⟨hobeys, hdelivers⟩ := hdemand
  have hempty : slots encoder = [] := by rw [slots, hdrained]; rfl
  rcases submit_cases encoder frame directives codec with
    ⟨last, error, h, -⟩ | ⟨last, encoded, h, hstate, hencoded, houtput⟩ |
    ⟨state, encoded, chunk, h, -, hencoded, houtput, -, hserial⟩
  · rw [h] at hsubmit
    cases hsubmit
  · rw [h] at hsubmit
    cases hsubmit
    refine Or.inl ⟨by rw [slots, slots, hstate], ?_⟩
    by_contra hidr
    rw [Bool.not_eq_false] at hidr
    rw [hidr, Bool.true_or] at hencoded
    exact hdelivers hidr encoded hencoded houtput
  · rw [h] at hsubmit
    cases hsubmit
    refine Or.inr ⟨decide (chunk.kind = .idr), ?_, fun hidr => ?_⟩
    · rw [hempty, ← hserial]
      rfl
    · rw [hidr, Bool.true_or] at hencoded
      exact decide_eq_true (hobeys encoded hencoded _ houtput)

def frameQueue : FrameQueue backend (obeys.and delivers) where
  slots := slots
  Drained encoder := encoder.state.bind Open.pending = none
  opens h := by
    rw [eq_of_openWith h]
    exact ⟨rfl, rfl⟩
  rate encoder bitrateBps codec := by
    change slots (updateRate encoder bitrateBps codec).1 = _ ∧
      (_ → (updateRate encoder bitrateBps codec).1.state.bind _ = none)
    rcases updateRate_cases encoder bitrateBps codec with
      ⟨error, h⟩ | ⟨state, hstate, h⟩
    · rw [h]
      exact ⟨rfl, id⟩
    · rw [h, slots, slots, hstate]
      exact ⟨rfl, id⟩
  background {_ input} _ := input.elim
  submit := slots_submit
  polls encoder := by
    refine ⟨(pollBitstream encoder).1, encoder.state.bind Open.pending, rfl,
      ?_⟩
    have hafter : (pollBitstream encoder).1.state.bind Open.pending = none := by
      cases hstate : encoder.state <;> simp [pollBitstream, hstate]
    cases hpending : encoder.state.bind Open.pending with
    | none => exact ⟨by rw [slots, slots, hpending, hafter], hafter⟩
    | some chunk =>
        refine ⟨decide (chunk.kind = .idr), ?_, of_decide_eq_true⟩
        rw [slots, slots, hpending, hafter]
        rfl

end Sw

/-! ## VideoToolbox -/

namespace VideoToolbox

/-- The codec makes an IDR of a frame that it is told to and outputs. -/
abbrev obeys : Demand VideoToolboxEncoder Framework HandlerCall :=
  .ofBackground fun encoder call =>
    ∀ handler ∈ encoder.inside.head?, handler.told = true →
      ∀ produced ∈ handlerOutput handler call, produced.1 = .idr

/-- The handler of a frame that carries a request gets a sample with slices. -/
abbrev delivers : Demand VideoToolboxEncoder Framework HandlerCall :=
  .ofBackground fun encoder call =>
    ∀ handler ∈ encoder.inside.head?, handler.requested = true →
      handlerOutput handler call ≠ none

/-- A frame inside is sure if it carries a request and the dictionary. -/
def insideSlot (handler : Handler) : QueueSlot :=
  ⟨handler.serial, handler.requested && handler.told⟩

def slots (encoder : VideoToolboxEncoder) : List QueueSlot :=
  encoder.channel.map madeSlot ++ encoder.inside.map insideSlot

/-- The oldest frame inside becomes a chunk, or is dropped if it carries no
request. -/
theorem keeps_handle {encoder : VideoToolboxEncoder} {call : HandlerCall}
    (hdemand : (obeys.and delivers).background encoder call) :
    Keeps (slots encoder) (slots (handle encoder call).1) := by
  obtain ⟨hobeys, hdelivers⟩ := hdemand
  rcases handle_cases encoder call with
    ⟨-, h⟩ | ⟨handler, rest, hinside, houtput, h⟩ |
    ⟨handler, rest, chunk, hinside, houtput, -, hserial, h⟩
  · rw [h]
    exact Keeps.refl _
  · have hunsure : (insideSlot handler).sure = false := by
      by_contra hsure
      rw [Bool.not_eq_false, insideSlot, Bool.and_eq_true] at hsure
      exact hdelivers handler (by rw [hinside]; rfl) hsure.1 houtput
    rw [h, slots, slots, hinside]
    exact Keeps.drop hunsure _ _
  · have hsure : (insideSlot handler).sure = true →
        (madeSlot chunk).sure = true := by
      intro hsure
      rw [insideSlot, Bool.and_eq_true] at hsure
      exact decide_eq_true
        (hobeys handler (by rw [hinside]; rfl) hsure.2 _ houtput)
    rw [h, slots, slots, hinside, List.map_append, List.append_assoc]
    exact Keeps.replace hserial hsure _ _

def frameQueue : FrameQueue backend (obeys.and delivers) where
  slots := slots
  Drained _ := True
  opens h := by
    rw [eq_of_openWith h]
    exact ⟨rfl, trivial⟩
  rate encoder bitrateBps framework := by
    change slots (updateRate encoder bitrateBps framework).1 = _ ∧ _
    rcases updateRate_cases encoder bitrateBps framework with ⟨error, h⟩ | h
    · rw [h]
      exact ⟨rfl, id⟩
    · rw [h]
      exact ⟨rfl, id⟩
  background hdemand := ⟨keeps_handle hdemand, id⟩
  submit {encoder frame directives framework after made} _ _ hsubmit := by
    change submit encoder frame directives framework = _ at hsubmit
    rcases submit_cases encoder frame directives framework with
      ⟨flag, error, h⟩ | h
    · rw [h] at hsubmit
      cases hsubmit
    · rw [h] at hsubmit
      cases hsubmit
      refine Or.inr ⟨directives.idr && (directives.idr || encoder.forceIdr),
        ?_, fun hidr => by rw [hidr]; rfl⟩
      rw [slots, slots, List.map_append, List.append_assoc]
      rfl
  polls encoder := by
    refine ⟨(pollBitstream encoder).1, encoder.channel.head?, rfl, ?_⟩
    cases hchannel : encoder.channel with
    | nil =>
        refine ⟨?_, trivial⟩
        rw [slots, slots, hchannel, pollBitstream, hchannel]
        rfl
    | cons chunk rest =>
        refine ⟨decide (chunk.kind = .idr), ?_, of_decide_eq_true⟩
        rw [slots, slots, hchannel, pollBitstream, hchannel]
        rfl

end VideoToolbox

/-- No back end loses a keyframe request.  Whatever else is asked of the encode
thread, every request is answered by a keyframe as long as the frames that
carry one come out. -/
theorem keyframe_requests_honoured (cfg : EncodeConfig) :
    KeepsRequests Nvenc.backend Nvenc.obeys Nvenc.delivers cfg ∧
      KeepsRequests Sw.backend Sw.obeys Sw.delivers cfg ∧
      KeepsRequests VideoToolbox.backend VideoToolbox.obeys
        VideoToolbox.delivers cfg :=
  ⟨Nvenc.frameQueue.keepsRequests cfg, Sw.frameQueue.keepsRequests cfg,
    VideoToolbox.frameQueue.keepsRequests cfg⟩

/-! ## Runs with one request -/

/-- A first frame, a request, and two more frames, each with what happens to
it until the thread has swept up its chunk. -/
def oneRequest {Answer Background : Type}
    (exchange : Bool → List (Event Answer Background)) (dropped : Bool) :
    List (Event Answer Background) :=
  exchange false ++ [.requestKeyframe] ++ exchange dropped ++ exchange false

namespace Nvenc

def exchange (dropped : Bool) : List (Event Driver Empty) :=
  [.submit smallFrame (answering (if dropped then [] else [0, 0, 1])),
    .nextChunk true, .sweep true]

end Nvenc

namespace Sw

def exchange (dropped : Bool) : List (Event OpenH264 Empty) :=
  [.submit smallFrame (if dropped then skipping else answering),
    .nextChunk true, .sweep true]

end Sw

namespace VideoToolbox

def exchange (dropped : Bool) : List (Event Framework HandlerCall) :=
  [.submit smallFrame answering,
    .background (if dropped then noSample else slice),
    .nextChunk true, .sweep true]

end VideoToolbox

/-- The frame with the request comes out as an IDR. -/
theorem keyframe_requests_honoured_of_output :
    RequestsHonoured (run Nvenc.backend smallConfig (Nvenc.answering [])
        (oneRequest Nvenc.exchange false)).history ∧
      RequestsHonoured (run Sw.backend smallConfig Sw.answering
        (oneRequest Sw.exchange false)).history ∧
      RequestsHonoured (run VideoToolbox.backend smallConfig
        VideoToolbox.answering
        (oneRequest VideoToolbox.exchange false)).history :=
  ⟨(keyframe_requests_honoured smallConfig).1 _ _ (by decide +kernel)
      (by decide +kernel),
    (keyframe_requests_honoured smallConfig).2.1 _ _ (by decide +kernel)
      (by decide +kernel),
    (keyframe_requests_honoured smallConfig).2.2 _ _ (by decide +kernel)
      (by decide +kernel)⟩

/-- The codec drops the frame with the request, and the chunk that comes out
next is a P frame. -/
theorem keyframe_request_lost :
    (EventRun.Along (step Nvenc.backend) (Nvenc.obeys.Met Nvenc.backend)
          (start Nvenc.backend smallConfig (Nvenc.answering []))
          (oneRequest Nvenc.exchange true) ∧
        ¬RequestsHonoured (run Nvenc.backend smallConfig (Nvenc.answering [])
          (oneRequest Nvenc.exchange true)).history) ∧
      (EventRun.Along (step Sw.backend) (Sw.obeys.Met Sw.backend)
          (start Sw.backend smallConfig Sw.answering)
          (oneRequest Sw.exchange true) ∧
        ¬RequestsHonoured (run Sw.backend smallConfig Sw.answering
          (oneRequest Sw.exchange true)).history) ∧
      EventRun.Along (step VideoToolbox.backend)
          (VideoToolbox.obeys.Met VideoToolbox.backend)
          (start VideoToolbox.backend smallConfig VideoToolbox.answering)
          (oneRequest VideoToolbox.exchange true) ∧
        ¬RequestsHonoured (run VideoToolbox.backend smallConfig
          VideoToolbox.answering
          (oneRequest VideoToolbox.exchange true)).history := by
  decide +kernel

end GameStreamer.Encode
