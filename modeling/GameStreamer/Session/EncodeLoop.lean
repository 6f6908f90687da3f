import GameStreamer.Core.EventRun
import GameStreamer.Core.SerialNumber
import Mathlib.Data.List.Pairwise

/-!
# The encode loop and its recovery points

The encode thread takes the newest capture, applies a pending reference
invalidation, submits the frame and waits up to 50 ms for a chunk.  The first
chunk that it sees after an invalidation is published as the recovery point.
An asynchronous encoder may still hold frames from before the invalidation, so
that chunk need not belong to the frame that was submitted after it.

The encoder is any that returns its chunks in submit order: it takes a frame
in, and at some later moment produces its chunk or drops it.  Chunks are
numbered as they are produced.  The other threads reach the loop through four
shared cells; each of their accesses is one event.
-/

namespace GameStreamer.EncodeLoop

open SerialNumber

/-- A frame inside the encoder. -/
structure Submission where
  /-- How many frames were submitted before this one. -/
  serial : ℕ
  idr : Bool
  deriving DecidableEq, Repr

/-- An encoded chunk, with the number of the submission it comes from. -/
structure Chunk where
  frameId : ℕ
  serial : ℕ
  deriving DecidableEq, Repr

/-- A chunk that was published as a recovery point, and the first submission
that came after the last invalidation. -/
structure Published where
  chunk : Chunk
  due : ℕ
  deriving DecidableEq, Repr

/-- A `RecoveryPoint` message, with the published chunk it stems from. -/
structure Announcement where
  firstSafeFrameId : UInt32
  source : Option Published
  deriving DecidableEq, Repr

/-- Where the loop stands. -/
inductive Phase where
  | capturing
  | draining
  | sweeping
  | exited
  deriving DecidableEq, Repr

/-- The encode loop with its encoder, an arbitrary queue of submitted frames.
What was published and announced is recorded beside it. -/
structure State where
  /-- Client's last good frame id plus one, 0 for none. -/
  recoveryRequest : ℕ
  forceIdr : Bool
  bitrate : ℕ
  /-- Published frame id plus one, 0 for none. -/
  recoveryPoint : ℕ
  phase : Phase
  announceRecovery : Bool
  appliedBitrate : ℕ
  /-- The encoder: frames it works on, and chunks it has ready. -/
  inside : List Submission
  ready : List Chunk
  nextFrameId : ℕ
  /-- Chunks handed to the sender task, oldest first. -/
  sent : List Chunk
  submitted : ℕ
  /-- The first submission after the last invalidation. -/
  due : ℕ
  /-- Every recovery point the loop has published, newest first. -/
  published : List Published
  /-- Every message the session layer has announced, newest first. -/
  announced : List Announcement
  deriving DecidableEq, Repr

def start (bitrate : ℕ) : State where
  recoveryRequest := 0
  forceIdr := false
  bitrate := bitrate
  recoveryPoint := 0
  phase := .capturing
  announceRecovery := false
  appliedBitrate := bitrate
  inside := []
  ready := []
  nextFrameId := 0
  sent := []
  submitted := 0
  due := 0
  published := []
  announced := []

/-- How the encoder answers while one frame is submitted. -/
structure SubmitEnv where
  rateUpdated : Bool
  refsInvalidated : Bool
  submitted : Bool
  deriving DecidableEq, Repr

inductive Event where
  /-- `request_recovery` of the session layer. -/
  | requestRecovery (lastGood : UInt32)
  /-- `request_keyframe` of the session layer or the sender task. -/
  | requestKeyframe
  | setBitrate (bitrate : ℕ)
  /-- `take_recovery_point` of the session layer, which announces it. -/
  | takeRecoveryPoint
  /-- The encoder produces the chunk of the oldest frame inside. -/
  | produce
  /-- The encoder drops the oldest frame inside. -/
  | drop
  /-- The loop takes a capture and submits it. -/
  | submit (env : SubmitEnv)
  /-- `next_chunk` returns: an error, the next chunk, or a time-out where
  there is none.  `sent` says whether the sender task is still there. -/
  | nextChunk (failed : Bool) (sent : Bool)
  /-- One `poll_bitstream` of the sweep. -/
  | sweep (sent : Bool)
  deriving DecidableEq, Repr

/-- One pass from the capture to `submit`.  No other thread clears the shared
cells, so the pass is one step. -/
def submitFrame (state : State) (env : SubmitEnv) : State :=
  let applied := if state.bitrate ≠ state.appliedBitrate ∧ env.rateUpdated
    then state.bitrate else state.appliedBitrate
  let pending := decide (0 < state.recoveryRequest)
  let forceIdr := state.forceIdr || pending && !env.refsInvalidated
  let next := { state with
    appliedBitrate := applied
    recoveryRequest := 0
    forceIdr := false
    announceRecovery := state.announceRecovery || pending
    due := if pending then state.submitted else state.due }
  if env.submitted then
    { next with
      phase := .draining
      inside := state.inside ++ [⟨state.submitted, forceIdr⟩]
      submitted := state.submitted + 1 }
  else { next with phase := .exited }

/-- The first chunk after an invalidation becomes the recovery point. -/
def publish (state : State) (chunk : Chunk) : State :=
  if state.announceRecovery then
    { state with
      announceRecovery := false
      recoveryPoint := (wire chunk.frameId).toNat + 1
      published := ⟨chunk, state.due⟩ :: state.published }
  else state

/-- Hand a chunk to the sender task; without one the loop returns. -/
def handOver (state : State) (chunk : Chunk) (sent : Bool) (phase : Phase) :
    State :=
  if sent then { state with phase := phase, sent := state.sent ++ [chunk] }
  else { state with phase := .exited }

/-- `next_chunk` and what the loop does with its result.  The chunk that comes
out is published as the recovery point if one is due. -/
def drain (state : State) (failed sent : Bool) : State :=
  if failed then { state with phase := .exited }
  else
    match state.ready with
    | [] => { state with phase := .sweeping }
    | chunk :: rest =>
        handOver (publish { state with ready := rest } chunk) chunk sent
          .sweeping

/-- One turn of the sweep that picks up additional chunks. -/
def sweepOne (state : State) (sent : Bool) : State :=
  match state.ready with
  | [] => { state with phase := .capturing }
  | chunk :: rest => handOver { state with ready := rest } chunk sent .sweeping

/-- One step of the loop, of the encoder, or of the session layer.  A recovery
request that the loop has not seen yet is overwritten by a later one. -/
def step (state : State) : Event → State
  | .requestRecovery lastGood =>
      { state with recoveryRequest := lastGood.toNat + 1 }
  | .requestKeyframe => { state with forceIdr := true }
  | .setBitrate bitrate => { state with bitrate := bitrate }
  | .takeRecoveryPoint =>
      if 0 < state.recoveryPoint then
        { state with
          recoveryPoint := 0
          announced := ⟨UInt32.ofNat (state.recoveryPoint - 1),
            state.published.head?⟩ :: state.announced }
      else state
  | .produce =>
      match state.inside with
      | [] => state
      | submission :: rest =>
          { state with
            inside := rest
            ready := state.ready ++ [⟨state.nextFrameId, submission.serial⟩]
            nextFrameId := state.nextFrameId + 1 }
  | .drop => { state with inside := state.inside.tail }
  | .submit env =>
      if state.phase = .capturing then submitFrame state env else state
  | .nextChunk failed sent =>
      if state.phase = .draining then drain state failed sent else state
  | .sweep sent =>
      if state.phase = .sweeping then sweepOne state sent else state

/-- The published chunk was submitted after the invalidation it answers. -/
def Published.Sound (published : Published) : Prop :=
  published.due ≤ published.chunk.serial

instance (published : Published) : Decidable published.Sound :=
  inferInstanceAs (Decidable (_ ≤ _))

/-- The announced id names a chunk that was submitted after the invalidation
it answers. -/
def Announcement.Sound (announcement : Announcement) : Prop :=
  ∃ published ∈ announcement.source,
    wire published.chunk.frameId = announcement.firstSafeFrameId ∧
      published.Sound

instance (announcement : Announcement) : Decidable announcement.Sound :=
  inferInstanceAs (Decidable (∃ _ ∈ _, _))

/-- When a chunk is about to be published, the encoder has no chunk ready of
a frame that was submitted before the pending invalidation. -/
def NothingStale (state : State) : Event → Prop
  | .nextChunk false _ =>
      state.phase = .draining → state.announceRecovery = true →
        ∀ chunk ∈ state.ready, state.due ≤ chunk.serial
  | _ => True

/-! ## Invariants of the loop -/

/-- The submissions that the encoder still holds, in the order in which they
will come out. -/
def order (state : State) : List ℕ :=
  state.ready.map Chunk.serial ++ state.inside.map Submission.serial

/-- The encoder keeps the submit order. -/
structure Ordered (state : State) : Prop where
  increasing : (order state).Pairwise (· < ·)
  bounded : ∀ serial ∈ order state, serial < state.submitted

/-- The stored recovery point is the newest published one, and every announced
one was published. -/
structure Sourced (state : State) : Prop where
  stored : 0 < state.recoveryPoint →
    ∃ published ∈ state.published.head?,
      state.recoveryPoint = (wire published.chunk.frameId).toNat + 1
  announced : ∀ announcement ∈ state.announced,
    ∃ published ∈ announcement.source, published ∈ state.published ∧
      wire published.chunk.frameId = announcement.firstSafeFrameId

/-- What a step keeps that neither submits, publishes nor announces: the
encoder only loses frames, and the recovery points stay. -/
structure Quiet (state after : State) : Prop where
  order : (order after).Sublist (order state)
  submitted : after.submitted = state.submitted
  recoveryPoint : after.recoveryPoint = state.recoveryPoint
  published : after.published = state.published
  announced : after.announced = state.announced

theorem quiet_handOver (state : State) (chunk : Chunk) (sent : Bool)
    (phase : Phase) : Quiet state (handOver state chunk sent phase) := by
  rw [handOver]
  split <;> exact ⟨List.Sublist.refl _, rfl, rfl, rfl, rfl⟩

theorem Quiet.trans {first second third : State} (hfirst : Quiet first second)
    (hsecond : Quiet second third) : Quiet first third where
  order := hsecond.order.trans hfirst.order
  submitted := hsecond.submitted.trans hfirst.submitted
  recoveryPoint := hsecond.recoveryPoint.trans hfirst.recoveryPoint
  published := hsecond.published.trans hfirst.published
  announced := hsecond.announced.trans hfirst.announced

theorem quiet_tail {state : State} {chunk : Chunk} {rest : List Chunk}
    (hready : state.ready = chunk :: rest) :
    Quiet state { state with ready := rest } :=
  ⟨by simp [EncodeLoop.order, hready], rfl, rfl, rfl, rfl⟩

theorem quiet_sweepOne (state : State) (sent : Bool) :
    Quiet state (sweepOne state sent) := by
  rw [sweepOne]
  split
  case h_1 => exact ⟨List.Sublist.refl _, rfl, rfl, rfl, rfl⟩
  case h_2 chunk rest hready =>
      exact (quiet_tail hready).trans (quiet_handOver _ _ _ _)

/-- What `next_chunk` leads to: nothing of note, or the publication of the
oldest chunk that is ready. -/
theorem drain_cases (state : State) (failed sent : Bool) :
    Quiet state (drain state failed sent) ∧
        (failed = false → state.announceRecovery = true → state.ready = []) ∨
      ∃ chunk rest, failed = false ∧ state.announceRecovery = true ∧
        state.ready = chunk :: rest ∧
        Quiet { state with
            ready := rest
            announceRecovery := false
            recoveryPoint := (wire chunk.frameId).toNat + 1
            published := ⟨chunk, state.due⟩ :: state.published }
          (drain state failed sent) := by
  rw [drain]
  split
  case isTrue hfailed =>
      exact Or.inl ⟨⟨List.Sublist.refl _, rfl, rfl, rfl, rfl⟩,
        fun h => absurd hfailed (by simp [h])⟩
  case isFalse hfailed =>
      split
      case h_1 hready =>
          exact Or.inl ⟨⟨List.Sublist.refl _, rfl, rfl, rfl, rfl⟩,
            fun _ _ => hready⟩
      case h_2 chunk rest hready =>
          by_cases hannounce : state.announceRecovery = true
          · refine Or.inr ⟨chunk, rest, by simpa using hfailed, hannounce,
              hready, ?_⟩
            rw [publish, if_pos hannounce]
            exact quiet_handOver _ _ _ _
          · refine Or.inl ⟨?_, fun _ h => absurd h hannounce⟩
            rw [publish, if_neg hannounce]
            exact (quiet_tail hready).trans (quiet_handOver _ _ _ _)

theorem Ordered.quiet {state after : State} (hordered : Ordered state)
    (hquiet : Quiet state after) : Ordered after where
  increasing := hordered.increasing.sublist hquiet.order
  bounded serial hserial := by
    rw [hquiet.submitted]
    exact hordered.bounded serial (hquiet.order.subset hserial)

theorem Sourced.quiet {state after : State} (hsourced : Sourced state)
    (hquiet : Quiet state after) : Sourced after where
  stored h := by
    rw [hquiet.recoveryPoint] at h ⊢
    rw [hquiet.published]
    exact hsourced.stored h
  announced announcement h := by
    rw [hquiet.announced] at h
    rw [hquiet.published]
    exact hsourced.announced announcement h

/-- The frame that is submitted joins the order at its end. -/
theorem ordered_submitFrame {state : State} (hordered : Ordered state)
    (env : SubmitEnv) : Ordered (submitFrame state env) := by
  rw [submitFrame]
  dsimp only
  split
  case isTrue =>
      have hends : ∀ idr, state.ready.map Chunk.serial ++
          (state.inside ++ [(⟨state.submitted, idr⟩ : Submission)]).map
            Submission.serial = order state ++ [state.submitted] := by
        simp [order]
      constructor
      · rw [order, hends, List.pairwise_append]
        refine ⟨hordered.increasing, List.pairwise_singleton _ _, ?_⟩
        intro serial hserial last hlast
        rw [List.mem_singleton.mp hlast]
        exact hordered.bounded serial hserial
      · intro serial hserial
        rw [order, hends] at hserial
        rcases List.mem_append.mp hserial with hold | hnew
        · exact Nat.lt_succ_of_lt (hordered.bounded serial hold)
        · rw [List.mem_singleton.mp hnew]
          exact Nat.lt_succ_self _
  case isFalse => exact ⟨hordered.increasing, hordered.bounded⟩

theorem sourced_submitFrame {state : State} (hsourced : Sourced state)
    (env : SubmitEnv) : Sourced (submitFrame state env) := by
  rw [submitFrame]
  dsimp only
  split <;> exact ⟨hsourced.stored, hsourced.announced⟩

theorem ordered_step (state : State) (event : Event)
    (hordered : Ordered state) : Ordered (step state event) := by
  cases event with
  | requestRecovery lastGood => exact ⟨hordered.increasing, hordered.bounded⟩
  | requestKeyframe => exact ⟨hordered.increasing, hordered.bounded⟩
  | setBitrate bitrate => exact ⟨hordered.increasing, hordered.bounded⟩
  | takeRecoveryPoint =>
      simp only [step]
      split <;> exact ⟨hordered.increasing, hordered.bounded⟩
  | produce =>
      simp only [step]
      split
      case h_1 => exact hordered
      case h_2 submission rest hinside =>
          have hsame : order { state with
              inside := rest
              ready := state.ready ++ [⟨state.nextFrameId, submission.serial⟩]
              nextFrameId := state.nextFrameId + 1 } = order state := by
            simp [order, hinside]
          exact ⟨by rw [hsame]; exact hordered.increasing,
            by rw [hsame]; exact hordered.bounded⟩
  | drop =>
      exact hordered.quiet ⟨(List.Sublist.refl _).append
        ((List.tail_sublist _).map _), rfl, rfl, rfl, rfl⟩
  | submit env =>
      simp only [step]
      split
      · exact ordered_submitFrame hordered env
      · exact hordered
  | nextChunk failed sent =>
      simp only [step]
      split
      case isTrue =>
          rcases drain_cases state failed sent with
            ⟨hquiet, -⟩ | ⟨chunk, rest, -, -, hready, hquiet⟩
          · exact hordered.quiet hquiet
          · have htail := hordered.quiet (quiet_tail hready)
            refine Ordered.quiet ?_ hquiet
            exact ⟨htail.increasing, htail.bounded⟩
      case isFalse => exact hordered
  | sweep sent =>
      simp only [step]
      split
      · exact hordered.quiet (quiet_sweepOne state sent)
      · exact hordered

theorem sourced_step (state : State) (event : Event)
    (hsourced : Sourced state) : Sourced (step state event) := by
  cases event with
  | requestRecovery lastGood => exact ⟨hsourced.stored, hsourced.announced⟩
  | requestKeyframe => exact ⟨hsourced.stored, hsourced.announced⟩
  | setBitrate bitrate => exact ⟨hsourced.stored, hsourced.announced⟩
  | takeRecoveryPoint =>
      simp only [step]
      split
      case isTrue hstored =>
          obtain ⟨published, hhead, hvalue⟩ := hsourced.stored hstored
          refine ⟨fun h => absurd h (Nat.lt_irrefl 0), ?_⟩
          intro announcement hmem
          rcases List.mem_cons.mp hmem with rfl | hold
          · refine ⟨published, hhead, List.mem_of_mem_head? hhead, ?_⟩
            rw [hvalue, Nat.add_sub_cancel, UInt32.ofNat_toNat]
          · exact hsourced.announced announcement hold
      case isFalse => exact hsourced
  | produce =>
      simp only [step]
      split <;> exact ⟨hsourced.stored, hsourced.announced⟩
  | drop => exact ⟨hsourced.stored, hsourced.announced⟩
  | submit env =>
      simp only [step]
      split
      · exact sourced_submitFrame hsourced env
      · exact hsourced
  | nextChunk failed sent =>
      simp only [step]
      split
      case isTrue =>
          rcases drain_cases state failed sent with
            ⟨hquiet, -⟩ | ⟨chunk, rest, -, -, -, hquiet⟩
          · exact hsourced.quiet hquiet
          · refine Sourced.quiet ⟨fun _ => ⟨_, rfl, rfl⟩, ?_⟩ hquiet
            intro announcement hmem
            obtain ⟨published, hsource, hold, hid⟩ :=
              hsourced.announced announcement hmem
            exact ⟨published, hsource, List.mem_cons_of_mem _ hold, hid⟩
      case isFalse => exact hsourced
  | sweep sent =>
      simp only [step]
      split
      · exact hsourced.quiet (quiet_sweepOne state sent)
      · exact hsourced

/-! ## Which runs announce soundly -/

/-- Every published recovery point is sound. -/
def AllSound (state : State) : Prop :=
  ∀ published ∈ state.published, published.Sound

instance (state : State) : Decidable (AllSound state) :=
  inferInstanceAs (Decidable (∀ _ ∈ _, _))

theorem published_step (state : State) (event : Event) :
    (step state event).published = state.published ∨
      ∃ sent chunk rest, event = .nextChunk false sent ∧
        state.phase = .draining ∧ state.announceRecovery = true ∧
        state.ready = chunk :: rest ∧
        (step state event).published =
          ⟨chunk, state.due⟩ :: state.published := by
  cases event with
  | requestRecovery lastGood => exact Or.inl rfl
  | requestKeyframe => exact Or.inl rfl
  | setBitrate bitrate => exact Or.inl rfl
  | takeRecoveryPoint => simp only [step]; split <;> exact Or.inl rfl
  | produce => simp only [step]; split <;> exact Or.inl rfl
  | drop => exact Or.inl rfl
  | submit env =>
      simp only [step, submitFrame]
      split_ifs <;> exact Or.inl rfl
  | nextChunk failed sent =>
      simp only [step]
      split
      case isTrue hphase =>
          rcases drain_cases state failed sent with
            ⟨hquiet, -⟩ | ⟨chunk, rest, rfl, hannounce, hready, hquiet⟩
          · exact Or.inl hquiet.published
          · exact Or.inr ⟨sent, chunk, rest, rfl, hphase, hannounce, hready,
              hquiet.published⟩
      case isFalse => exact Or.inl rfl
  | sweep sent =>
      simp only [step]
      split
      · exact Or.inl (quiet_sweepOne state sent).published
      · exact Or.inl rfl

/-- The oldest chunk that is ready decides for all of them. -/
theorem due_le_head_iff {state : State} (hordered : Ordered state)
    {chunk : Chunk} {rest : List Chunk} (hready : state.ready = chunk :: rest) :
    state.due ≤ chunk.serial ↔
      ∀ other ∈ state.ready, state.due ≤ other.serial := by
  rw [hready]
  constructor
  · intro hhead other hother
    rcases List.mem_cons.mp hother with rfl | hrest
    · exact hhead
    · have hincreasing := hordered.increasing
      rw [order, hready, List.map_cons, List.cons_append,
        List.pairwise_cons] at hincreasing
      have hlt := hincreasing.1 other.serial
        (List.mem_append_left _ (List.mem_map_of_mem hrest))
      exact hhead.trans hlt.le
  · exact fun hall => hall chunk List.mem_cons_self

/-- A step publishes only sound recovery points exactly when nothing stale is
ready, and what was published stays published. -/
theorem allSound_step_iff (state : State) (event : Event)
    (hordered : Ordered state) :
    AllSound (step state event) ↔
      AllSound state ∧ NothingStale state event := by
  rcases published_step state event with
    hsame | ⟨sent, chunk, rest, rfl, hphase, hannounce, hready, hpublished⟩
  · rw [AllSound, hsame]
    refine (and_iff_left ?_).symm
    cases event with
    | nextChunk failed sent =>
        cases failed with
        | true => trivial
        | false =>
            intro hphase hannounce
            simp only [step, hphase, if_true] at hsame
            rcases drain_cases state false sent with
              ⟨-, hempty⟩ | ⟨chunk, rest, -, -, -, hquiet⟩
            · simp [hempty rfl hannounce]
            · rw [hquiet.published] at hsame
              exact absurd hsame (List.cons_ne_self _ _)
    | _ => trivial
  · rw [AllSound, hpublished, List.forall_mem_cons]
    have hstale : NothingStale state (.nextChunk false sent) ↔
        ∀ other ∈ state.ready, state.due ≤ other.serial := by
      simp [NothingStale, hphase, hannounce]
    rw [hstale, ← due_le_head_iff hordered hready, and_comm]
    rfl

theorem announced_sound {state : State} (hsourced : Sourced state)
    (hsound : AllSound state) :
    ∀ announcement ∈ state.announced, announcement.Sound := by
  intro announcement hmem
  obtain ⟨published, hsource, hpublished, hid⟩ :=
    hsourced.announced announcement hmem
  exact ⟨published, hsource, hid, hsound published hpublished⟩

/-- A run publishes only sound recovery points exactly when the encoder never
has a stale chunk ready while an announcement is due; and then everything the
session layer announces is sound. -/
theorem allSound_iff_nothingStale (bitrate : ℕ) (events : List Event) :
    let final := events.foldl step (start bitrate)
    (AllSound final ↔ EventRun.Along step NothingStale (start bitrate) events) ∧
    (EventRun.Along step NothingStale (start bitrate) events →
      ∀ announcement ∈ final.announced, announcement.Sound) := by
  intro final
  have hexact : AllSound final ↔
      EventRun.Along step NothingStale (start bitrate) events := by
    refine EventRun.good_iff_along_of_preserves Ordered AllSound ordered_step
      ?_ ?_ ?_ ?_
    · intro state event hordered hafter
      exact ((allSound_step_iff state event hordered).mp hafter).1
    · intro state event hordered hsound
      rw [allSound_step_iff state event hordered, and_iff_right hsound]
    · exact ⟨List.Pairwise.nil, by simp [order, start]⟩
    · simp [AllSound, start]
  refine ⟨hexact, fun halong => announced_sound ?_ (hexact.mpr halong)⟩
  refine EventRun.foldl_preserves sourced_step events ⟨?_, ?_⟩
  · exact fun h => absurd h (Nat.lt_irrefl 0)
  · simp [start]

/-- Frame 1 is inside the encoder past the time-out when the client asks for
recovery; its chunk comes out right after frame 2, which starts the cleaned
chain, was submitted. -/
def lateChunk : List Event :=
  let submit := .submit ⟨true, false, true⟩
  [submit, .produce, .nextChunk false true, .sweep true,
    submit, .nextChunk false true, .sweep true,
    .requestRecovery 0, submit, .produce, .nextChunk false true,
    .takeRecoveryPoint]

/-- Frame id 1 is announced as the first safe one, although it was submitted
before the forced IDR. -/
theorem not_sound_lateChunk :
    ∃ announcement ∈ (lateChunk.foldl step (start 10000000)).announced,
      announcement.firstSafeFrameId = 1 ∧ ¬ announcement.Sound := by
  decide

end GameStreamer.EncodeLoop
