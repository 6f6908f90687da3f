import GameStreamer.Capture.FrameChannel

/-!
# What a receiver can still get

The channel keeps no more than its slot.  Whatever went through it before, a
receiver gets from now on at most the frame that is in the slot now, and then
what is stored from now on, in order.  So a source that has been stopped can
leave one frame behind, and no more.
-/

namespace GameStreamer.Capture.FrameChannel

variable {Frame : Type}

/-- The same channel after a longer past. -/
def State.after (state : State Frame) (stored : List Frame)
    (returned : List (Option Frame)) (dropped : ℕ) : State Frame :=
  { state with
    stored := stored ++ state.stored
    returned := returned ++ state.returned
    dropped := dropped + state.dropped }

section Past

variable (state : State Frame) (stored : List Frame)
  (returned : List (Option Frame)) (dropped : ℕ)

theorem after_return (answer : Option Frame) :
    (state.after stored returned dropped).return answer =
      (state.return answer).after stored returned dropped := by
  simp only [State.after, State.return, List.append_assoc]

theorem after_notify :
    (state.after stored returned dropped).notify =
      state.notify.after stored returned dropped := by
  simp only [State.notify, apply_ite (State.after · stored returned dropped)]
  rfl

theorem after_produce (p : ℕ) :
    produce (state.after stored returned dropped) p =
      (produce state p).after stored returned dropped := by
  have hproducers : (state.after stored returned dropped).producers p =
      state.producers p := rfl
  unfold produce
  rw [hproducers]
  cases state.producers p with
  | idle => rfl
  | submitting frame =>
      dsimp only
      rw [apply_ite (State.after · stored returned dropped)]
      rfl
  | locked frame =>
      simp only [State.after, State.setProducer, List.append_assoc,
        Nat.add_assoc]
      rfl
  | stored => rfl
  | unlocked =>
      exact after_notify (state.setProducer p .idle) stored returned dropped
  | closing =>
      exact after_notify (state.setProducer p .idle) stored returned dropped

theorem after_receive :
    receive (state.after stored returned dropped) =
      (receive state).after stored returned dropped := by
  have hreceiver : (state.after stored returned dropped).receiver =
      state.receiver := rfl
  unfold receive
  rw [hreceiver]
  cases state.receiver with
  | idle => rfl
  | locking =>
      dsimp only
      rw [apply_ite (State.after · stored returned dropped)]
      rfl
  | testing =>
      have hslot : (state.after stored returned dropped).slot = state.slot :=
        rfl
      dsimp only
      rw [hslot]
      cases state.slot with
      | none => rfl
      | some frame =>
          dsimp only
          rw [after_return]
          rfl
  | loading =>
      dsimp only
      rw [apply_ite (State.after · stored returned dropped), after_return]
      rfl
  | parking => rfl
  | waiting => rfl
  | woken timedOut =>
      dsimp only
      rw [apply_ite (State.after · stored returned dropped)]
      rfl
  | expired =>
      dsimp only
      rw [after_return]
      rfl

/-- No thread sees the past. -/
theorem after_step (event : Event Frame) :
    step (state.after stored returned dropped) event =
      (step state event).after stored returned dropped := by
  cases event with
  | submit p frame =>
      have hproducers : (state.after stored returned dropped).producers p =
          state.producers p := rfl
      unfold step
      dsimp only
      rw [hproducers]
      cases state.producers p <;> rfl
  | close p =>
      have hproducers : (state.after stored returned dropped).producers p =
          state.producers p := rfl
      unfold step
      dsimp only
      rw [hproducers]
      cases state.producers p <;> rfl
  | produce p => exact after_produce ..
  | recvLatest =>
      unfold step
      rw [apply_ite (State.after · stored returned dropped)]
      rfl
  | receive => exact after_receive ..
  | spurious =>
      unfold step
      rw [apply_ite (State.after · stored returned dropped)]
      rfl
  | timeout =>
      unfold step
      rw [apply_ite (State.after · stored returned dropped)]
      rfl

theorem after_run (events : List (Event Frame)) :
    events.foldl step (state.after stored returned dropped) =
      (events.foldl step state).after stored returned dropped := by
  induction events generalizing state with
  | nil => rfl
  | cons event events ih =>
      rw [List.foldl_cons, List.foldl_cons, after_step, ih]

end Past

/-- The same channel without a past. -/
def State.fresh (state : State Frame) : State Frame :=
  { state with stored := [], returned := [], dropped := 0 }

theorem after_fresh (state : State Frame) :
    state.fresh.after state.stored state.returned state.dropped = state := by
  simp only [State.fresh, State.after, List.append_nil, Nat.add_zero]

/-- A channel whose only frame so far is the one in its slot. -/
theorem after_fresh_accounted (state : State Frame) :
    Accounted (state.fresh.after state.slot.toList [] 0) where
  count := by
    simp only [State.fresh, State.after, List.append_nil,
      List.reduceOption_nil, List.length_nil, Nat.zero_add]
  order := by
    simp only [State.fresh, State.after, List.append_nil,
      List.reduceOption_nil, List.nil_append, List.Sublist.refl]
  newest frame hslot := by
    have hframe : state.slot = some frame := hslot
    simp only [State.fresh, State.after, List.append_nil, hframe]
    rfl

/-- What is returned from now on is the frame in the slot and the frames
stored from now on, in this order. -/
theorem run_since (state : State Frame) (events : List (Event Frame)) :
    ∃ late new, (events.foldl step state).returned = state.returned ++ late ∧
      (events.foldl step state).stored = state.stored ++ new ∧
      late.reduceOption.Sublist (state.slot.toList ++ new) := by
  have hrun : events.foldl step state =
      (events.foldl step state.fresh).after state.stored state.returned
        state.dropped := by
    rw [← after_run, after_fresh]
  have haccounted := EventRun.foldl_preserves step_accounted events
    (after_fresh_accounted state)
  rw [after_run] at haccounted
  refine ⟨_, _, congrArg State.returned hrun, congrArg State.stored hrun, ?_⟩
  have horder := (List.sublist_append_left ..).trans haccounted.order
  exact horder

end GameStreamer.Capture.FrameChannel
