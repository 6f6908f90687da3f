import GameStreamer.Capture.FrameChannel

/-!
# Wake-ups of the frame channel's receiver

The receiver looks at the slot and at the flag before it waits.  The slot
changes under the lock, so a frame that comes too late for the look comes
with a notification that is still due when the wait begins.  The flag is set
without the lock, and its notification can fall into the gap between the look
and the wait: then nothing but the timeout ends the wait.
-/

namespace GameStreamer.Capture.FrameChannel

section Wakeups

variable {Frame : Type} {state : State Frame}

/-- A notification of this producer is still to come, whatever the others
do. -/
def Producer.Due : Producer Frame → Prop
  | .stored | .unlocked | .closing => True
  | _ => False

/-- The producer's next step is the notification. -/
def Producer.Notifies : Producer Frame → Prop
  | .unlocked | .closing => True
  | _ => False

def State.Due (state : State Frame) : Prop :=
  ∃ p, (state.producers p).Due

/-- The receiver has found the flag unset, and waits or is about to. -/
def Receiver.Committed : Receiver → Prop
  | .parking | .waiting => True
  | _ => False

/-- A receiver that waits while a frame lies in the slot is going to be
woken. -/
def FrameAwaited (state : State Frame) : Prop :=
  state.receiver = .waiting → state.slot.isSome → state.Due

/-- The same for the flag, and from before the wait. -/
def CloseAwaited (state : State Frame) : Prop :=
  state.receiver.Committed → state.closed = true → state.Due

/-- A receiver that waits although there is a frame or the flag is set is
going to be woken. -/
def NoLostWakeup (state : State Frame) : Prop :=
  state.receiver = .waiting → state.slot.isSome ∨ state.closed = true →
    state.Due

def IsNotification (state : State Frame) : Event Frame → Prop
  | .produce p => (state.producers p).Notifies
  | _ => False

/-- A notification that finds the receiver between its look at the flag and
its wait, with the flag set by now, is not the last one due. -/
def Undisturbed (state : State Frame) (event : Event Frame) : Prop :=
  IsNotification state event → state.receiver = .parking →
    state.closed = true →
      ∃ p, event ≠ .produce p ∧ (state.producers p).Due

/-! ## What is still due -/

theorem due_setProducer (state : State Frame) (p : ℕ)
    {producer : Producer Frame} (hdue : producer.Due) :
    (state.setProducer p producer).Due :=
  ⟨p, by rwa [setProducer_self]⟩

theorem due_of_other {p other : ℕ} (producer : Producer Frame)
    (hne : other ≠ p) (hdue : (state.producers other).Due) :
    (state.setProducer p producer).Due :=
  ⟨other, by rwa [setProducer_of_ne state producer hne]⟩

/-- A producer that owes nothing takes nothing away by its step. -/
theorem State.Due.setProducer (hdue : state.Due) {p : ℕ}
    (hnot : ¬(state.producers p).Due) (producer : Producer Frame) :
    (state.setProducer p producer).Due := by
  obtain ⟨other, hother⟩ := hdue
  have hne : other ≠ p := by
    rintro rfl
    exact hnot hother
  exact due_of_other producer hne hother

theorem not_due_of_idle {p : ℕ} (hidle : state.producers p = .idle) :
    ¬(state.producers p).Due := by
  rw [hidle]
  exact id

theorem notify_not_waiting (state : State Frame) :
    state.notify.receiver ≠ .waiting := by
  rw [State.notify]
  split
  · simp
  · assumption

/-- A notification moves a receiver from its wait, and nobody else. -/
theorem notify_due : state.notify.Due ↔ state.Due := by
  rw [State.notify]
  split <;> rfl

theorem produce_notifies {p : ℕ} (h : (state.producers p).Notifies) :
    produce state p = (state.setProducer p .idle).notify := by
  rw [produce]
  cases hp : state.producers p with
  | unlocked => rfl
  | closing => rfl
  | idle => rw [hp] at h; exact h.elim
  | submitting frame => rw [hp] at h; exact h.elim
  | locked frame => rw [hp] at h; exact h.elim
  | stored => rw [hp] at h; exact h.elim

/-- What is due stays due until a notification. -/
theorem produce_due (hdue : state.Due) {p : ℕ}
    (hquiet : ¬(state.producers p).Notifies) : (produce state p).Due := by
  rw [produce]
  cases hp : state.producers p with
  | idle => exact hdue
  | submitting frame =>
      have hnot : ¬(state.producers p).Due := by rw [hp]; exact id
      dsimp only
      split
      · exact hdue.setProducer hnot (.locked frame)
      · exact hdue
  | locked frame => exact due_setProducer state p trivial
  | stored => exact due_setProducer state p trivial
  | unlocked => exact absurd (by rw [hp]; trivial) hquiet
  | closing => exact absurd (by rw [hp]; trivial) hquiet

theorem receive_due : (receive state).Due ↔ state.Due := by
  rw [State.Due, receive_producers, State.Due]

/-! ## Frames -/

theorem produce_receiver {p : ℕ} (hquiet : ¬(state.producers p).Notifies) :
    (produce state p).receiver = state.receiver := by
  rw [produce]
  cases hp : state.producers p with
  | idle => rfl
  | submitting frame => dsimp only; split <;> rfl
  | locked frame => rfl
  | stored => rfl
  | unlocked => exact absurd (by rw [hp]; trivial) hquiet
  | closing => exact absurd (by rw [hp]; trivial) hquiet

theorem produce_closed (state : State Frame) (p : ℕ) :
    (produce state p).closed = state.closed := by
  rw [produce]
  split
  · rfl
  · split <;> rfl
  · rfl
  · rfl
  · rw [State.notify]; split <;> rfl
  · rw [State.notify]; split <;> rfl

/-- A frame that a producer's step puts into the slot is still to be
announced. -/
theorem produce_slot {p : ℕ} (hslot : (produce state p).slot.isSome) :
    state.slot.isSome ∨ (produce state p).Due := by
  rw [produce] at hslot ⊢
  cases hp : state.producers p with
  | idle => exact .inl (by simpa [hp] using hslot)
  | submitting frame =>
      left
      rw [hp] at hslot
      dsimp only at hslot
      split at hslot <;> exact hslot
  | locked frame => exact .inr (due_setProducer state p trivial)
  | stored => exact .inr (due_setProducer state p trivial)
  | unlocked =>
      left
      rw [hp] at hslot
      simp only [State.notify] at hslot
      split at hslot <;> exact hslot
  | closing =>
      left
      rw [hp] at hslot
      simp only [State.notify] at hslot
      split at hslot <;> exact hslot

/-- The only ways for the receiver to be, after a step of its own, past the
look at the flag. -/
theorem receive_committed (hcommitted : (receive state).receiver.Committed) :
    receive state = state ∨
      (state.receiver = .parking ∧
        receive state = { state with lock := none, receiver := .waiting }) ∨
      (state.closed = false ∧
        receive state = { state with receiver := .parking }) := by
  rw [receive] at hcommitted ⊢
  cases hreceiver : state.receiver with
  | idle => exact .inl rfl
  | locking =>
      rw [hreceiver] at hcommitted
      dsimp only at hcommitted ⊢
      split at hcommitted
      · exact hcommitted.elim
      · rename_i hheld
        exact .inl (if_neg hheld)
  | testing =>
      rw [hreceiver] at hcommitted
      dsimp only at hcommitted
      split at hcommitted <;> exact hcommitted.elim
  | loading =>
      rw [hreceiver] at hcommitted
      dsimp only at hcommitted ⊢
      split at hcommitted
      · exact hcommitted.elim
      · rename_i hopen
        exact .inr (.inr ⟨Bool.eq_false_iff.mpr hopen, if_neg hopen⟩)
  | parking => exact .inr (.inl ⟨rfl, rfl⟩)
  | waiting => exact .inl rfl
  | woken timedOut =>
      rw [hreceiver] at hcommitted
      dsimp only at hcommitted ⊢
      split at hcommitted
      · cases timedOut <;> exact hcommitted.elim
      · rename_i hheld
        exact .inl (if_neg hheld)
  | expired =>
      rw [hreceiver] at hcommitted
      exact hcommitted.elim

/-- A step of the receiver's into the wait finds the slot empty. -/
theorem receive_frameAwaited (hguarded : Guarded state)
    (hframe : FrameAwaited state) : FrameAwaited (receive state) := by
  intro hwait hslot
  rw [receive_due]
  have hcommitted : (receive state).receiver.Committed := by
    rw [hwait]
    trivial
  rcases receive_committed hcommitted with hsame | ⟨hparking, hnext⟩ |
    ⟨_, hnext⟩
  · rw [hsame] at hwait hslot
    exact hframe hwait hslot
  · rw [hnext, hguarded.looked (.inr hparking)] at hslot
    cases hslot
  · rw [hnext] at hwait
    cases hwait

theorem produce_frameAwaited (hframe : FrameAwaited state) (p : ℕ) :
    FrameAwaited (produce state p) := by
  intro hwait hslot
  by_cases hnotifies : (state.producers p).Notifies
  · rw [produce_notifies hnotifies] at hwait
    exact absurd hwait (notify_not_waiting _)
  · rw [produce_receiver hnotifies] at hwait
    rcases produce_slot hslot with hbefore | hdue
    · exact produce_due (hframe hwait hbefore) hnotifies
    · exact hdue

theorem step_frameAwaited (hguarded : Guarded state)
    (hframe : FrameAwaited state) (event : Event Frame) :
    FrameAwaited (step state event) := by
  cases event with
  | submit p frame =>
      rw [step]
      split
      · rename_i hidle
        exact fun hwait hslot => (hframe hwait hslot).setProducer
          (not_due_of_idle hidle) (.submitting frame)
      · exact hframe
  | close p =>
      rw [step]
      split
      · exact fun _ _ => due_setProducer state p trivial
      · exact hframe
  | produce p => exact produce_frameAwaited hframe p
  | recvLatest =>
      rw [step]
      split
      · intro hwait
        cases hwait
      · exact hframe
  | receive => exact receive_frameAwaited hguarded hframe
  | spurious =>
      rw [step]
      split
      · intro hwait
        cases hwait
      · exact hframe
  | timeout =>
      rw [step]
      split
      · intro hwait
        cases hwait
      · exact hframe

/-! ## The end of the stream -/

/-- A step from the look at the flag to the wait has found the flag unset. -/
theorem receive_closeAwaited (hclose : CloseAwaited state) :
    CloseAwaited (receive state) := by
  intro hcommitted hclosed
  rw [receive_due]
  rcases receive_committed hcommitted with hsame | ⟨hparking, hnext⟩ |
    ⟨hopen, hnext⟩
  · rw [hsame] at hcommitted hclosed
    exact hclose hcommitted hclosed
  · rw [hnext] at hclosed
    exact hclose (by rw [hparking]; trivial) hclosed
  · rw [hnext] at hclosed
    rw [hopen] at hclosed
    cases hclosed

/-- A notification leaves a receiver that is on its way to the wait alone. -/
theorem notify_committed (h : state.notify.receiver.Committed) :
    state.receiver = .parking := by
  rw [State.notify] at h
  split at h
  · exact h.elim
  · rename_i hwaiting
    cases hreceiver : state.receiver with
    | parking => rfl
    | waiting => exact absurd hreceiver hwaiting
    | idle => rw [hreceiver] at h; exact h.elim
    | locking => rw [hreceiver] at h; exact h.elim
    | testing => rw [hreceiver] at h; exact h.elim
    | loading => rw [hreceiver] at h; exact h.elim
    | woken timedOut => rw [hreceiver] at h; exact h.elim
    | expired => rw [hreceiver] at h; exact h.elim

theorem produce_closeAwaited (hclose : CloseAwaited state) {p : ℕ}
    (hundisturbed : Undisturbed state (.produce p)) :
    CloseAwaited (produce state p) := by
  intro hcommitted hclosed
  rw [produce_closed] at hclosed
  by_cases hnotifies : (state.producers p).Notifies
  · rw [produce_notifies hnotifies] at hcommitted ⊢
    have hparking := notify_committed hcommitted
    obtain ⟨other, hne, hdue⟩ := hundisturbed hnotifies hparking hclosed
    have hother : other ≠ p := by
      rintro rfl
      exact hne rfl
    rw [notify_due]
    exact due_of_other .idle hother hdue
  · rw [produce_receiver hnotifies] at hcommitted
    exact produce_due (hclose hcommitted hclosed) hnotifies

theorem step_closeAwaited (hclose : CloseAwaited state)
    {event : Event Frame} (hundisturbed : Undisturbed state event) :
    CloseAwaited (step state event) := by
  cases event with
  | submit p frame =>
      rw [step]
      split
      · rename_i hidle
        exact fun hcommitted hclosed => (hclose hcommitted hclosed).setProducer
          (not_due_of_idle hidle) (.submitting frame)
      · exact hclose
  | close p =>
      rw [step]
      split
      · exact fun _ _ => due_setProducer state p trivial
      · exact hclose
  | produce p => exact produce_closeAwaited hclose hundisturbed
  | recvLatest =>
      rw [step]
      split
      · exact fun hcommitted => hcommitted.elim
      · exact hclose
  | receive => exact receive_closeAwaited hclose
  | spurious =>
      rw [step]
      split
      · exact fun hcommitted => hcommitted.elim
      · exact hclose
  | timeout =>
      rw [step]
      split
      · exact fun hcommitted => hcommitted.elim
      · exact hclose

/-! ## Runs -/

theorem run_frameAwaited (events : List (Event Frame)) :
    FrameAwaited (events.foldl step start) := by
  have hstep : ∀ (state : State Frame) (event : Event Frame),
      Guarded state ∧ FrameAwaited state →
        Guarded (step state event) ∧ FrameAwaited (step state event) :=
    fun state event h => ⟨step_guarded state event h.1,
      step_frameAwaited h.1 h.2 event⟩
  have hstart : Guarded (start : State Frame) ∧
      FrameAwaited (start : State Frame) :=
    ⟨start_guarded, fun h => by cases h⟩
  exact (EventRun.foldl_preserves hstep events hstart).2

theorem run_closeAwaited {events : List (Event Frame)}
    (hundisturbed : EventRun.Along step Undisturbed start events) :
    CloseAwaited (events.foldl step start) := by
  have hstep : ∀ (state : State Frame) (event : Event Frame),
      CloseAwaited state → Undisturbed state event →
        CloseAwaited (step state event) :=
    fun _ _ hclose h => step_closeAwaited hclose h
  have hstart : CloseAwaited (start : State Frame) := fun h => h.elim
  exact EventRun.foldl_invariant hstep hstart hundisturbed

theorem noLostWakeup_of_awaited (hframe : FrameAwaited state)
    (hclose : CloseAwaited state) : NoLostWakeup state := by
  rintro hwait (hslot | hclosed)
  · exact hframe hwait hslot
  · exact hclose (by rw [hwait]; trivial) hclosed

/-! ## What the receiver gets -/

/-- Nobody holds the lock, and no notification is due. -/
structure Settled (state : State Frame) : Prop where
  free : state.lock = none
  quiet : ¬state.Due

/-- A receiver that runs on alone returns the frame in the slot. -/
def FrameSeen (state : State Frame) : Prop :=
  ∀ frame, Settled state → state.slot = some frame →
    state.receiver ≠ .idle →
      (receive (receive state)).returned = state.returned ++ [some frame]

/-- A receiver that runs on alone returns, and finds the stream ended. -/
def CloseSeen (state : State Frame) : Prop :=
  Settled state → state.slot = none → state.closed = true →
    state.receiver ≠ .idle →
      (receive (receive (receive state))).returned =
        state.returned ++ [none]

/-- The phases of a receiver that is in `recv_latest` and does not hold the
lock. -/
theorem receiver_of_free (hguarded : Guarded state)
    (hfree : state.lock = none) (hcalled : state.receiver ≠ .idle) :
    state.receiver = .locking ∨ state.receiver = .waiting ∨
      ∃ timedOut, state.receiver = .woken timedOut := by
  have hnot := hguarded.free_receiver hfree
  cases hreceiver : state.receiver with
  | idle => exact absurd hreceiver hcalled
  | locking => exact .inl rfl
  | waiting => exact .inr (.inl rfl)
  | woken timedOut => exact .inr (.inr ⟨timedOut, rfl⟩)
  | testing => exact absurd (by rw [hreceiver]; trivial) hnot
  | loading => exact absurd (by rw [hreceiver]; trivial) hnot
  | parking => exact absurd (by rw [hreceiver]; trivial) hnot
  | expired => exact absurd (by rw [hreceiver]; trivial) hnot

theorem frameSeen_of_awaited (hguarded : Guarded state)
    (hframe : FrameAwaited state) : FrameSeen state := by
  intro frame hsettled hslot hcalled
  have hfree := hsettled.free
  rcases receiver_of_free hguarded hfree hcalled with
    hlocking | hwaiting | ⟨timedOut, hwoken⟩
  · simp [receive, hlocking, hfree, hslot, State.return]
  · exact absurd (hframe hwaiting (by rw [hslot]; rfl)) hsettled.quiet
  · cases timedOut <;> simp [receive, hwoken, hfree, hslot, State.return]

theorem closeSeen_of_awaited (hguarded : Guarded state)
    (hclose : CloseAwaited state) : CloseSeen state := by
  intro hsettled hslot hclosed hcalled
  have hfree := hsettled.free
  rcases receiver_of_free hguarded hfree hcalled with
    hlocking | hwaiting | ⟨timedOut, hwoken⟩
  · simp [receive, hlocking, hfree, hslot, hclosed, State.return]
  · exact absurd (hclose (by rw [hwaiting]; trivial) hclosed)
      hsettled.quiet
  · cases timedOut <;>
      simp [receive, hwoken, hfree, hslot, hclosed, State.return]

/-! ## No lost wake-up -/

/-- No wake-up is lost.  A frame in the slot is never missed by a waiting
receiver.  The end of the stream is not missed either in a run in which no last
notification finds the receiver between its look at the flag and its wait. -/
theorem no_lost_wakeup :
    (∀ events : List (Event Frame),
      FrameAwaited (events.foldl step start) ∧
        FrameSeen (events.foldl step start)) ∧
    ∀ events : List (Event Frame),
      EventRun.Along step Undisturbed start events →
        NoLostWakeup (events.foldl step start) ∧
          CloseSeen (events.foldl step start) := by
  constructor
  · intro events
    have hframe := run_frameAwaited events
    exact ⟨hframe, frameSeen_of_awaited (run_guarded events) hframe⟩
  · intro events hundisturbed
    have hclose := run_closeAwaited hundisturbed
    exact ⟨noLostWakeup_of_awaited (run_frameAwaited events) hclose,
      closeSeen_of_awaited (run_guarded events) hclose⟩

/-- The receiver waits, and then the stream is closed. -/
def closedWhileWaiting : List (Event ℕ) :=
  [.recvLatest, .receive, .receive, .receive, .receive, .close 0]

theorem no_lost_wakeup_while_waiting :
    (closedWhileWaiting.foldl step start).receiver = .waiting ∧
      (closedWhileWaiting.foldl step start).Due := by
  have hundisturbed :
      EventRun.Along step Undisturbed start closedWhileWaiting :=
    ⟨fun h => h.elim, fun h => h.elim, fun h => h.elim, fun h => h.elim,
      fun h => h.elim, fun h => h.elim, trivial⟩
  exact ⟨rfl, (no_lost_wakeup.2 closedWhileWaiting hundisturbed).1 rfl
    (.inr rfl)⟩

/-- The receiver looks at the flag, the stream is closed and announced, and
the receiver goes to wait. -/
def closedUnseen : List (Event ℕ) :=
  [.recvLatest, .receive, .receive, .receive, .close 0, .produce 0, .receive]

theorem closedUnseen_quiet :
    ¬(closedUnseen.foldl step start).Due := by
  rintro ⟨p, hp⟩
  have hidle : (closedUnseen.foldl step start).producers p = .idle := by
    change Function.update (Function.update (fun _ => Producer.idle) 0
      Producer.closing) 0 Producer.idle p = Producer.idle
    rw [Function.update_idem]
    exact congrFun (Function.update_eq_self 0 _) p
  rw [hidle] at hp
  exact hp

/-- The stream has ended, nobody else is going to move, and the receiver
waits. -/
theorem close_is_missed :
    ¬NoLostWakeup (closedUnseen.foldl step start) ∧
      Settled (closedUnseen.foldl step start) ∧
      receive (closedUnseen.foldl step start) =
        closedUnseen.foldl step start :=
  ⟨fun h => closedUnseen_quiet (h rfl (.inr rfl)),
    ⟨rfl, closedUnseen_quiet⟩, rfl⟩

/-- After a step that the condition excludes, the receiver's next step loses
the wake-up. -/
theorem lost_of_disturbed {event : Event Frame}
    (hdisturbed : ¬Undisturbed state event) :
    ¬NoLostWakeup (receive (step state event)) := by
  simp only [Undisturbed, Classical.not_imp, not_exists, not_and]
    at hdisturbed
  obtain ⟨hnotifies, hparking, hclosed, halone⟩ := hdisturbed
  cases event with
  | produce p =>
      have hnext : step state (.produce p) = state.setProducer p .idle := by
        rw [step, produce_notifies hnotifies, State.notify]
        exact if_neg (by simp [State.setProducer, hparking])
      have hwait : receive (step state (.produce p)) =
          { state.setProducer p .idle with
            lock := none, receiver := .waiting } := by
        rw [hnext, receive]
        simp [State.setProducer, hparking]
      rw [hwait]
      intro hlost
      obtain ⟨other, hother⟩ := hlost rfl (.inr hclosed)
      by_cases heq : other = p
      · rw [heq] at hother
        change ((state.setProducer p .idle).producers p).Due at hother
        rw [setProducer_self] at hother
        exact hother
      · exact halone other (by simpa using Ne.symm heq)
          (by simpa [setProducer_of_ne state .idle heq] using hother)
  | submit p frame => exact hnotifies.elim
  | close p => exact hnotifies.elim
  | recvLatest => exact hnotifies.elim
  | receive => exact hnotifies.elim
  | spurious => exact hnotifies.elim
  | timeout => exact hnotifies.elim

theorem undisturbed_of_seen {events : List (Event Frame)}
    (hseen : ∀ seen, seen <+: events →
      NoLostWakeup (receive (seen.foldl step state))) :
    EventRun.Along step Undisturbed state events := by
  induction events generalizing state with
  | nil => trivial
  | cons event events ih =>
      constructor
      · by_contra hdisturbed
        exact lost_of_disturbed hdisturbed
          (hseen [event] (List.prefix_append [event] events))
      · apply ih
        intro seen hprefix
        exact hseen (event :: seen)
          (List.cons_prefix_cons.mpr ⟨rfl, hprefix⟩)

/-- The condition is exact: a run meets it if and only if the receiver, going
on after any of its steps, is not left in its wait. -/
theorem undisturbed_iff (events : List (Event Frame)) :
    EventRun.Along step Undisturbed start events ↔
      ∀ seen, seen <+: events →
        NoLostWakeup (receive (seen.foldl step start)) := by
  refine ⟨fun hundisturbed seen hprefix => ?_, undisturbed_of_seen⟩
  obtain ⟨rest, rfl⟩ := hprefix
  have hseen := ((EventRun.along_append ..).mp hundisturbed).1
  have hnext : EventRun.Along step Undisturbed start
      (seen ++ [Event.receive]) :=
    (EventRun.along_append ..).mpr ⟨hseen, fun h => h.elim, trivial⟩
  have hlast := noLostWakeup_of_awaited
    (run_frameAwaited (seen ++ [Event.receive])) (run_closeAwaited hnext)
  rw [List.foldl_append] at hlast
  exact hlast

end Wakeups

end GameStreamer.Capture.FrameChannel
