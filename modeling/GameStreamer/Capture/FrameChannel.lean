import Mathlib.Data.List.ReduceOption
import Mathlib.Logic.Function.Basic
import Mathlib.Tactic.SplitIfs
import GameStreamer.Core.EventRun

/-!
# The frame channel

A capture callback submits frames to a ring of depth one, and the encode
thread takes the newest.  Each operation is cut where another thread can get
in between: at the lock, the store of the flag, the wait and the notification.
A wait releases the lock and parks the thread in one step, as a condition
variable does.
-/

namespace GameStreamer.Capture.FrameChannel

/-- Where a producer's thread stands. -/
inductive Producer (Frame : Type) where
  | idle
  /-- `submit` has counted the frame and is about to lock. -/
  | submitting (frame : Frame)
  | locked (frame : Frame)
  /-- The frame is in the slot, and the lock is still held. -/
  | stored
  /-- `notify_one` is next. -/
  | unlocked
  /-- `close` has set the flag; `notify_all` is next. -/
  | closing
  deriving DecidableEq, Repr

/-- Where the receiver's thread stands. -/
inductive Receiver where
  | idle
  /-- `recv_latest` is about to lock. -/
  | locking
  /-- It holds the lock and looks into the slot. -/
  | testing
  /-- The slot was empty; the flag is next. -/
  | loading
  /-- The flag was not set; the wait is next. -/
  | parking
  | waiting
  /-- Out of the wait, and about to lock again. -/
  | woken (timedOut : Bool)
  /-- It has timed out and holds the lock. -/
  | expired
  deriving DecidableEq, Repr

inductive Holder where
  | producer (p : ℕ)
  | receiver
  deriving DecidableEq, Repr

/-- The frame channel with the threads that use it.  `FrameSink` and
`FrameReceiver` share the slot, its lock, the closed flag and the two counters;
the threads are cut at every point where another one may run. -/
structure State (Frame : Type) where
  slot : Option Frame
  lock : Option Holder
  closed : Bool
  offered : ℕ
  dropped : ℕ
  /-- The threads that hold a clone of the sink. -/
  producers : ℕ → Producer Frame
  receiver : Receiver
  /-- The frames that `submit` has put into the slot, oldest first. -/
  stored : List Frame
  /-- What `recv_latest` has returned, oldest first. -/
  returned : List (Option Frame)

inductive Event (Frame : Type) where
  /-- A producer calls `submit`. -/
  | submit (p : ℕ) (frame : Frame)
  /-- A producer calls `close`. -/
  | close (p : ℕ)
  /-- A producer's next step. -/
  | produce (p : ℕ)
  /-- The receiver calls `recv_latest`. -/
  | recvLatest
  /-- The receiver's next step. -/
  | receive
  /-- A wait ends without a notification. -/
  | spurious
  | timeout

section Steps

variable {Frame : Type}

/-- `frame_channel`. -/
def start : State Frame where
  slot := none
  lock := none
  closed := false
  offered := 0
  dropped := 0
  producers := fun _ => .idle
  receiver := .idle
  stored := []
  returned := []

def State.setProducer (state : State Frame) (p : ℕ)
    (producer : Producer Frame) : State Frame :=
  { state with producers := Function.update state.producers p producer }

/-- A notification ends the wait of a receiver that is in one. -/
def State.notify (state : State Frame) : State Frame :=
  if state.receiver = .waiting then { state with receiver := .woken false }
  else state

/-- `recv_latest` returns, and drops the lock. -/
def State.return (state : State Frame) (answer : Option Frame) : State Frame :=
  { state with
    lock := none
    receiver := .idle
    returned := state.returned ++ [answer] }

/-- The next step of `submit` or `close` in a producer's thread.  A producer
that finds the lock taken does not move. -/
def produce (state : State Frame) (p : ℕ) : State Frame :=
  match state.producers p with
  | .idle => state
  | .submitting frame =>
      if state.lock = none then
        { state.setProducer p (.locked frame) with
          lock := some (.producer p) }
      else state
  | .locked frame =>
      { state.setProducer p .stored with
        slot := some frame
        dropped := state.dropped + (if state.slot.isSome then 1 else 0)
        stored := state.stored ++ [frame] }
  | .stored => { state.setProducer p .unlocked with lock := none }
  | .unlocked => (state.setProducer p .idle).notify
  | .closing => (state.setProducer p .idle).notify

/-- The next step of `recv_latest`.  The wait on the condition variable
releases the lock and parks in one step; an expired wait looks into the slot
once more. -/
def receive (state : State Frame) : State Frame :=
  match state.receiver with
  | .idle => state
  | .locking =>
      if state.lock = none then
        { state with lock := some .receiver, receiver := .testing }
      else state
  | .testing =>
      match state.slot with
      | some frame => { state.return (some frame) with slot := none }
      | none => { state with receiver := .loading }
  | .loading =>
      if state.closed then state.return none
      else { state with receiver := .parking }
  | .parking => { state with lock := none, receiver := .waiting }
  | .waiting => state
  | .woken timedOut =>
      if state.lock = none then
        { state with
          lock := some .receiver
          receiver := if timedOut then .expired else .testing }
      else state
  | .expired => { state.return state.slot with slot := none }

/-- One step of one thread.  A thread calls only when it is in no call yet. -/
def step (state : State Frame) : Event Frame → State Frame
  | .submit p frame =>
      match state.producers p with
      | .idle =>
          { state.setProducer p (.submitting frame) with
            offered := state.offered + 1 }
      | _ => state
  | .close p =>
      match state.producers p with
      | .idle => { state.setProducer p .closing with closed := true }
      | _ => state
  | .produce p => produce state p
  | .recvLatest =>
      if state.receiver = .idle then { state with receiver := .locking }
      else state
  | .receive => receive state
  | .spurious =>
      if state.receiver = .waiting then { state with receiver := .woken false }
      else state
  | .timeout =>
      if state.receiver = .waiting then { state with receiver := .woken true }
      else state

/-! ## The lock -/

/-- The phases of a producer in which its guard is alive. -/
def Producer.HoldsLock : Producer Frame → Prop
  | .locked _ | .stored => True
  | _ => False

/-- The phases of the receiver in which its guard is alive. -/
def Receiver.HoldsLock : Receiver → Prop
  | .testing | .loading | .parking | .expired => True
  | _ => False

/-- The lock knows its holder, and nobody fills the slot between the
receiver's look into it and the wait. -/
structure Guarded (state : State Frame) : Prop where
  producer : ∀ p, (state.producers p).HoldsLock →
    state.lock = some (.producer p)
  receiver : state.receiver.HoldsLock → state.lock = some .receiver
  looked : state.receiver = .loading ∨ state.receiver = .parking →
    state.slot = none

theorem start_guarded : Guarded (start : State Frame) where
  producer := fun _ h => h.elim
  receiver := fun h => h.elim
  looked := by rintro (h | h) <;> cases h

@[simp]
theorem setProducer_self (state : State Frame) (p : ℕ)
    (producer : Producer Frame) :
    (state.setProducer p producer).producers p = producer :=
  Function.update_self ..

theorem setProducer_of_ne (state : State Frame) {p other : ℕ}
    (producer : Producer Frame) (hne : other ≠ p) :
    (state.setProducer p producer).producers other =
      state.producers other :=
  Function.update_of_ne hne ..

theorem holdsLock_of_ne {state : State Frame} {p other : ℕ}
    {producer : Producer Frame} (hne : other ≠ p)
    (h : ((state.setProducer p producer).producers other).HoldsLock) :
    (state.producers other).HoldsLock := by
  rwa [setProducer_of_ne state producer hne] at h

theorem Guarded.producer_unique {state : State Frame}
    (hguarded : Guarded state) {p other : ℕ}
    (hp : (state.producers p).HoldsLock)
    (hother : (state.producers other).HoldsLock) : other = p := by
  have hlock := hguarded.producer other hother
  rw [hguarded.producer p hp] at hlock
  cases hlock
  rfl

theorem Guarded.not_both {state : State Frame} (hguarded : Guarded state)
    {p : ℕ} (hp : (state.producers p).HoldsLock) :
    ¬state.receiver.HoldsLock := by
  intro hreceiver
  have hlock := hguarded.receiver hreceiver
  rw [hguarded.producer p hp] at hlock
  cases hlock

theorem Guarded.free_producer {state : State Frame}
    (hguarded : Guarded state) (hfree : state.lock = none) (p : ℕ) :
    ¬(state.producers p).HoldsLock := by
  intro hp
  have hlock := hguarded.producer p hp
  rw [hfree] at hlock
  cases hlock

theorem Guarded.free_receiver {state : State Frame}
    (hguarded : Guarded state) (hfree : state.lock = none) :
    ¬state.receiver.HoldsLock := by
  intro hreceiver
  have hlock := hguarded.receiver hreceiver
  rw [hfree] at hlock
  cases hlock

/-- A receiver between its look and its wait holds the lock. -/
theorem Receiver.holdsLock_of_looked {receiver : Receiver}
    (h : receiver = .loading ∨ receiver = .parking) :
    receiver.HoldsLock := by
  rcases h with rfl | rfl <;> trivial

/-- A producer's step to a phase without the lock changes nothing that the
lock protects. -/
theorem Guarded.setProducer {state : State Frame}
    (hguarded : Guarded state) (p : ℕ) {producer : Producer Frame}
    (hnot : ¬producer.HoldsLock) :
    Guarded (state.setProducer p producer) where
  producer := by
    intro other hother
    by_cases heq : other = p
    · subst heq
      rw [setProducer_self] at hother
      exact absurd hother hnot
    · exact hguarded.producer other (holdsLock_of_ne heq hother)
  receiver := hguarded.receiver
  looked := hguarded.looked

/-- So does the receiver's. -/
theorem Guarded.setReceiver {state : State Frame}
    (hguarded : Guarded state) {receiver : Receiver}
    (hnot : ¬receiver.HoldsLock) :
    Guarded { state with receiver := receiver } where
  producer := hguarded.producer
  receiver := fun h => absurd h hnot
  looked := fun h => absurd (Receiver.holdsLock_of_looked h) hnot

theorem Guarded.notify {state : State Frame} (hguarded : Guarded state) :
    Guarded state.notify := by
  rw [State.notify]
  split
  · exact hguarded.setReceiver id
  · exact hguarded

theorem produce_guarded {state : State Frame} (hguarded : Guarded state)
    (p : ℕ) : Guarded (produce state p) := by
  rw [produce]
  cases hp : state.producers p with
  | idle => exact hguarded
  | submitting frame =>
      dsimp only
      split
      · rename_i hfree
        constructor
        · intro other hother
          by_cases heq : other = p
          · rw [heq]
          · exact absurd (holdsLock_of_ne heq hother)
              (hguarded.free_producer hfree other)
        · exact fun h => absurd h (hguarded.free_receiver hfree)
        · exact hguarded.looked
      · exact hguarded
  | locked frame =>
      have hholds : (state.producers p).HoldsLock := by rw [hp]; trivial
      constructor
      · intro other hother
        by_cases heq : other = p
        · rw [heq]
          exact hguarded.producer p hholds
        · exact hguarded.producer other (holdsLock_of_ne heq hother)
      · exact hguarded.receiver
      · exact fun h => absurd (Receiver.holdsLock_of_looked h)
          (hguarded.not_both hholds)
  | stored =>
      have hholds : (state.producers p).HoldsLock := by rw [hp]; trivial
      constructor
      · intro other hother
        by_cases heq : other = p
        · rw [heq] at hother
          change ((state.setProducer p .unlocked).producers p).HoldsLock
            at hother
          rw [setProducer_self] at hother
          exact hother.elim
        · have hheld := holdsLock_of_ne heq hother
          exact absurd (hguarded.producer_unique hholds hheld) heq
      · exact fun h => absurd h (hguarded.not_both hholds)
      · exact hguarded.looked
  | unlocked => exact (hguarded.setProducer p id).notify
  | closing => exact (hguarded.setProducer p id).notify

/-- The receiver takes a free lock and goes on to look into the slot. -/
theorem Guarded.acquire {state : State Frame} (hguarded : Guarded state)
    (hfree : state.lock = none) {receiver : Receiver}
    (hlooks : ¬(receiver = .loading ∨ receiver = .parking)) :
    Guarded { state with lock := some .receiver, receiver := receiver } where
  producer := fun p h => absurd h (hguarded.free_producer hfree p)
  receiver := fun _ => rfl
  looked := fun h => absurd h hlooks

theorem Guarded.return {state : State Frame} (hguarded : Guarded state)
    (hholds : state.receiver.HoldsLock) (answer slot : Option Frame) :
    Guarded { state.return answer with slot := slot } where
  producer := fun _ h => absurd hholds (hguarded.not_both h)
  receiver := fun h => h.elim
  looked := by rintro (h | h) <;> cases h

theorem receive_guarded {state : State Frame} (hguarded : Guarded state) :
    Guarded (receive state) := by
  rw [receive]
  cases hreceiver : state.receiver with
  | idle => exact hguarded
  | locking =>
      dsimp only
      split
      · rename_i hfree
        exact hguarded.acquire hfree (by simp)
      · exact hguarded
  | testing =>
      have hheld : state.receiver.HoldsLock := by rw [hreceiver]; trivial
      cases hslot : state.slot with
      | some frame => exact hguarded.return hheld (some frame) none
      | none =>
          exact ⟨hguarded.producer, fun _ => hguarded.receiver hheld,
            fun _ => rfl⟩
  | loading =>
      have hheld : state.receiver.HoldsLock := by rw [hreceiver]; trivial
      dsimp only
      split
      · exact hguarded.return hheld none state.slot
      · exact ⟨hguarded.producer, fun _ => hguarded.receiver hheld,
          fun _ => hguarded.looked (.inl hreceiver)⟩
  | parking =>
      have hheld : state.receiver.HoldsLock := by rw [hreceiver]; trivial
      exact ⟨fun _ h => absurd hheld (hguarded.not_both h),
        fun h => h.elim, by rintro (h | h) <;> cases h⟩
  | waiting => exact hguarded
  | woken timedOut =>
      dsimp only
      split
      · rename_i hfree
        cases timedOut with
        | false => exact hguarded.acquire hfree (by simp)
        | true => exact hguarded.acquire hfree (by simp)
      · exact hguarded
  | expired =>
      have hheld : state.receiver.HoldsLock := by rw [hreceiver]; trivial
      exact hguarded.return hheld state.slot none

theorem submit_guarded {state : State Frame} (hguarded : Guarded state)
    (p : ℕ) (frame : Frame) : Guarded (step state (.submit p frame)) := by
  rw [step]
  split
  · have hset : Guarded (state.setProducer p (.submitting frame)) :=
      hguarded.setProducer p id
    exact ⟨hset.producer, hset.receiver, hset.looked⟩
  · exact hguarded

theorem close_guarded {state : State Frame} (hguarded : Guarded state)
    (p : ℕ) : Guarded (step state (.close p)) := by
  rw [step]
  split
  · have hset : Guarded (state.setProducer p .closing) :=
      hguarded.setProducer p id
    exact ⟨hset.producer, hset.receiver, hset.looked⟩
  · exact hguarded

theorem step_guarded (state : State Frame) (event : Event Frame)
    (hguarded : Guarded state) : Guarded (step state event) := by
  cases event with
  | submit p frame => exact submit_guarded hguarded p frame
  | close p => exact close_guarded hguarded p
  | produce p => exact produce_guarded hguarded p
  | recvLatest =>
      rw [step]
      split
      · exact hguarded.setReceiver id
      · exact hguarded
  | receive => exact receive_guarded hguarded
  | spurious =>
      rw [step]
      split
      · exact hguarded.setReceiver id
      · exact hguarded
  | timeout =>
      rw [step]
      split
      · exact hguarded.setReceiver id
      · exact hguarded

/-- In every interleaving, at most one thread is inside the lock. -/
theorem run_guarded (events : List (Event Frame)) :
    Guarded (events.foldl step start) :=
  EventRun.foldl_preserves step_guarded events start_guarded

/-! ## The frames -/

/-- Every frame that was put into the slot has been overwritten, has been
returned, or is there still.  Frames come out in the order in which they came
in, and the one in the slot is the newest. -/
structure Accounted (state : State Frame) : Prop where
  count : state.stored.length =
    state.dropped + state.returned.reduceOption.length +
      state.slot.toList.length
  order : (state.returned.reduceOption ++ state.slot.toList).Sublist
    state.stored
  newest : ∀ frame, state.slot = some frame →
    state.stored.getLast? = some frame

theorem start_accounted : Accounted (start : State Frame) where
  count := rfl
  order := List.Sublist.refl _
  newest := by rintro frame ⟨⟩

theorem Accounted.store {state : State Frame} (haccounted : Accounted state)
    (frame : Frame) :
    Accounted { state with
      slot := some frame
      dropped := state.dropped + (if state.slot.isSome then 1 else 0)
      stored := state.stored ++ [frame] } where
  count := by
    have hcount := haccounted.count
    cases hslot : state.slot with
    | none => simp_all
    | some old => simp_all; omega
  order := by
    have hreturned : state.returned.reduceOption.Sublist state.stored :=
      (List.sublist_append_left ..).trans haccounted.order
    exact hreturned.append (List.Sublist.refl [frame])
  newest := by
    rintro _ ⟨⟩
    exact List.getLast?_concat

/-- `recv_latest` returns what it takes out of the slot. -/
theorem Accounted.take {state : State Frame} (haccounted : Accounted state) :
    Accounted { state.return state.slot with slot := none } where
  count := by
    have hcount := haccounted.count
    simpa [State.return, List.reduceOption_append,
      List.reduceOption_singleton, Nat.add_assoc] using hcount
  order := by
    have horder := haccounted.order
    simpa [State.return, List.reduceOption_append,
      List.reduceOption_singleton] using horder
  newest := by rintro frame ⟨⟩

/-- `recv_latest` returns `None`, and leaves the slot as it is. -/
theorem Accounted.return_none {state : State Frame}
    (haccounted : Accounted state) : Accounted (state.return none) where
  count := by
    simpa [State.return, List.reduceOption_append] using haccounted.count
  order := by
    simpa [State.return, List.reduceOption_append] using haccounted.order
  newest := haccounted.newest

theorem Accounted.notify {state : State Frame}
    (haccounted : Accounted state) : Accounted state.notify := by
  rw [State.notify]
  split
  · exact ⟨haccounted.count, haccounted.order, haccounted.newest⟩
  · exact haccounted

theorem Accounted.setProducer {state : State Frame}
    (haccounted : Accounted state) (p : ℕ) (producer : Producer Frame) :
    Accounted (state.setProducer p producer) :=
  ⟨haccounted.count, haccounted.order, haccounted.newest⟩

theorem produce_accounted {state : State Frame}
    (haccounted : Accounted state) (p : ℕ) :
    Accounted (produce state p) := by
  rw [produce]
  split
  · exact haccounted
  · split
    · exact ⟨haccounted.count, haccounted.order, haccounted.newest⟩
    · exact haccounted
  · rename_i frame _
    exact (haccounted.setProducer p .stored).store frame
  · exact ⟨haccounted.count, haccounted.order, haccounted.newest⟩
  · exact (haccounted.setProducer p .idle).notify
  · exact (haccounted.setProducer p .idle).notify

theorem receive_accounted {state : State Frame}
    (haccounted : Accounted state) : Accounted (receive state) := by
  have hsame : ∀ lock receiver, Accounted
      { state with lock := lock, receiver := receiver } :=
    fun _ _ => ⟨haccounted.count, haccounted.order, haccounted.newest⟩
  rw [receive]
  cases state.receiver with
  | idle => exact haccounted
  | locking =>
      dsimp only
      split
      · exact hsame _ _
      · exact haccounted
  | testing =>
      cases hslot : state.slot with
      | some frame =>
          have htake := haccounted.take
          rw [hslot] at htake
          exact htake
      | none =>
          have htested := hsame state.lock .loading
          rw [hslot] at htested
          exact htested
  | loading =>
      dsimp only
      split
      · exact haccounted.return_none
      · exact hsame _ _
  | parking => exact hsame _ _
  | waiting => exact haccounted
  | woken timedOut =>
      dsimp only
      split
      · exact hsame _ _
      · exact haccounted
  | expired => exact haccounted.take

theorem step_accounted (state : State Frame) (event : Event Frame)
    (haccounted : Accounted state) : Accounted (step state event) := by
  have hsame : ∀ closed offered producers receiver, Accounted
      { state with
        closed := closed
        offered := offered
        producers := producers
        receiver := receiver } :=
    fun _ _ _ _ =>
      ⟨haccounted.count, haccounted.order, haccounted.newest⟩
  cases event with
  | submit p frame =>
      rw [step]
      split
      · exact hsame ..
      · exact haccounted
  | close p =>
      rw [step]
      split
      · exact hsame ..
      · exact haccounted
  | produce p => exact produce_accounted haccounted p
  | recvLatest =>
      rw [step]
      split
      · exact hsame ..
      · exact haccounted
  | receive => exact receive_accounted haccounted
  | spurious =>
      rw [step]
      split
      · exact hsame ..
      · exact haccounted
  | timeout =>
      rw [step]
      split
      · exact hsame ..
      · exact haccounted

/-- In every interleaving, no frame is lost or returned twice, and none is
returned before an older one. -/
theorem run_accounted (events : List (Event Frame)) :
    Accounted (events.foldl step start) :=
  EventRun.foldl_preserves step_accounted events start_accounted

end Steps

/-! ## What a step of the channel does to the frames -/

section Frames

variable {Frame : Type}

/-- The frame that a producer has not stored yet. -/
def Producer.carried : Producer Frame → Option Frame
  | .submitting frame | .locked frame => some frame
  | _ => none

/-- A producer goes on, and stores its frame if it holds the lock. -/
inductive Produced (state : State Frame) (p : ℕ) (state' : State Frame) :
    Prop where
  | moves (next : Producer Frame)
      (hproducers : state'.producers =
        Function.update state.producers p next)
      (hcarried : next.carried = (state.producers p).carried)
      (hlocked : ∀ frame, state.producers p ≠ .locked frame)
      (hslot : state'.slot = state.slot)
      (hstored : state'.stored = state.stored)
      (hreceiver : state.receiver = .idle → state'.receiver = .idle)
  | stores (frame : Frame) (hphase : state.producers p = .locked frame)
      (hproducers : state'.producers =
        Function.update state.producers p .stored)
      (hslot : state'.slot = some frame)
      (hstored : state'.stored = state.stored ++ [frame])
      (hreceiver : state'.receiver = state.receiver)

/-- A producer that waits for the lock. -/
theorem Produced.stays (state : State Frame) (p : ℕ)
    (hlocked : ∀ frame, state.producers p ≠ .locked frame) :
    Produced state p state :=
  .moves (state.producers p) (Function.update_eq_self ..).symm rfl hlocked rfl
    rfl id

/-- The notification at the end of a call. -/
theorem Produced.notifies (state : State Frame) (p : ℕ)
    (hlocked : ∀ frame, state.producers p ≠ .locked frame)
    (hcarried : (state.producers p).carried = none) :
    Produced state p (state.setProducer p .idle).notify := by
  rw [State.notify]
  split_ifs with hwaiting
  · exact .moves .idle rfl hcarried.symm hlocked rfl rfl fun hidle =>
      absurd (hidle.symm.trans hwaiting) (by simp)
  · exact .moves .idle rfl hcarried.symm hlocked rfl rfl id

theorem produce_of_idle {state : State Frame} {p : ℕ}
    (hidle : state.producers p = .idle) : produce state p = state := by
  rw [produce, hidle]

theorem produced (state : State Frame) (p : ℕ) :
    Produced state p (produce state p) := by
  cases hphase : state.producers p with
  | idle =>
      rw [produce_of_idle hphase]
      exact .stays state p (by simp [hphase])
  | submitting frame =>
      rw [produce, hphase]
      dsimp only
      split
      · exact .moves (.locked frame) rfl (by rw [hphase]; rfl)
          (by simp [hphase]) rfl rfl id
      · exact .stays state p (by simp [hphase])
  | locked frame =>
      rw [produce, hphase]
      exact .stores frame hphase rfl rfl rfl rfl
  | stored =>
      rw [produce, hphase]
      exact .moves .unlocked rfl (by rw [hphase]; rfl) (by simp [hphase]) rfl
        rfl id
  | unlocked =>
      rw [produce, hphase]
      exact .notifies state p (by simp [hphase]) (by rw [hphase]; rfl)
  | closing =>
      rw [produce, hphase]
      exact .notifies state p (by simp [hphase]) (by rw [hphase]; rfl)

/-- What `recv_latest` has returned in the step between the two states. -/
def answered (state state' : State Frame) : Option Frame :=
  if state.returned.length < state'.returned.length then
    state'.returned.getLast?.join
  else none

/-- The receiver goes on, and takes the frame in the slot if it returns with
one. -/
inductive Received (state state' : State Frame) : Prop where
  | waits (hproducers : state'.producers = state.producers)
      (hslot : state'.slot = state.slot)
      (hstored : state'.stored = state.stored)
      (hreceiver : state.receiver = .idle → state'.receiver = .idle)
      (hanswered : answered state state' = none)
  | takes (frame : Frame) (hproducers : state'.producers = state.producers)
      (hbefore : state.slot = some frame) (hslot : state'.slot = none)
      (hstored : state'.stored = state.stored)
      (hbusy : state.receiver ≠ .idle) (hreceiver : state'.receiver = .idle)
      (hanswered : answered state state' = some frame)

theorem Received.stays (state : State Frame) : Received state state :=
  .waits rfl rfl rfl id (by rw [answered, if_neg (Nat.lt_irrefl _)])

theorem answered_return (state : State Frame) (answer slot : Option Frame) :
    answered state { state.return answer with slot := slot } = answer := by
  rw [answered, State.return]
  dsimp only
  rw [if_pos (by simp), List.getLast?_concat]
  rfl

theorem received (state : State Frame) : Received state (receive state) := by
  have hturn : ∀ lock receiver, state.receiver ≠ .idle →
      Received state { state with lock := lock, receiver := receiver } :=
    fun lock receiver hbusy => .waits rfl rfl rfl (absurd · hbusy)
      (by rw [answered, if_neg (Nat.lt_irrefl _)])
  have hnone : state.receiver ≠ .idle → state.slot = none →
      Received state { state.return none with slot := none } :=
    fun hbusy hslot => .waits rfl hslot.symm rfl (absurd · hbusy)
      (answered_return state none none)
  have hsome : ∀ frame, state.receiver ≠ .idle → state.slot = some frame →
      Received state { state.return (some frame) with slot := none } :=
    fun frame hbusy hslot => .takes frame rfl hslot rfl rfl hbusy rfl
      (answered_return state (some frame) none)
  cases hphase : state.receiver with
  | idle =>
      rw [receive, hphase]
      exact .stays state
  | locking =>
      rw [receive, hphase]
      dsimp only
      split
      · exact hturn _ _ (by simp [hphase])
      · exact .stays state
  | testing =>
      rw [receive, hphase]
      dsimp only
      split
      case h_1 frame hslot => exact hsome frame (by simp [hphase]) hslot
      case h_2 => exact hturn _ _ (by simp [hphase])
  | loading =>
      rw [receive, hphase]
      dsimp only
      split
      · exact .waits rfl rfl rfl (by simp [hphase])
          (answered_return state none state.slot)
      · exact hturn _ _ (by simp [hphase])
  | parking =>
      rw [receive, hphase]
      exact hturn _ _ (by simp [hphase])
  | waiting =>
      rw [receive, hphase]
      exact .stays state
  | woken timedOut =>
      rw [receive, hphase]
      dsimp only
      split
      · exact hturn _ _ (by simp [hphase])
      · exact .stays state
  | expired =>
      rw [receive, hphase]
      dsimp only
      cases hslot : state.slot with
      | none => exact hnone (by simp [hphase]) hslot
      | some frame => exact hsome frame (by simp [hphase]) hslot

theorem receive_producers (state : State Frame) :
    (receive state).producers = state.producers := by
  cases received state with
  | waits hproducers => exact hproducers
  | takes _ hproducers => exact hproducers

theorem receive_stored (state : State Frame) :
    (receive state).stored = state.stored := by
  cases received state with
  | waits _ _ hstored => exact hstored
  | takes _ _ _ _ hstored => exact hstored

/-- Only a producer's own step stores a frame. -/
theorem stored_step {event : Event Frame} (hevent : ∀ p, event ≠ .produce p)
    (state : State Frame) : (step state event).stored = state.stored := by
  cases event with
  | produce p => exact absurd rfl (hevent p)
  | receive => exact receive_stored state
  | submit p frame =>
      simp only [step]
      split <;> rfl
  | close p =>
      simp only [step]
      split <;> rfl
  | recvLatest =>
      simp only [step]
      split <;> rfl
  | spurious =>
      simp only [step]
      split <;> rfl
  | timeout =>
      simp only [step]
      split <;> rfl

end Frames

end GameStreamer.Capture.FrameChannel
