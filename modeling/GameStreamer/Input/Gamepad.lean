import GameStreamer.Core.EventRun
import GameStreamer.Protocol.Input
import Mathlib.Logic.Function.Basic

/-!
# Virtual game controllers on Windows

A snapshot of the client's controller becomes the report of a virtual Xbox pad
behind the ViGEm driver.  The driver may be absent, may refuse to plug in a
pad, may never make it ready, may lose reports and may fail to unplug, so each
of its answers is an input here.  The injector's own record of its seats is
compared with the pads that the system really shows.
-/

namespace GameStreamer

/-- What a host tells the client about its virtual pads. -/
inductive InputFeedback where
  | gamepadConnected (seat : UInt8)
  | gamepadDisconnected (seat : UInt8)
  deriving DecidableEq, Repr

/-- The driver's report. -/
structure XGamepad where
  buttons : BitVec 16
  leftTrigger : UInt8
  rightTrigger : UInt8
  thumbLx : Int16
  thumbLy : Int16
  thumbRx : Int16
  thumbRy : Int16
  deriving DecidableEq

/-- A pad of which nothing has been reported. -/
def XGamepad.default : XGamepad := ⟨0, 0, 0, 0, 0, 0, 0⟩

namespace VigemGamepad

/-- From `0..=i16::MAX` to `0..=255`. -/
def trigger (value : Int16) : UInt8 :=
  ((max value 0) >>> 7).toUInt16.toUInt8

def report (input : GamepadInput) : XGamepad :=
  let axis := fun (a : GamepadInput.Axis) => input.axes.get a.index
  { buttons := (input.buttons &&& GamepadInput.xinputMask).setWidth 16
    leftTrigger := trigger (axis .leftTrigger)
    rightTrigger := trigger (axis .rightTrigger)
    thumbLx := axis .leftX
    thumbLy := axis .leftY
    thumbRx := axis .rightX
    thumbRy := axis .rightY }

/-- Only a button the mask leaves out is lost on the way to the driver. -/
theorem report_buttons (input : GamepadInput)
    (hbuttons : input.buttons &&& GamepadInput.xinputMask = input.buttons) :
    (report input).buttons.setWidth 32 = input.buttons := by
  rw [report, hbuttons]
  apply BitVec.eq_of_getLsbD_eq
  intro i hi
  have hbit := congrArg (fun buttons => buttons.getLsbD i) hbuttons
  simp only [BitVec.getLsbD_and, GamepadInput.xinputMask] at hbit
  simp only [BitVec.getLsbD_setWidth, hi, decide_true, Bool.true_and]
  by_cases hlow : i < 16
  · rw [decide_eq_true hlow, Bool.true_and]
  · have hmask : (65535 : BitVec 32).getLsbD i = false :=
      Nat.testBit_lt_two_pow (Nat.lt_of_lt_of_le (by decide)
        (Nat.pow_le_pow_right (by decide) (Nat.le_of_not_lt hlow)))
    rw [decide_eq_false hlow, Bool.false_and, ← hbit, hmask, Bool.and_false]

end VigemGamepad

/-! ### The driver -/

/-- What the injector uses of the ViGEm driver: a state of its own, the pads
that the system shows in that state under the numbers of their targets, and
what each operation does when the driver accepts it. -/
structure VigemDriver (Bus : Type*) where
  initial : Bus
  pads : Bus → ℕ → Option XGamepad
  plugin : Bus → ℕ → Bus
  unplug : Bus → ℕ → Bus
  update : Bus → ℕ → XGamepad → Bus

namespace VigemDriver

/-- What the driver promises of an operation that it accepts: it shows a pad
from its plugging in to its unplugging, with the last report, and the pads of
other targets stay as they are. -/
structure Documented {Bus : Type*} (vigem : VigemDriver Bus) : Prop where
  initial : ∀ target, vigem.pads vigem.initial target = none
  plugin : ∀ bus target, vigem.pads (vigem.plugin bus target) =
    Function.update (vigem.pads bus) target (some XGamepad.default)
  unplug : ∀ bus target, vigem.pads (vigem.unplug bus target) =
    Function.update (vigem.pads bus) target none
  update : ∀ bus target report, vigem.pads (vigem.update bus target report) =
    Function.update (vigem.pads bus) target (some report)

/-- A driver that keeps nothing but the pads it shows. -/
def table : VigemDriver (ℕ → Option XGamepad) where
  initial := fun _ => none
  pads := id
  plugin pads target := Function.update pads target (some XGamepad.default)
  unplug pads target := Function.update pads target none
  update pads target report := Function.update pads target (some report)

theorem documented_table : table.Documented :=
  ⟨fun _ => rfl, fun _ _ => rfl, fun _ _ => rfl, fun _ _ _ => rfl⟩

end VigemDriver

/-- The driver's state, with the number of the next target and how often a
connection to the driver was asked for. -/
structure VigemBus (Bus : Type*) where
  state : Bus
  next : ℕ
  connects : ℕ

namespace VigemBus

variable {Bus : Type*} (vigem : VigemDriver Bus)

def empty : VigemBus Bus := ⟨vigem.initial, 0, 0⟩

/-- The pads that the system shows. -/
def pads (bus : VigemBus Bus) : ℕ → Option XGamepad := vigem.pads bus.state

/-- Plug in a fresh target. -/
def plugin (bus : VigemBus Bus) : VigemBus Bus :=
  { bus with
    state := vigem.plugin bus.state bus.next
    next := bus.next + 1 }

/-- Unplug a target, unless the driver refuses. -/
def unplug (bus : VigemBus Bus) (accepted : Bool) (target : ℕ) :
    VigemBus Bus :=
  if accepted then { bus with state := vigem.unplug bus.state target }
  else bus

def submit (bus : VigemBus Bus) (target : ℕ) (report : XGamepad) :
    VigemBus Bus :=
  { bus with state := vigem.update bus.state target report }

@[simp]
theorem next_plugin (bus : VigemBus Bus) :
    (bus.plugin vigem).next = bus.next + 1 := rfl

@[simp]
theorem connects_plugin (bus : VigemBus Bus) :
    (bus.plugin vigem).connects = bus.connects := rfl

@[simp]
theorem next_unplug (bus : VigemBus Bus) (accepted : Bool) (target : ℕ) :
    (bus.unplug vigem accepted target).next = bus.next := by
  cases accepted <;> rfl

@[simp]
theorem connects_unplug (bus : VigemBus Bus) (accepted : Bool) (target : ℕ) :
    (bus.unplug vigem accepted target).connects = bus.connects := by
  cases accepted <;> rfl

variable {vigem} (hvigem : vigem.Documented)

include hvigem

theorem pads_plugin (bus : VigemBus Bus) :
    (bus.plugin vigem).pads vigem = Function.update (bus.pads vigem) bus.next
      (some XGamepad.default) :=
  hvigem.plugin bus.state bus.next

theorem pads_unplug (bus : VigemBus Bus) (accepted : Bool) (target : ℕ) :
    (bus.unplug vigem accepted target).pads vigem =
      if accepted then Function.update (bus.pads vigem) target none
      else bus.pads vigem := by
  cases accepted with
  | false => rfl
  | true => exact hvigem.unplug bus.state target

theorem pads_submit (bus : VigemBus Bus) (target : ℕ) (report : XGamepad) :
    (bus.submit vigem target report).pads vigem =
      Function.update (bus.pads vigem) target (some report) :=
  hvigem.update bus.state target report

end VigemBus

/-- How the driver answers one report. -/
inductive UpdateAnswer where
  | ok
  | noMoreItems
  | failed
  deriving DecidableEq, Repr

/-- What the driver answers while one event is injected.  `drop` is the answer
to the unplugging that the destructor of a target asks for. -/
structure DriverAnswers where
  connect : Bool
  plugin : Bool
  ready : Bool
  update : ℕ → UpdateAnswer
  unplug : Bool
  drop : Bool

/-- Answers of a driver that is in order. -/
def DriverAnswers.inOrder : DriverAnswers :=
  ⟨true, true, true, fun _ => .ok, true, true⟩

/-- The seats with a target of their own.  A target is kept once its pad has
become ready, until its seat is removed. -/
structure VigemGamepad where
  seats : UInt8 → Option ℕ

namespace VigemGamepad

section Driver

variable {Bus : Type*} (vigem : VigemDriver Bus)

def readyRetries : ℕ := 10

/-- The target of a seat, with a fresh virtual pad on first use.  A target
that is not kept is dropped, and dropping it unplugs. -/
def seat (answers : DriverAnswers) (bus : VigemBus Bus) (pad : VigemGamepad)
    (seat : UInt8) : VigemBus Bus × VigemGamepad × Option ℕ :=
  match pad.seats seat with
  | some target => (bus, pad, some target)
  | none =>
      if answers.plugin then
        if answers.ready then
          (bus.plugin vigem,
            { seats := Function.update pad.seats seat (some bus.next) },
            some bus.next)
        else
          ((bus.plugin vigem).unplug vigem answers.drop bus.next, pad, none)
      else (bus, pad, none)

/-- Whether a report gets through within so many attempts, counted from
`attempt`. -/
def accepted (answers : ℕ → UpdateAnswer) : ℕ → ℕ → Bool
  | 0, _ => false
  | retries + 1, attempt =>
      match answers attempt with
      | .ok => true
      | .noMoreItems => accepted answers retries (attempt + 1)
      | .failed => false

def update (answers : DriverAnswers) (bus : VigemBus Bus) (target : ℕ)
    (report : XGamepad) : VigemBus Bus :=
  if accepted answers.update readyRetries 0 then
    bus.submit vigem target report
  else bus

def setState (answers : DriverAnswers) (bus : VigemBus Bus)
    (pad : VigemGamepad) (input : GamepadInput) :
    VigemBus Bus × VigemGamepad × Bool :=
  let newlyPlugged := (pad.seats input.seat).isNone
  match pad.seat vigem answers bus input.seat with
  | (bus, pad, none) => (bus, pad, false)
  | (bus, pad, some target) =>
      (update vigem answers bus target (report input), pad, newlyPlugged)

/-- A target that could not be unplugged is tried again when it is dropped. -/
def removeSeat (answers : DriverAnswers) (bus : VigemBus Bus)
    (pad : VigemGamepad) (seat : UInt8) :
    VigemBus Bus × VigemGamepad × Bool :=
  match pad.seats seat with
  | none => (bus, pad, false)
  | some target =>
      ((bus.unplug vigem answers.unplug target).unplug vigem
          (!answers.unplug && answers.drop) target,
        { seats := Function.update pad.seats seat none }, true)

end Driver

end VigemGamepad

/-- The controller half of the Windows injector, with the system it acts
on. -/
structure GamepadInjector (Bus : Type*) where
  gamepad : Option VigemGamepad
  gamepadUnavailable : Bool
  bus : VigemBus Bus

/-- The two events that reach a virtual pad. -/
inductive GamepadEvent where
  | snapshot (input : GamepadInput)
  | disconnect (seat : UInt8)
  deriving DecidableEq

namespace GamepadInjector

variable {Bus : Type*} (vigem : VigemDriver Bus)

def new : GamepadInjector Bus := ⟨none, false, VigemBus.empty vigem⟩

/-- `WinInjector::gamepad`: connect on first use, unless that has failed
before. -/
def snapshot (answers : DriverAnswers) (injector : GamepadInjector Bus)
    (input : GamepadInput) : GamepadInjector Bus × Bool :=
  match injector.gamepad with
  | some pad =>
      match pad.setState vigem answers injector.bus input with
      | (bus, pad, newlyPlugged) =>
          ({ injector with gamepad := some pad, bus := bus }, newlyPlugged)
  | none =>
      if injector.gamepadUnavailable then (injector, false)
      else
        let bus :=
          { injector.bus with connects := injector.bus.connects + 1 }
        if answers.connect then
          match (⟨fun _ => none⟩ : VigemGamepad).setState vigem answers
            bus input with
          | (bus, pad, newlyPlugged) =>
              ({ injector with gamepad := some pad, bus := bus }, newlyPlugged)
        else
          ({ injector with gamepadUnavailable := true, bus := bus }, false)

def disconnect (answers : DriverAnswers) (injector : GamepadInjector Bus)
    (seat : UInt8) : GamepadInjector Bus × Bool :=
  match injector.gamepad with
  | none => (injector, false)
  | some pad =>
      match pad.removeSeat vigem answers injector.bus seat with
      | (bus, pad, removed) =>
          ({ injector with gamepad := some pad, bus := bus }, removed)

def inject (answers : DriverAnswers) (injector : GamepadInjector Bus) :
    GamepadEvent → GamepadInjector Bus × Option InputFeedback
  | .snapshot input =>
      match injector.snapshot vigem answers input with
      | (injector, newlyPlugged) =>
          (injector,
            if newlyPlugged then some (.gamepadConnected input.seat)
            else none)
  | .disconnect seat =>
      match injector.disconnect vigem answers seat with
      | (injector, removed) =>
          (injector,
            if removed then some (.gamepadDisconnected seat) else none)

/-- The injector with everything it has reported. -/
def step (state : GamepadInjector Bus × List InputFeedback)
    (event : DriverAnswers × GamepadEvent) :
    GamepadInjector Bus × List InputFeedback :=
  match state.1.inject vigem event.1 event.2 with
  | (injector, feedback) => (injector, state.2 ++ feedback.toList)

/-- The target of a seat, if its pad is plugged in. -/
def target (injector : GamepadInjector Bus) (seat : UInt8) : Option ℕ :=
  injector.gamepad.bind fun pad => pad.seats seat

end GamepadInjector

/-! ### What one event can do -/

/-- The seats' targets beside the pads of the system. -/
structure PadTable where
  target : UInt8 → Option ℕ
  pads : ℕ → Option XGamepad
  next : ℕ
  unavailable : Bool

def GamepadInjector.table {Bus : Type*} (vigem : VigemDriver Bus)
    (injector : GamepadInjector Bus) : PadTable where
  target := injector.target
  pads := injector.bus.pads vigem
  next := injector.bus.next
  unavailable := injector.gamepadUnavailable

/-- The ways in which an event moves the table, and what it reports. -/
inductive PadMove (answers : DriverAnswers) (table : PadTable) :
    GamepadEvent → PadTable → Option InputFeedback → Prop
  | unavailable (input : GamepadInput) (hunavailable : table.unavailable) :
      PadMove answers table (.snapshot input) table none
  | unconnected (input : GamepadInput) (hconnect : answers.connect = false) :
      PadMove answers table (.snapshot input)
        { table with unavailable := true } none
  | refused (input : GamepadInput) (hplugin : answers.plugin = false) :
      PadMove answers table (.snapshot input) table none
  | unready (input : GamepadInput) (hready : answers.ready = false) :
      PadMove answers table (.snapshot input)
        { table with
          pads := Function.update table.pads table.next
            (if answers.drop then none else some XGamepad.default)
          next := table.next + 1 } none
  | plugged (input : GamepadInput) (hseat : table.target input.seat = none) :
      PadMove answers table (.snapshot input)
        { table with
          target := Function.update table.target input.seat (some table.next)
          pads := Function.update table.pads table.next (some
            (if VigemGamepad.accepted answers.update VigemGamepad.readyRetries 0
              then VigemGamepad.report input else XGamepad.default))
          next := table.next + 1 }
        (some (.gamepadConnected input.seat))
  | reported (input : GamepadInput) (target : ℕ)
      (hseat : table.target input.seat = some target) :
      PadMove answers table (.snapshot input)
        { table with
          pads :=
            if VigemGamepad.accepted answers.update VigemGamepad.readyRetries 0
            then Function.update table.pads target
              (some (VigemGamepad.report input))
            else table.pads } none
  | absent (seat : UInt8) (hseat : table.target seat = none) :
      PadMove answers table (.disconnect seat) table none
  | removed (seat : UInt8) (target : ℕ)
      (hseat : table.target seat = some target) :
      PadMove answers table (.disconnect seat)
        { table with
          target := Function.update table.target seat none
          pads :=
            if answers.unplug || answers.drop then
              Function.update table.pads target none
            else table.pads }
        (some (.gamepadDisconnected seat))

namespace GamepadInjector

variable {Bus : Type*} {vigem : VigemDriver Bus}

@[simp]
theorem next_update (answers : DriverAnswers) (bus : VigemBus Bus)
    (target : ℕ) (report : XGamepad) :
    (VigemGamepad.update vigem answers bus target report).next = bus.next := by
  rw [VigemGamepad.update]
  split
  · rfl
  · rfl

@[simp]
theorem connects_update (answers : DriverAnswers) (bus : VigemBus Bus)
    (target : ℕ) (report : XGamepad) :
    (VigemGamepad.update vigem answers bus target report).connects =
      bus.connects := by
  rw [VigemGamepad.update]
  split
  · rfl
  · rfl

/-- The first report replaces what a fresh pad shows. -/
theorem first_report (pads : ℕ → Option XGamepad) (target : ℕ)
    (accepted : Bool) (fresh report : XGamepad) :
    (if accepted then
        Function.update (Function.update pads target (some fresh)) target
          (some report)
      else Function.update pads target (some fresh)) =
      Function.update pads target
        (some (if accepted then report else fresh)) := by
  cases accepted with
  | false => rfl
  | true => exact Function.update_idem _ _ _

section Moves

variable (hvigem : vigem.Documented)

include hvigem

theorem pads_update (answers : DriverAnswers) (bus : VigemBus Bus)
    (target : ℕ) (report : XGamepad) :
    (VigemGamepad.update vigem answers bus target report).pads vigem =
      if VigemGamepad.accepted answers.update VigemGamepad.readyRetries 0
      then Function.update (bus.pads vigem) target (some report)
      else bus.pads vigem := by
  rw [VigemGamepad.update]
  split
  · exact VigemBus.pads_submit hvigem bus target report
  · rfl

/-- A pad that never becomes ready is dropped at once. -/
theorem pads_unplug_plugin (bus : VigemBus Bus) (drop : Bool) :
    ((bus.plugin vigem).unplug vigem drop bus.next).pads vigem =
      Function.update (bus.pads vigem) bus.next
        (if drop then none else some XGamepad.default) := by
  rw [VigemBus.pads_unplug hvigem, VigemBus.pads_plugin hvigem]
  cases drop with
  | false => rfl
  | true => exact Function.update_idem _ _ _

/-- A target that is unplugged twice is gone if one of the two succeeded. -/
theorem pads_unplug_unplug (bus : VigemBus Bus) (unplug drop : Bool)
    (target : ℕ) :
    ((bus.unplug vigem unplug target).unplug vigem (!unplug && drop)
        target).pads vigem =
      if unplug || drop then Function.update (bus.pads vigem) target none
      else bus.pads vigem := by
  rw [VigemBus.pads_unplug hvigem, VigemBus.pads_unplug hvigem]
  cases unplug <;> cases drop <;> rfl

/-- The moves that a snapshot makes once the injector is connected. -/
theorem move_setState (answers : DriverAnswers) (pad : VigemGamepad)
    (bus : VigemBus Bus) (unavailable : Bool) (input : GamepadInput) :
    PadMove answers ⟨pad.seats, bus.pads vigem, bus.next, unavailable⟩
      (.snapshot input)
      ⟨(pad.setState vigem answers bus input).2.1.seats,
        (pad.setState vigem answers bus input).1.pads vigem,
        (pad.setState vigem answers bus input).1.next, unavailable⟩
      (if (pad.setState vigem answers bus input).2.2 then
        some (.gamepadConnected input.seat) else none) := by
  unfold VigemGamepad.setState VigemGamepad.seat
  cases hseat : pad.seats input.seat with
  | some target =>
      simp only [pads_update hvigem, next_update, Option.isNone_some,
        Bool.false_eq_true, if_false]
      exact .reported input target hseat
  | none =>
      by_cases hplugin : answers.plugin
      · by_cases hready : answers.ready
        · simp only [hplugin, hready, if_true, pads_update hvigem, next_update,
            VigemBus.pads_plugin hvigem, VigemBus.next_plugin,
            Option.isNone_none]
          rw [first_report]
          exact .plugged input hseat
        · simp only [hplugin, hready, Bool.false_eq_true, if_true, if_false,
            pads_unplug_plugin hvigem, VigemBus.next_unplug,
            VigemBus.next_plugin]
          exact .unready input (Bool.eq_false_iff.mpr hready)
      · simp only [hplugin, Bool.false_eq_true, if_false]
        exact .refused input (Bool.eq_false_iff.mpr hplugin)

theorem move_snapshot (answers : DriverAnswers)
    (injector : GamepadInjector Bus) (input : GamepadInput) :
    PadMove answers (injector.table vigem) (.snapshot input)
      ((injector.inject vigem answers (.snapshot input)).1.table vigem)
      (injector.inject vigem answers (.snapshot input)).2 := by
  obtain ⟨gamepad, unavailable, bus⟩ := injector
  cases gamepad with
  | some pad => exact move_setState hvigem answers pad bus unavailable input
  | none =>
      unfold inject snapshot
      cases unavailable with
      | true => exact .unavailable input rfl
      | false =>
          by_cases hconnect : answers.connect
          · simp only [hconnect, Bool.false_eq_true, if_false, if_true]
            exact move_setState hvigem answers ⟨fun _ => none⟩
              { bus with connects := bus.connects + 1 } false input
          · simp only [hconnect, Bool.false_eq_true, if_false]
            exact .unconnected input (Bool.eq_false_iff.mpr hconnect)

/-- The moves that a disconnect makes at a connected injector. -/
theorem move_removeSeat (answers : DriverAnswers) (pad : VigemGamepad)
    (bus : VigemBus Bus) (unavailable : Bool) (seat : UInt8) :
    PadMove answers ⟨pad.seats, bus.pads vigem, bus.next, unavailable⟩
      (.disconnect seat)
      ⟨(pad.removeSeat vigem answers bus seat).2.1.seats,
        (pad.removeSeat vigem answers bus seat).1.pads vigem,
        (pad.removeSeat vigem answers bus seat).1.next, unavailable⟩
      (if (pad.removeSeat vigem answers bus seat).2.2 then
        some (.gamepadDisconnected seat) else none) := by
  unfold VigemGamepad.removeSeat
  cases hseat : pad.seats seat with
  | none => exact .absent seat hseat
  | some target =>
      simp only [pads_unplug_unplug hvigem, VigemBus.next_unplug, if_true]
      exact .removed seat target hseat

/-- Every event makes one of the moves. -/
theorem move (answers : DriverAnswers) (injector : GamepadInjector Bus)
    (event : GamepadEvent) :
    PadMove answers (injector.table vigem) event
      ((injector.inject vigem answers event).1.table vigem)
      (injector.inject vigem answers event).2 := by
  cases event with
  | snapshot input => exact move_snapshot hvigem answers injector input
  | disconnect seat =>
      obtain ⟨gamepad, unavailable, bus⟩ := injector
      cases gamepad with
      | none => exact .absent seat rfl
      | some pad => exact move_removeSeat hvigem answers pad bus unavailable seat

end Moves

end GamepadInjector

/-! ### What stays true -/

/-- Every seat has a pad of its own, which the system shows.  This ties the
injector's record to the driver's. -/
structure SoundPads (target : UInt8 → Option ℕ) (pads : ℕ → Option XGamepad)
    (next : ℕ) : Prop where
  shown : ∀ {seat own}, target seat = some own → (pads own).isSome
  distinct : ∀ {seat other own}, target seat = some own →
    target other = some own → seat = other
  unborn : ∀ {unborn}, next ≤ unborn → pads unborn = none

namespace SoundPads

variable {target : UInt8 → Option ℕ} {pads : ℕ → Option XGamepad} {next : ℕ}

theorem born (hsound : SoundPads target pads next) {seat : UInt8} {own : ℕ}
    (hseat : target seat = some own) : own < next := by
  by_contra hnot
  have hshown := hsound.shown hseat
  rw [hsound.unborn (Nat.le_of_not_lt hnot)] at hshown
  exact absurd hshown Bool.false_ne_true

/-- Showing something else on a target that stays shown. -/
theorem report (hsound : SoundPads target pads next) {seat : UInt8} {own : ℕ}
    (hseat : target seat = some own) (report : XGamepad) :
    SoundPads target (Function.update pads own (some report)) next where
  shown := by
    intro other shown hother
    by_cases heq : shown = own
    · rw [heq, Function.update_self]
      rfl
    · rw [Function.update_of_ne heq]
      exact hsound.shown hother
  distinct := hsound.distinct
  unborn := by
    intro unborn hunborn
    rw [Function.update_of_ne (Nat.ne_of_gt
      (Nat.lt_of_lt_of_le (hsound.born hseat) hunborn))]
    exact hsound.unborn hunborn

/-- Taking a fresh target for whatever purpose. -/
theorem fresh (hsound : SoundPads target pads next) (pad : Option XGamepad) :
    SoundPads target (Function.update pads next pad) (next + 1) where
  shown := by
    intro seat own hseat
    rw [Function.update_of_ne (Nat.ne_of_lt (hsound.born hseat))]
    exact hsound.shown hseat
  distinct := hsound.distinct
  unborn := by
    intro unborn hunborn
    rw [Function.update_of_ne (Nat.ne_of_gt hunborn)]
    exact hsound.unborn (Nat.le_of_succ_le hunborn)

theorem plug (hsound : SoundPads target pads next) (seat : UInt8)
    (pad : XGamepad) :
    SoundPads (Function.update target seat (some next))
      (Function.update pads next (some pad)) (next + 1) where
  shown := by
    intro other own hother
    by_cases heq : other = seat
    · rw [heq, Function.update_self] at hother
      rw [← Option.some.inj hother, Function.update_self]
      rfl
    · rw [Function.update_of_ne heq] at hother
      exact (hsound.fresh (some pad)).shown hother
  distinct := by
    intro first second own hfirst hsecond
    by_cases hfirstSeat : first = seat <;> by_cases hsecondSeat : second = seat
    · rw [hfirstSeat, hsecondSeat]
    · rw [hfirstSeat, Function.update_self] at hfirst
      rw [Function.update_of_ne hsecondSeat, ← hfirst] at hsecond
      exact absurd (hsound.born hsecond) (Nat.lt_irrefl _)
    · rw [hsecondSeat, Function.update_self] at hsecond
      rw [Function.update_of_ne hfirstSeat, ← hsecond] at hfirst
      exact absurd (hsound.born hfirst) (Nat.lt_irrefl _)
    · rw [Function.update_of_ne hfirstSeat] at hfirst
      rw [Function.update_of_ne hsecondSeat] at hsecond
      exact hsound.distinct hfirst hsecond
  unborn := (hsound.fresh (some pad)).unborn

/-- Forgetting a seat, and perhaps its pad. -/
theorem remove (hsound : SoundPads target pads next) {seat : UInt8} {own : ℕ}
    (hseat : target seat = some own) (gone : Bool) :
    SoundPads (Function.update target seat none)
      (if gone then Function.update pads own none else pads) next := by
  have hother : ∀ {other kept},
      Function.update target seat none other = some kept →
        other ≠ seat ∧ target other = some kept := by
    intro other kept hkept
    by_cases heq : other = seat
    · rw [heq, Function.update_self] at hkept
      exact absurd hkept.symm (Option.some_ne_none kept)
    · rw [Function.update_of_ne heq] at hkept
      exact ⟨heq, hkept⟩
  constructor
  · intro other kept hkept
    have hne : kept ≠ own := fun heq =>
      (hother hkept).1 (hsound.distinct (hother hkept).2 (heq ▸ hseat))
    cases gone with
    | false => exact hsound.shown (hother hkept).2
    | true =>
        rw [if_pos rfl, Function.update_of_ne hne]
        exact hsound.shown (hother hkept).2
  · intro first second kept hfirst hsecond
    exact hsound.distinct (hother hfirst).2 (hother hsecond).2
  · intro unborn hunborn
    cases gone with
    | false => exact hsound.unborn hunborn
    | true =>
        rw [if_pos rfl, Function.update_of_ne (Nat.ne_of_gt
          (Nat.lt_of_lt_of_le (hsound.born hseat) hunborn))]
        exact hsound.unborn hunborn

end SoundPads

def PadTable.Sound (table : PadTable) : Prop :=
  SoundPads table.target table.pads table.next

theorem PadMove.sound {answers : DriverAnswers} {table table' : PadTable}
    {event : GamepadEvent} {feedback : Option InputFeedback}
    (hmove : PadMove answers table event table' feedback)
    (hsound : table.Sound) : table'.Sound := by
  cases hmove with
  | unavailable => exact hsound
  | unconnected => exact hsound
  | refused => exact hsound
  | unready => exact hsound.fresh _
  | plugged => exact hsound.plug _ _
  | reported input target hseat =>
      unfold PadTable.Sound
      split
      · exact hsound.report hseat _
      · exact hsound
  | absent => exact hsound
  | removed seat target hseat => exact hsound.remove hseat _

theorem PadMove.balance {answers : DriverAnswers} {table table' : PadTable}
    {event : GamepadEvent} {feedback : Option InputFeedback}
    (hmove : PadMove answers table event table' feedback)
    {reported : List InputFeedback} {seat : UInt8}
    (hbalance : reported.count (.gamepadConnected seat) =
      reported.count (.gamepadDisconnected seat) +
        if (table.target seat).isSome then 1 else 0) :
    (reported ++ feedback.toList).count (.gamepadConnected seat) =
      (reported ++ feedback.toList).count (.gamepadDisconnected seat) +
        if (table'.target seat).isSome then 1 else 0 := by
  rw [List.count_append, List.count_append]
  cases hmove with
  | plugged input hseat =>
      by_cases heq : input.seat = seat
      · subst heq
        rw [hseat] at hbalance
        simp_all
      · simp_all [Function.update_of_ne (Ne.symm heq)]
  | removed other target hseat =>
      by_cases heq : other = seat
      · subst heq
        simp_all
      · simp_all [Function.update_of_ne (Ne.symm heq)]
  | _ => exact hbalance

/-- A pad that no seat knows of is left behind only when dropping a target
does not unplug it. -/
theorem PadMove.owned {answers : DriverAnswers} {table table' : PadTable}
    {event : GamepadEvent} {feedback : Option InputFeedback}
    (hmove : PadMove answers table event table' feedback)
    (hdrop : answers.drop)
    (howned : ∀ target, (table.pads target).isSome →
      ∃ seat, table.target seat = some target) :
    ∀ target, (table'.pads target).isSome →
      ∃ seat, table'.target seat = some target := by
  intro target hshown
  cases hmove with
  | unavailable | unconnected | refused | absent =>
      exact howned target hshown
  | unready =>
      simp only [hdrop, if_true] at hshown
      by_cases heq : target = table.next
      · rw [heq, Function.update_self] at hshown
        exact absurd hshown Bool.false_ne_true
      · rw [Function.update_of_ne heq] at hshown
        exact howned target hshown
  | plugged input hseat =>
      by_cases heq : target = table.next
      · exact ⟨input.seat, by simp only [heq, Function.update_self]⟩
      · simp only [Function.update_of_ne heq] at hshown
        obtain ⟨seat, hother⟩ := howned target hshown
        have hne : seat ≠ input.seat := by
          rintro rfl
          exact Option.some_ne_none target (hother.symm.trans hseat)
        exact ⟨seat, by simp only [Function.update_of_ne hne, hother]⟩
  | reported input own hseat =>
      by_cases heq : target = own
      · exact ⟨input.seat, by rw [heq, hseat]⟩
      · apply howned target
        split at hshown
        · simp only [Function.update_of_ne heq] at hshown
          exact hshown
        · exact hshown
  | removed seat own hseat =>
      simp only [hdrop, Bool.or_true, if_true] at hshown
      by_cases heq : target = own
      · rw [heq, Function.update_self] at hshown
        exact absurd hshown Bool.false_ne_true
      · rw [Function.update_of_ne heq] at hshown
        obtain ⟨other, hother⟩ := howned target hshown
        have hne : other ≠ seat := by
          rintro rfl
          exact heq (Option.some.inj (hother.symm.trans hseat))
        exact ⟨other, by simp only [Function.update_of_ne hne, hother]⟩

namespace GamepadInjector

variable {Bus : Type*} {vigem : VigemDriver Bus}

/-- What the injector's record, the system and the reports have in common.  It
is kept by every event, whatever the driver answers. -/
structure Accounted (vigem : VigemDriver Bus)
    (state : GamepadInjector Bus × List InputFeedback) : Prop where
  sound : (state.1.table vigem).Sound
  balance : ∀ seat, state.2.count (.gamepadConnected seat) =
    state.2.count (.gamepadDisconnected seat) +
      if (state.1.target seat).isSome then 1 else 0

section Documented

variable (hvigem : vigem.Documented)

include hvigem

theorem accounted_new : Accounted vigem (new vigem, []) where
  sound := ⟨fun hseat => absurd hseat.symm (Option.some_ne_none _),
    fun hseat => absurd hseat.symm (Option.some_ne_none _),
    fun {target} _ => hvigem.initial target⟩
  balance := fun _ => rfl

theorem Accounted.step {state : GamepadInjector Bus × List InputFeedback}
    (haccounted : Accounted vigem state)
    (event : DriverAnswers × GamepadEvent) :
    Accounted vigem (step vigem state event) := by
  have hmove := move hvigem event.1 state.1 event.2
  constructor
  · exact hmove.sound haccounted.sound
  · intro seat
    exact hmove.balance (haccounted.balance seat)

theorem accounted_foldl (events : List (DriverAnswers × GamepadEvent)) :
    Accounted vigem (events.foldl (GamepadInjector.step vigem)
      (new vigem, [])) :=
  EventRun.foldl_preserves
    (fun _ event haccounted => haccounted.step hvigem event) events
    (accounted_new hvigem)

end Documented

@[simp]
theorem connects_setState (answers : DriverAnswers) (bus : VigemBus Bus)
    (pad : VigemGamepad) (input : GamepadInput) :
    (pad.setState vigem answers bus input).1.connects = bus.connects := by
  unfold VigemGamepad.setState VigemGamepad.seat
  cases pad.seats input.seat with
  | some target => exact connects_update answers bus target _
  | none =>
      cases answers.plugin with
      | false => rfl
      | true =>
          cases answers.ready with
          | false => exact VigemBus.connects_unplug vigem _ _ _
          | true => exact connects_update answers (bus.plugin vigem) _ _

@[simp]
theorem connects_removeSeat (answers : DriverAnswers) (bus : VigemBus Bus)
    (pad : VigemGamepad) (seat : UInt8) :
    (pad.removeSeat vigem answers bus seat).1.connects = bus.connects := by
  unfold VigemGamepad.removeSeat
  cases pad.seats seat with
  | none => rfl
  | some target => simp only [VigemBus.connects_unplug]

/-- The driver is asked for a connection once, and only when needed. -/
def ConnectedOnce (injector : GamepadInjector Bus) : Prop :=
  injector.bus.connects =
    if injector.gamepad.isSome ∨ injector.gamepadUnavailable then 1 else 0

theorem ConnectedOnce.inject {injector : GamepadInjector Bus}
    (honce : injector.ConnectedOnce) (answers : DriverAnswers)
    (event : GamepadEvent) :
    (injector.inject vigem answers event).1.ConnectedOnce := by
  obtain ⟨gamepad, unavailable, bus⟩ := injector
  cases gamepad with
  | some pad =>
      have hconnects : bus.connects = 1 := honce.trans (if_pos (Or.inl rfl))
      cases event with
      | snapshot input =>
          exact (connects_setState answers bus pad input).trans hconnects
      | disconnect seat =>
          exact (connects_removeSeat answers bus pad seat).trans hconnects
  | none =>
      cases event with
      | disconnect seat => exact honce
      | snapshot input =>
          cases unavailable with
          | true => exact honce
          | false =>
              have hconnects : bus.connects = 0 := honce
              unfold GamepadInjector.inject GamepadInjector.snapshot
              cases answers.connect with
              | false => exact congrArg (· + 1) hconnects
              | true =>
                  exact (connects_setState answers
                    { bus with connects := bus.connects + 1 } ⟨fun _ => none⟩
                    input).trans (congrArg (· + 1) hconnects)

theorem connectedOnce_foldl (events : List (DriverAnswers × GamepadEvent)) :
    (events.foldl (GamepadInjector.step vigem)
      (new vigem, [])).1.ConnectedOnce :=
  @EventRun.foldl_preserves _ _ (GamepadInjector.step vigem)
    (fun state => state.1.ConnectedOnce)
    (fun _ event honce => honce.inject event.1 event.2) (new vigem, []) events
    rfl

/-- The first pad never becomes ready.  The second one's report is lost and its
unplugging refused, so that it is only dropped.  The seat comes back with a
third pad, which takes no report within the retries. -/
def faltering : List (DriverAnswers × GamepadEvent) :=
  [(⟨true, true, false, fun _ => .ok, true, true⟩,
      .snapshot ⟨0, GamepadInput.a, #v[0, 0, 0, 0, 0, 0, 0, 0]⟩),
    (⟨true, true, true, fun _ => .failed, true, true⟩,
      .snapshot ⟨0, GamepadInput.a, #v[0, 0, 0, 0, 0, 0, 0, 0]⟩),
    (⟨true, true, true, fun _ => .ok, false, true⟩, .disconnect 0),
    (⟨true, true, true, fun _ => .noMoreItems, true, true⟩,
      .snapshot ⟨0, GamepadInput.a, #v[0, 0, 0, 0, 0, 0, 0, 0]⟩)]

/-- Whatever the driver answers, it is asked for a connection once at most,
each plugged seat has a pad of its own that the system shows, and the reports
of a seat alternate: it is connected once more than it is disconnected exactly
while its pad is plugged in. -/
theorem foldl_step_accounts (hvigem : vigem.Documented)
    (events : List (DriverAnswers × GamepadEvent)) :
    let state := events.foldl (GamepadInjector.step vigem) (new vigem, [])
    state.1.bus.connects ≤ 1 ∧
      (∀ seat own, state.1.target seat = some own →
        (state.1.bus.pads vigem own).isSome ∧
          ∀ other, state.1.target other = some own → other = seat) ∧
      ∀ seat, state.2.count (.gamepadConnected seat) =
        state.2.count (.gamepadDisconnected seat) +
          if (state.1.target seat).isSome then 1 else 0 := by
  have haccounted := accounted_foldl hvigem events
  have honce := @connectedOnce_foldl _ vigem events
  refine ⟨?_, ?_, haccounted.balance⟩
  · rw [honce]
    split
    · exact Nat.le_refl 1
    · exact Nat.zero_le 1
  · intro seat own hseat
    exact ⟨haccounted.sound.shown hseat, fun other hother =>
      haccounted.sound.distinct hother hseat⟩

/-- The seat is connected twice and disconnected once, and its pad is the
third one. -/
theorem foldl_step_accounts_faltering :
    let state := faltering.foldl (GamepadInjector.step VigemDriver.table)
      (new VigemDriver.table, [])
    state.1.target 0 = some 2 ∧ (state.1.bus.pads .table 2).isSome ∧
      state.2.count (.gamepadConnected 0) = 2 := by
  obtain ⟨-, hown, hcount⟩ :=
    foldl_step_accounts VigemDriver.documented_table faltering
  have htarget : (faltering.foldl (GamepadInjector.step VigemDriver.table)
      (new VigemDriver.table, [])).1.target 0 = some 2 := by decide
  exact ⟨htarget, (hown 0 2 htarget).1, (hcount 0).trans (by decide)⟩

/-- If dropping a target always unplugs it, the system never shows a pad that
belongs to no seat. -/
theorem foldl_step_owned (hvigem : vigem.Documented)
    (events : List (DriverAnswers × GamepadEvent))
    (hdrop : ∀ event ∈ events, event.1.drop = true) (target : ℕ)
    (hshown : ((events.foldl (GamepadInjector.step vigem)
      (new vigem, [])).1.bus.pads vigem target).isSome) :
    ∃ seat, (events.foldl (GamepadInjector.step vigem)
      (new vigem, [])).1.target seat = some target := by
  have hinit : ∀ target, ((new vigem).bus.pads vigem target).isSome →
      ∃ seat, (new vigem).target seat = some target := by
    intro target hsome
    have hnone : (new vigem).bus.pads vigem target = none :=
      hvigem.initial target
    rw [hnone] at hsome
    exact absurd hsome Bool.false_ne_true
  exact @EventRun.foldl_invariant _ _ (GamepadInjector.step vigem)
    (fun state => ∀ target, (state.1.bus.pads vigem target).isSome →
      ∃ seat, state.1.target seat = some target)
    (fun _ event => event.1.drop = true)
    (fun state event howned hevent =>
      (move hvigem event.1 state.1 event.2).owned hevent howned)
    (new vigem, []) events hinit (EventRun.along_of_forall hdrop _) target
    hshown

/-- Of the three pads only the last one is shown, and it is the seat's. -/
theorem foldl_step_owned_plugged :
    ∃ seat, (faltering.foldl (GamepadInjector.step VigemDriver.table)
      (new VigemDriver.table, [])).1.target seat = some 2 := by
  have hdrop : ∀ event ∈ faltering, event.1.drop = true := by
    simp only [faltering, List.forall_mem_cons, List.not_mem_nil,
      IsEmpty.forall_iff, implies_true, and_self]
  exact foldl_step_owned VigemDriver.documented_table faltering hdrop 2
    (by decide)

end GamepadInjector

/-! ### A driver in order -/

namespace PadTable

/-- What the system shows for a seat. -/
def shown (table : PadTable) (seat : UInt8) : Option XGamepad :=
  (table.target seat).bind table.pads

end PadTable

/-- The driver does what it is asked for, the report within the retries. -/
structure DriverAnswers.Favourable (answers : DriverAnswers) : Prop where
  connect : answers.connect = true
  plugin : answers.plugin = true
  ready : answers.ready = true
  accepted :
    VigemGamepad.accepted answers.update VigemGamepad.readyRetries 0 = true
  unplug : answers.unplug = true

namespace PadMove

variable {answers : DriverAnswers} {table table' : PadTable}
  {feedback : Option InputFeedback}

/-- A snapshot becomes what the system shows for its seat, and for no other
one. -/
theorem shown_snapshot {input : GamepadInput}
    (hmove : PadMove answers table (.snapshot input) table' feedback)
    (hsound : table.Sound) (hanswers : answers.Favourable)
    (havailable : table.unavailable = false) :
    table'.shown = Function.update table.shown input.seat
      (some (VigemGamepad.report input)) := by
  funext seat
  cases hmove with
  | unavailable _ hunavailable =>
      exact absurd (havailable.symm.trans hunavailable) Bool.false_ne_true
  | unconnected _ hconnect =>
      exact absurd (hconnect.symm.trans hanswers.connect) Bool.false_ne_true
  | refused _ hplugin =>
      exact absurd (hplugin.symm.trans hanswers.plugin) Bool.false_ne_true
  | unready _ hready =>
      exact absurd (hready.symm.trans hanswers.ready) Bool.false_ne_true
  | plugged _ hseat =>
      simp only [PadTable.shown, hanswers.accepted, if_true]
      by_cases heq : seat = input.seat
      · simp only [heq, Function.update_self, Option.bind_some]
      · simp only [Function.update_of_ne heq]
        cases hother : table.target seat with
        | none => simp only [PadTable.shown, hother, Option.bind_none]
        | some own =>
            simp only [Option.bind_some]
            rw [Function.update_of_ne (Nat.ne_of_lt (hsound.born hother)),
              PadTable.shown, hother, Option.bind_some]
  | reported _ target hseat =>
      simp only [PadTable.shown, hanswers.accepted, if_true]
      by_cases heq : seat = input.seat
      · simp only [heq, hseat, Function.update_self, Option.bind_some]
      · rw [Function.update_of_ne heq]
        cases hother : table.target seat with
        | none => simp only [PadTable.shown, hother, Option.bind_none]
        | some own =>
            have hne : own ≠ target := fun hown =>
              heq (hsound.distinct hother (hown ▸ hseat))
            simp only [PadTable.shown, hother, Option.bind_some,
              Function.update_of_ne hne]

/-- After a disconnect the system shows no pad for the seat. -/
theorem shown_disconnect {seat : UInt8}
    (hmove : PadMove answers table (.disconnect seat) table' feedback)
    (hsound : table.Sound) (hanswers : answers.Favourable) :
    table'.shown = Function.update table.shown seat none := by
  funext other
  cases hmove with
  | absent _ hseat =>
      by_cases heq : other = seat
      · simp only [heq, PadTable.shown, hseat, Function.update_self,
          Option.bind_none]
      · rw [Function.update_of_ne heq]
  | removed _ target hseat =>
      simp only [PadTable.shown, hanswers.unplug, Bool.true_or, if_true]
      by_cases heq : other = seat
      · simp only [heq, Function.update_self, Option.bind_none]
      · simp only [Function.update_of_ne heq]
        cases hother : table.target other with
        | none => simp only [PadTable.shown, hother, Option.bind_none]
        | some own =>
            have hne : own ≠ target := fun hown =>
              heq (hsound.distinct hother (hown ▸ hseat))
            simp only [PadTable.shown, hother, Option.bind_some,
              Function.update_of_ne hne]

theorem available {event : GamepadEvent}
    (hmove : PadMove answers table event table' feedback)
    (hanswers : answers.Favourable)
    (havailable : table.unavailable = false) :
    table'.unavailable = false := by
  cases hmove with
  | unconnected _ hconnect =>
      exact absurd (hconnect.symm.trans hanswers.connect) Bool.false_ne_true
  | _ => exact havailable

end PadMove

end GameStreamer
