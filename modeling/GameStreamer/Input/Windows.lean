import GameStreamer.Input.Gamepad
import GameStreamer.Input.Keymap

/-!
# Input on a Windows host

The Windows injector turns each input event into synthesized keyboard and
mouse input or into a report of a virtual pad.  The desktop behind it keeps
which keys and buttons are down.  A host whose system does what it is asked
for is shown to follow an ideal one that knows nothing of drivers.
-/

namespace GameStreamer

/-- What is computed from a coordinate before it is sent. -/
structure PointerOps (F : Type*) where
  /-- `(x.clamp(0.0, 1.0) * ABSOLUTE_MAX) as i32`. -/
  absolute : F → ℤ
  /-- `dx as i32`. -/
  relative : F → ℤ
  /-- `(dy * WHEEL_DELTA) as i32`. -/
  notches : F → ℤ
  isZero : F → Bool

/-- The mouse events of `SendInput`. -/
inductive MouseEventFlags where
  | move | moveAbsolute
  | leftDown | leftUp | rightDown | rightUp | middleDown | middleUp
  | xDown | xUp
  | wheel | hwheel
  deriving DecidableEq, Repr

/-- The record that one call of `SendInput` posts. -/
inductive WinInput where
  | keyboard (scancode : ℕ) (extended keyUp : Bool)
  | mouse (flags : MouseEventFlags) (dx dy data : ℤ)
  deriving DecidableEq, Repr

namespace WinInjector

variable {F : Type*}

def xbutton1 : ℤ := 1

def xbutton2 : ℤ := 2

/-- An unmapped key is dropped. -/
def key (usage : ℕ) (down : Bool) : List WinInput :=
  match hidToScancode usage with
  | none => []
  | some (scancode, extended) => [.keyboard scancode extended (!down)]

def mouseMove (ops : PointerOps F) : MouseMove F → List WinInput
  | .absolute x y => [.mouse .moveAbsolute (ops.absolute x) (ops.absolute y) 0]
  | .relative dx dy => [.mouse .move (ops.relative dx) (ops.relative dy) 0]

def mouseButton (button : MouseButton) (down : Bool) : List WinInput :=
  let (flags, data) := match button, down with
    | .left, true => (MouseEventFlags.leftDown, 0)
    | .left, false => (.leftUp, 0)
    | .right, true => (.rightDown, 0)
    | .right, false => (.rightUp, 0)
    | .middle, true => (.middleDown, 0)
    | .middle, false => (.middleUp, 0)
    | .back, true => (.xDown, xbutton1)
    | .back, false => (.xUp, xbutton1)
    | .forward, true => (.xDown, xbutton2)
    | .forward, false => (.xUp, xbutton2)
  [.mouse flags 0 0 data]

def wheel (ops : PointerOps F) (dx dy : F) : List WinInput :=
  (if ops.isZero dy then [] else [.mouse .wheel 0 0 (ops.notches dy)]) ++
    if ops.isZero dx then [] else [.mouse .hwheel 0 0 (ops.notches dx)]

end WinInjector

/-- The button that a posted mouse event presses or releases. -/
def WinInput.button (flags : MouseEventFlags) (data : ℤ) :
    Option (MouseButton × Bool) :=
  match flags with
  | .leftDown => some (.left, true)
  | .leftUp => some (.left, false)
  | .rightDown => some (.right, true)
  | .rightUp => some (.right, false)
  | .middleDown => some (.middle, true)
  | .middleUp => some (.middle, false)
  | .xDown =>
      if data = WinInjector.xbutton1 then some (.back, true)
      else if data = WinInjector.xbutton2 then some (.forward, true) else none
  | .xUp =>
      if data = WinInjector.xbutton1 then some (.back, false)
      else if data = WinInjector.xbutton2 then some (.forward, false) else none
  | _ => none

/-- The desktop behind `SendInput`: a state of its own, the keys and buttons
that it takes to be down, and what an accepted input does. -/
structure Desktop (Desk : Type*) where
  idle : Desk
  keys : Desk → ℕ × Bool → Bool
  buttons : Desk → MouseButton → Bool
  post : Desk → WinInput → Desk

namespace Desktop

/-- What `SendInput` promises of an input that it accepts: a keyboard input
sets the key with its scancode, a mouse input the button that its flags name,
and nothing else changes. -/
structure Documented {Desk : Type*} (desktop : Desktop Desk) : Prop where
  idle_keys : desktop.keys desktop.idle = fun _ => false
  idle_buttons : desktop.buttons desktop.idle = fun _ => false
  keyboard_keys : ∀ desk scancode extended keyUp,
    desktop.keys (desktop.post desk (.keyboard scancode extended keyUp)) =
      Function.update (desktop.keys desk) (scancode, extended) (!keyUp)
  keyboard_buttons : ∀ desk scancode extended keyUp,
    desktop.buttons (desktop.post desk (.keyboard scancode extended keyUp)) =
      desktop.buttons desk
  mouse_keys : ∀ desk flags dx dy data,
    desktop.keys (desktop.post desk (.mouse flags dx dy data)) =
      desktop.keys desk
  mouse_pressed : ∀ desk flags dx dy data button down,
    WinInput.button flags data = some (button, down) →
      desktop.buttons (desktop.post desk (.mouse flags dx dy data)) =
        Function.update (desktop.buttons desk) button down
  mouse_moved : ∀ desk flags dx dy data, WinInput.button flags data = none →
    desktop.buttons (desktop.post desk (.mouse flags dx dy data)) =
      desktop.buttons desk

/-- `SendInput`, which a window of higher integrity rejects. -/
def send {Desk : Type*} (desktop : Desktop Desk) (accepts : WinInput → Bool)
    (desk : Desk) (input : WinInput) : Desk :=
  if accepts input then desktop.post desk input else desk

/-- A desktop that keeps nothing but the keys and the buttons. -/
def table : Desktop ((ℕ × Bool → Bool) × (MouseButton → Bool)) where
  idle := (fun _ => false, fun _ => false)
  keys := Prod.fst
  buttons := Prod.snd
  post
    | (keys, buttons), .keyboard scancode extended keyUp =>
        (Function.update keys (scancode, extended) (!keyUp), buttons)
    | (keys, buttons), .mouse flags _ _ data =>
        match WinInput.button flags data with
        | some (button, down) => (keys, Function.update buttons button down)
        | none => (keys, buttons)

theorem documented_table : table.Documented where
  idle_keys := rfl
  idle_buttons := rfl
  keyboard_keys _ _ _ _ := rfl
  keyboard_buttons _ _ _ _ := rfl
  mouse_keys desk flags dx dy data := by
    simp only [table]
    split
    · rfl
    · rfl
  mouse_pressed desk flags dx dy data button down hbutton := by
    simp only [table, hbutton]
  mouse_moved desk flags dx dy data hbutton := by
    simp only [table, hbutton]

end Desktop

/-- What the system answers while one event is injected. -/
structure WinAnswers where
  accepts : WinInput → Bool
  driver : DriverAnswers

/-- The system that a Windows host acts on. -/
structure WinSystem (Bus Desk : Type*) where
  vigem : VigemDriver Bus
  desktop : Desktop Desk

/-- The system does with what it accepts as it documents. -/
structure WinSystem.Documented {Bus Desk : Type*}
    (system : WinSystem Bus Desk) : Prop where
  vigem : system.vigem.Documented
  desktop : system.desktop.Documented

/-- The injector with the desktop that it acts on. -/
structure WinHost (Bus Desk : Type*) where
  pads : GamepadInjector Bus
  desk : Desk

namespace WinHost

variable {F Bus Desk : Type*} (system : WinSystem Bus Desk)

def new : WinHost Bus Desk := ⟨.new system.vigem, system.desktop.idle⟩

def send (answers : WinAnswers) (host : WinHost Bus Desk)
    (inputs : List WinInput) : WinHost Bus Desk :=
  { host with
    desk := inputs.foldl (system.desktop.send answers.accepts) host.desk }

/-- `WinInjector::inject`: keyboard and mouse events become one posted input
each, and the pads go to the virtual controllers. -/
def inject (ops : PointerOps F) (answers : WinAnswers)
    (host : WinHost Bus Desk) :
    InputEvent F → WinHost Bus Desk × Option InputFeedback
  | .key usage down =>
      (host.send system answers (WinInjector.key usage down), none)
  | .mouseMove move =>
      (host.send system answers (WinInjector.mouseMove ops move), none)
  | .mouseButton button down =>
      (host.send system answers (WinInjector.mouseButton button down), none)
  | .mouseWheel dx dy =>
      (host.send system answers (WinInjector.wheel ops dx dy), none)
  | .gamepad input =>
      match host.pads.inject system.vigem answers.driver (.snapshot input) with
      | (pads, feedback) => ({ host with pads := pads }, feedback)
  | .gamepadDisconnect seat =>
      match host.pads.inject system.vigem answers.driver (.disconnect seat) with
      | (pads, feedback) => ({ host with pads := pads }, feedback)
  | .gamepadMotion _ | .touch | .pen => (host, none)

end WinHost

/-! ### The ideal host -/

/-- What a user of the host sees of its devices: the keys by their scancodes,
the buttons of the mouse, and the virtual pads with their reports. -/
structure HostView where
  keys : ℕ × Bool → Bool
  buttons : MouseButton → Bool
  pads : UInt8 → Option XGamepad

namespace HostView

variable {F : Type*}

def key (view : HostView) (usage : ℕ) (down : Bool) : HostView :=
  match hidToScancode usage with
  | some scancode =>
      { view with keys := Function.update view.keys scancode down }
  | none => view

/-- What an event means to the devices. -/
def apply (view : HostView) : InputEvent F → HostView
  | .key usage down => view.key usage down
  | .mouseButton button down =>
      { view with buttons := Function.update view.buttons button down }
  | .gamepad input =>
      { view with
        pads := Function.update view.pads input.seat
          (some (VigemGamepad.report input)) }
  | .gamepadDisconnect seat =>
      { view with pads := Function.update view.pads seat none }
  | .mouseMove _ | .mouseWheel _ _ | .gamepadMotion _ | .touch | .pen => view

end HostView

/-- The system does what it is asked for. -/
structure WinAnswers.Favourable (answers : WinAnswers) : Prop where
  accepts : ∀ input, answers.accepts input = true
  driver : answers.driver.Favourable

namespace WinHost

variable {F Bus Desk : Type*} (system : WinSystem Bus Desk)

def view (host : WinHost Bus Desk) : HostView :=
  ⟨system.desktop.keys host.desk, system.desktop.buttons host.desk,
    (host.pads.table system.vigem).shown⟩

/-- The record of the seats is sound, and the driver has not failed. -/
structure Ready (host : WinHost Bus Desk) : Prop where
  sound : (host.pads.table system.vigem).Sound
  available : host.pads.gamepadUnavailable = false

variable {system} (hsystem : system.Documented)

section Documented

include hsystem

theorem ready_new : (new system).Ready system where
  sound := (GamepadInjector.accounted_new hsystem.vigem).sound
  available := rfl

theorem view_new : (new system).view system =
    ⟨fun _ => false, fun _ => false, fun _ => none⟩ := by
  rw [view, new, hsystem.desktop.idle_keys, hsystem.desktop.idle_buttons]
  rfl

end Documented

theorem Ready.send {host : WinHost Bus Desk} (hready : host.Ready system)
    (answers : WinAnswers) (inputs : List WinInput) :
    (host.send system answers inputs).Ready system :=
  ⟨hready.sound, hready.available⟩

section Accepting

variable (answers : WinAnswers) (hanswers : answers.Favourable)

include hanswers

theorem send_singleton (host : WinHost Bus Desk) (input : WinInput) :
    host.send system answers [input] =
      { host with desk := system.desktop.post host.desk input } := by
  rw [send, List.foldl_cons, List.foldl_nil, Desktop.send,
    if_pos (hanswers.accepts input)]

include hsystem

/-- A mouse input that names no button changes nothing that is seen. -/
theorem view_send_moved (host : WinHost Bus Desk) {flags : MouseEventFlags}
    {data : ℤ} (hbutton : WinInput.button flags data = none) (dx dy : ℤ) :
    (host.send system answers [.mouse flags dx dy data]).view system =
      host.view system := by
  rw [send_singleton answers hanswers, view, view,
    hsystem.desktop.mouse_keys, hsystem.desktop.mouse_moved _ _ _ _ _ hbutton]

/-- A mouse input that names a button presses or releases it. -/
theorem view_send_pressed (host : WinHost Bus Desk) {flags : MouseEventFlags}
    {data : ℤ} {button : MouseButton} {down : Bool}
    (hbutton : WinInput.button flags data = some (button, down))
    (dx dy : ℤ) :
    (host.send system answers [.mouse flags dx dy data]).view system =
      (host.view system).apply
        (.mouseButton button down : InputEvent F) := by
  rw [send_singleton answers hanswers, view, view, HostView.apply,
    hsystem.desktop.mouse_keys,
    hsystem.desktop.mouse_pressed _ _ _ _ _ _ _ hbutton]

theorem view_key (host : WinHost Bus Desk) (usage : ℕ) (down : Bool) :
    (host.send system answers (WinInjector.key usage down)).view system =
      (host.view system).key usage down := by
  unfold WinInjector.key HostView.key
  cases hidToScancode usage with
  | none => rfl
  | some scancode =>
      rw [send_singleton answers hanswers, view, view,
        hsystem.desktop.keyboard_keys, hsystem.desktop.keyboard_buttons,
        Bool.not_not]

theorem view_mouseMove (ops : PointerOps F) (host : WinHost Bus Desk)
    (move : MouseMove F) :
    (host.send system answers (WinInjector.mouseMove ops move)).view system =
      host.view system := by
  cases move with
  | absolute x y => exact view_send_moved hsystem answers hanswers host rfl _ _
  | relative dx dy =>
      exact view_send_moved hsystem answers hanswers host rfl _ _

theorem view_mouseButton (host : WinHost Bus Desk) (button : MouseButton)
    (down : Bool) :
    (host.send system answers (WinInjector.mouseButton button down)).view
        system =
      (host.view system).apply
        (.mouseButton button down : InputEvent F) := by
  cases button <;> cases down <;>
    exact view_send_pressed hsystem answers hanswers host rfl _ _

theorem view_wheel (ops : PointerOps F) (host : WinHost Bus Desk)
    (dx dy : F) :
    (host.send system answers (WinInjector.wheel ops dx dy)).view system =
      host.view system := by
  have happend (first second : List WinInput) :
      host.send system answers (first ++ second) =
        (host.send system answers first).send system answers second := by
    rw [send, List.foldl_append]
    rfl
  have hturn (host : WinHost Bus Desk) (still : Bool)
      {flags : MouseEventFlags} {data : ℤ}
      (hdata : WinInput.button flags data = none) :
      (host.send system answers
        (if still then [] else [.mouse flags 0 0 data])).view system =
          host.view system := by
    cases still with
    | true => rfl
    | false => exact view_send_moved hsystem answers hanswers host hdata 0 0
  rw [WinInjector.wheel, happend]
  exact (hturn _ _ rfl).trans (hturn host _ rfl)

/-- Where the system does what it is asked for, the host is the ideal one. -/
theorem view_inject (ops : PointerOps F) (host : WinHost Bus Desk)
    (hready : host.Ready system) (event : InputEvent F) :
    (host.inject system ops answers event).1.view system =
        (host.view system).apply event ∧
      (host.inject system ops answers event).1.Ready system := by
  cases event with
  | key usage down =>
      exact ⟨view_key hsystem answers hanswers host usage down,
        hready.send _ _⟩
  | mouseMove move =>
      exact ⟨view_mouseMove hsystem answers hanswers ops host move,
        hready.send _ _⟩
  | mouseButton button down =>
      exact ⟨view_mouseButton hsystem answers hanswers host button down,
        hready.send _ _⟩
  | mouseWheel dx dy =>
      exact ⟨view_wheel hsystem answers hanswers ops host dx dy,
        hready.send _ _⟩
  | gamepad input =>
      have hmove := GamepadInjector.move hsystem.vigem answers.driver host.pads
        (.snapshot input)
      constructor
      · exact congrArg (HostView.mk (system.desktop.keys host.desk)
          (system.desktop.buttons host.desk))
          (hmove.shown_snapshot hready.sound hanswers.driver hready.available)
      · exact ⟨hmove.sound hready.sound,
          hmove.available hanswers.driver hready.available⟩
  | gamepadDisconnect seat =>
      have hmove := GamepadInjector.move hsystem.vigem answers.driver host.pads
        (.disconnect seat)
      constructor
      · exact congrArg (HostView.mk (system.desktop.keys host.desk)
          (system.desktop.buttons host.desk))
          (hmove.shown_disconnect hready.sound hanswers.driver)
      · exact ⟨hmove.sound hready.sound,
          hmove.available hanswers.driver hready.available⟩
  | gamepadMotion seat => exact ⟨rfl, hready⟩
  | touch => exact ⟨rfl, hready⟩
  | pen => exact ⟨rfl, hready⟩

end Accepting

end WinHost

end GameStreamer
