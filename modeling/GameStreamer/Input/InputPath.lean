import GameStreamer.Client.InputCapture
import GameStreamer.Input.Windows

/-!
# From the client's devices to the host's

The client's window and its controller poll put events on the control stream,
which delivers them in order to a host that may inject.  Here the devices of
the two ends are compared: what is still on its way, replayed on what the host
shows, always gives what the client holds.
-/

namespace GameStreamer

/-- The client's devices, the events on their way and the host.  The control
stream keeps the order of the events and loses none. -/
structure InputPath (F Bus Desk : Type*) where
  /-- The keys that are down, as genuine key events tell. -/
  held : KeyCode → Bool
  pressed : WindowButton → Bool
  /-- What the last poll read. -/
  seen : Option PadState
  capture : GamepadCapture
  flight : List (InputEvent F)
  host : WinHost Bus Desk

/-- What can happen on either side. -/
inductive InputAction (F : Type*) where
  | keyboardInput (physical : Option KeyCode) (pressed synthetic : Bool)
  | mouseInput (button : WindowButton) (pressed : Bool)
  /-- A cursor move or a turn of the wheel. -/
  | mouseMove (move : MouseMove F)
  | mouseWheel (dx dy : F)
  | poll (pads : List (Pad F))
  | deliver (answers : WinAnswers)

namespace InputPath

variable {F Bus Desk : Type*} (system : WinSystem Bus Desk)

def start : InputPath F Bus Desk :=
  ⟨fun _ => false, fun _ => false, none, .new, [], .new system⟩

/-- `InputSender::send`. -/
def send (path : InputPath F Bus Desk) (event : Option (InputEvent F)) :
    InputPath F Bus Desk :=
  { path with flight := path.flight ++ event.toList }

/-- The keys that are down after a key event.  A synthetic one only repeats
what the window missed while it had no focus. -/
def hold (path : InputPath F Bus Desk) (physical : Option KeyCode)
    (pressed synthetic : Bool) : KeyCode → Bool :=
  if synthetic then path.held
  else match physical with
    | some code => Function.update path.held code pressed
    | none => path.held

/-- A device of the client moves, its window or its poll sends what that means,
or the next event reaches the host. -/
def step (sticks : StickOps F) (pointer : PointerOps F)
    (path : InputPath F Bus Desk) : InputAction F → InputPath F Bus Desk
  | .keyboardInput physical pressed synthetic =>
      { path with held := path.hold physical pressed synthetic }.send
        (InputCapture.keyboardInput physical pressed synthetic)
  | .mouseInput button pressed =>
      { path with
        pressed := Function.update path.pressed button pressed }.send
        ((InputCapture.mouseButton button).map fun button =>
          .mouseButton button pressed)
  | .mouseMove move => path.send (some (.mouseMove move))
  | .mouseWheel dx dy => path.send (some (.mouseWheel dx dy))
  | .poll pads =>
      match path.capture.poll sticks pads with
      | (capture, event) =>
          { path with
            seen := GamepadCapture.reading sticks pads
            capture := capture }.send event
  | .deliver answers =>
      match path.flight with
      | [] => path
      | event :: flight =>
          { path with
            flight := flight
            host := (path.host.inject system pointer answers event).1 }

/-- What the host will show once everything on its way has arrived. -/
def settled (path : InputPath F Bus Desk) : HostView :=
  path.flight.foldl HostView.apply (path.host.view system)

@[simp]
theorem settled_send (path : InputPath F Bus Desk)
    (event : Option (InputEvent F)) :
    (path.send event).settled system =
      match event with
      | none => path.settled system
      | some event => (path.settled system).apply event := by
  unfold settled send
  cases event with
  | none => rw [Option.toList_none, List.append_nil]
  | some event => rw [Option.toList_some, List.foldl_concat]

/-- The scancode under which a key that is not a knob is held on the host. -/
def forwarded (code : KeyCode) : Option (ℕ × Bool) :=
  if InputCapture.isKnob code then none else scancodeOf code

/-- The report of a controller state for the client's only seat. -/
def reported (seen : Option PadState) (seat : UInt8) : Option XGamepad :=
  if seat = GamepadCapture.seat then
    seen.map fun state => VigemGamepad.report
      ⟨GamepadCapture.seat, state.1, state.2⟩
  else none

/-- The host's devices are the client's: the keys and buttons under the names
that the host has for them, and the pads as they would be reported. -/
structure Follows (held : KeyCode → Bool) (pressed : WindowButton → Bool)
    (seen : Option PadState) (view : HostView) : Prop where
  keys : Registers.Mirrors forwarded held view.keys
  buttons : Registers.Mirrors InputCapture.mouseButton pressed view.buttons
  pads : view.pads = reported seen

/-- What every action keeps. -/
structure Inv (path : InputPath F Bus Desk) : Prop where
  ready : path.host.Ready system
  last : path.capture.last = path.seen
  announced : path.capture.announced = path.seen.isSome
  masked : ∀ state, path.seen = some state → GamepadCapture.Masked state.1
  follows : Follows path.held path.pressed path.seen (path.settled system)

theorem forwarded_injective {left right : KeyCode} {scancode : ℕ × Bool}
    (hleft : forwarded left = some scancode)
    (hright : forwarded right = some scancode) : left = right := by
  unfold forwarded at hleft hright
  split at hleft
  · exact absurd hleft.symm (Option.some_ne_none scancode)
  · split at hright
    · exact absurd hright.symm (Option.some_ne_none scancode)
    · exact scancodeOf_injective hleft hright

theorem mouseButton_injective {first second : WindowButton}
    {button : MouseButton}
    (hfirst : InputCapture.mouseButton first = some button)
    (hsecond : InputCapture.mouseButton second = some button) :
    first = second := by
  unfold InputCapture.mouseButton at hfirst hsecond
  split at hfirst <;> split at hsecond <;> simp_all only [reduceCtorEq]
  all_goals
    rw [← hfirst] at hsecond
    simp at hsecond

/-- What becomes of a key that is sent. -/
theorem keyEvent_eq (code : KeyCode) (pressed : Bool) :
    (scancodeOf code = none ∧
        (InputCapture.keyEvent (some code) pressed :
          Option (InputEvent F)) = none) ∨
      ∃ usage scancode, scancodeOf code = some scancode ∧
        hidToScancode usage = some scancode ∧
          (InputCapture.keyEvent (some code) pressed :
            Option (InputEvent F)) = some (.key usage pressed) := by
  unfold InputCapture.keyEvent scancodeOf
  cases husage : hidUsage code with
  | none =>
      left
      simp only [Option.bind_some, Option.bind_none, husage, Option.map_none,
        and_self]
  | some usage =>
      right
      obtain ⟨scancode, hscancode⟩ := hidToScancode_of_hidUsage husage
      refine ⟨usage, scancode, ?_, hscancode, ?_⟩
      · rw [Option.bind_some, hscancode]
      · rw [Option.bind_some, husage, Option.map_some]

variable {held : KeyCode → Bool} {pressed : WindowButton → Bool}
  {seen : Option PadState} {view : HostView}

namespace Follows

/-- Applying an event that may be missing. -/
def applied (view : HostView) (event : Option (InputEvent F)) : HostView :=
  match event with
  | none => view
  | some event => view.apply event

theorem key (hfollows : Follows held pressed seen view)
    {keys : ℕ × Bool → Bool} {held' : KeyCode → Bool}
    (hkeys : Registers.Mirrors forwarded held' keys) :
    Follows held' pressed seen { view with keys := keys } :=
  ⟨hkeys, hfollows.buttons, hfollows.pads⟩

/-- A key goes down or up, and perhaps the host hears of it. -/
theorem keyboardInput (hfollows : Follows held pressed seen view)
    (code : KeyCode) (down : Bool) :
    Follows (Function.update held code down) pressed seen
      (applied view (InputCapture.keyboardInput (some code) down false :
        Option (InputEvent F))) := by
  have hevent := @keyEvent_eq F code down
  unfold InputCapture.keyboardInput
  rw [if_neg Bool.false_ne_true]
  by_cases hknob : InputCapture.isKnob code
  · have hforwarded : forwarded code = none := if_pos hknob
    have hunnamed := hfollows.keys.update_unnamed hforwarded down
    cases down with
    | true =>
        rw [if_pos ⟨rfl, code, rfl, hknob⟩]
        exact hfollows.key hunnamed
    | false =>
        rw [if_neg fun hpressed => Bool.false_ne_true hpressed.1]
        rcases hevent with ⟨-, hnone⟩ | ⟨usage, scancode, hcode, husage, hsome⟩
        · rw [hnone]
          exact hfollows.key hunnamed
        · -- The release of a knob reaches a scancode that nobody presses.
          have hforeign : ∀ other, forwarded other ≠ some scancode := by
            intro other hother
            unfold forwarded at hother
            split at hother
            · exact Option.some_ne_none scancode hother.symm
            · next hnot =>
                exact hnot (scancodeOf_injective hother hcode ▸ hknob)
          rw [hsome, applied, HostView.apply, HostView.key, husage]
          exact hfollows.key (hunnamed.clear_foreign hforeign)
  · have hnotKnob : ¬(down = true ∧
        ∃ code' ∈ some code, InputCapture.isKnob code') := by
      rintro ⟨-, other, hother, hknob'⟩
      exact hknob (Option.some.inj hother ▸ hknob')
    have hforwarded : forwarded code = scancodeOf code := if_neg hknob
    rw [if_neg hnotKnob]
    rcases hevent with ⟨hcode, hnone⟩ | ⟨usage, scancode, hcode, husage, hsome⟩
    · rw [hnone]
      exact hfollows.key
        (hfollows.keys.update_unnamed (hforwarded.trans hcode) down)
    · rw [hsome, applied, HostView.apply, HostView.key, husage]
      exact hfollows.key (hfollows.keys.update forwarded_injective
        (hforwarded.trans hcode) down)

theorem mouseInput (hfollows : Follows held pressed seen view)
    (button : WindowButton) (down : Bool) :
    Follows held (Function.update pressed button down) seen
      (applied view ((InputCapture.mouseButton button).map fun button =>
        (.mouseButton button down : InputEvent F))) := by
  cases hbutton : InputCapture.mouseButton button with
  | none =>
      exact ⟨hfollows.keys, hfollows.buttons.update_unnamed hbutton down,
        hfollows.pads⟩
  | some sent =>
      exact ⟨hfollows.keys,
        hfollows.buttons.update mouseButton_injective hbutton down,
        hfollows.pads⟩

/-- A poll that reads something new sends it, and only then. -/
theorem poll (hfollows : Follows held pressed seen view)
    (reading : Option PadState) :
    Follows held pressed reading
      (applied view (if reading = seen then none
        else some (GamepadCapture.eventOf reading : InputEvent F))) := by
  by_cases hseen : reading = seen
  · rw [if_pos hseen, hseen]
    exact hfollows
  · rw [if_neg hseen, applied]
    have happly : view.apply (GamepadCapture.eventOf reading : InputEvent F) =
        { view with
          pads := Function.update view.pads GamepadCapture.seat
            (reported reading GamepadCapture.seat) } := by
      cases reading <;> rfl
    rw [happly]
    refine ⟨hfollows.keys, hfollows.buttons, ?_⟩
    funext seat
    by_cases hseat : seat = GamepadCapture.seat
    · simp only [hseat, Function.update_self]
    · have hsame := congrFun hfollows.pads seat
      rw [reported, if_neg hseat] at hsame
      simp only [Function.update_of_ne hseat, hsame]
      rw [reported, if_neg hseat]

end Follows

/-- Deliveries find the system in order. -/
def Favourable : InputAction F → Prop
  | .deliver answers => answers.Favourable
  | _ => True

section Documented

variable {system} (hsystem : system.Documented)

include hsystem

theorem inv_start : Inv system (start system : InputPath F Bus Desk) where
  ready := WinHost.ready_new hsystem
  last := rfl
  announced := rfl
  masked := fun state hseen => absurd hseen.symm (Option.some_ne_none state)
  follows := by
    rw [settled, start, List.foldl_nil, WinHost.view_new hsystem]
    refine ⟨Registers.mirrors_unset _, Registers.mirrors_unset _, ?_⟩
    funext seat
    exact (ite_self none).symm

theorem settled_deliver (pointer : PointerOps F) (path : InputPath F Bus Desk)
    {event : InputEvent F} {flight : List (InputEvent F)}
    (hflight : path.flight = event :: flight) {answers : WinAnswers}
    (hanswers : answers.Favourable) (hready : path.host.Ready system) :
    settled system { path with
        flight := flight
        host := (path.host.inject system pointer answers event).1 } =
      path.settled system := by
  rw [settled, settled, hflight, List.foldl_cons,
    (WinHost.view_inject hsystem answers hanswers pointer path.host hready
      event).1]

omit hsystem in

/-- Sending changes neither the host nor what the capture remembers. -/
theorem Inv.send {path : InputPath F Bus Desk} (hready : path.host.Ready system)
    (hlast : path.capture.last = path.seen)
    (hannounced : path.capture.announced = path.seen.isSome)
    (hmasked : ∀ state, path.seen = some state →
      GamepadCapture.Masked state.1)
    {event : Option (InputEvent F)}
    (hfollows : Follows path.held path.pressed path.seen
      (Follows.applied (path.settled system) event)) :
    (path.send event).Inv system := by
  refine ⟨hready, hlast, hannounced, hmasked, ?_⟩
  rw [settled_send]
  exact hfollows

theorem Inv.step {path : InputPath F Bus Desk} (hinv : path.Inv system)
    (sticks : StickOps F) (pointer : PointerOps F) (action : InputAction F)
    (haction : Favourable action) :
    (path.step system sticks pointer action).Inv system := by
  cases action with
  | keyboardInput physical pressed synthetic =>
      apply Inv.send
      · exact hinv.ready
      · exact hinv.last
      · exact hinv.announced
      · exact hinv.masked
      · cases synthetic with
        | true => exact hinv.follows
        | false =>
            cases physical with
            | none => cases pressed <;> exact hinv.follows
            | some code => exact hinv.follows.keyboardInput code pressed
  | mouseInput button pressed =>
      apply Inv.send
      · exact hinv.ready
      · exact hinv.last
      · exact hinv.announced
      · exact hinv.masked
      · exact hinv.follows.mouseInput button pressed
  | mouseMove move =>
      exact Inv.send hinv.ready hinv.last hinv.announced hinv.masked
        hinv.follows
  | mouseWheel dx dy =>
      exact Inv.send hinv.ready hinv.last hinv.announced hinv.masked
        hinv.follows
  | poll pads =>
      have hpoll := path.capture.poll_eq sticks pads
        (hinv.announced.trans (congrArg Option.isSome hinv.last.symm))
      rw [InputPath.step, hpoll, hinv.last]
      apply Inv.send
      · exact hinv.ready
      · exact rfl
      · exact rfl
      · exact fun state hreading =>
          GamepadCapture.masked_reading sticks hreading
      · exact hinv.follows.poll (GamepadCapture.reading sticks pads)
  | deliver answers =>
      unfold InputPath.step
      cases hflight : path.flight with
      | nil => exact hinv
      | cons event flight =>
          have hview := WinHost.view_inject hsystem answers haction pointer
            path.host hinv.ready event
          refine ⟨hview.2, hinv.last, hinv.announced, hinv.masked, ?_⟩
          rw [settled_deliver hsystem pointer path hflight haction hinv.ready]
          exact hinv.follows

theorem inv_foldl (sticks : StickOps F) (pointer : PointerOps F)
    (actions : List (InputAction F))
    (hactions : ∀ action ∈ actions, Favourable action) :
    (actions.foldl (step system sticks pointer) (start system)).Inv system :=
  EventRun.foldl_invariant
    (fun _ action hinv haction =>
      hinv.step hsystem sticks pointer action haction)
    (inv_start hsystem) (EventRun.along_of_forall hactions _)

/-- Once everything on its way has arrived at a host whose system is in order,
the host's devices are the client's: exactly the scancodes of the held keys are
down, but for the keys the window keeps for itself; a mouse button is down when
it is down at the client; and the only virtual pad is that of seat 0, which
shows what the last poll read, the buttons bit by bit, and is gone when it read
nothing. -/
theorem foldl_step_arrived (sticks : StickOps F) (pointer : PointerOps F)
    (actions : List (InputAction F))
    (hactions : ∀ action ∈ actions, Favourable action)
    (harrived : (actions.foldl (step system sticks pointer)
      (start system)).flight = []) :
    let path := actions.foldl (step system sticks pointer) (start system)
    let view := path.host.view system
    (∀ scancode, view.keys scancode = true ↔
        ∃ code, forwarded code = some scancode ∧ path.held code = true) ∧
      (∀ button, view.buttons button = true ↔
        ∃ source, InputCapture.mouseButton source = some button ∧
          path.pressed source = true) ∧
        (∀ seat, view.pads seat = reported path.seen seat) ∧
          ∀ state, path.seen = some state →
            ∃ pad, view.pads GamepadCapture.seat = some pad ∧
              pad.buttons.setWidth 32 = state.1 := by
  have hinv := inv_foldl hsystem sticks pointer actions hactions
  have hsettled :
      (actions.foldl (step system sticks pointer) (start system)).settled
          system =
        (actions.foldl (step system sticks pointer)
          (start system)).host.view system := by
    rw [settled, harrived, List.foldl_nil]
  have hfollows := hinv.follows
  rw [hsettled] at hfollows
  refine ⟨hfollows.keys, hfollows.buttons, congrFun hfollows.pads, ?_⟩
  intro state hseen
  refine ⟨VigemGamepad.report ⟨GamepadCapture.seat, state.1, state.2⟩, ?_,
    VigemGamepad.report_buttons _ (hinv.masked state hseen)⟩
  have hshown := congrFun hfollows.pads GamepadCapture.seat
  rw [hseen, reported, if_pos rfl, Option.map_some] at hshown
  exact hshown

end Documented

/-- Whole numbers in place of floating point. -/
def wholeSticks : StickOps ℤ where
  lt left right := decide (left < right)
  abs value := if value < 0 then -value else value
  clamp value least greatest :=
    if value < least then least
    else if greatest < value then greatest else value
  mul left right := left * right
  toInt16 := Int16.ofInt
  zero := 0
  one := 1
  negOne := -1
  half := 0
  negHalf := 0
  stickDeadzone := 1
  maxInt16 := 32767

def wholePointer : PointerOps ℤ where
  absolute value := value * 65535
  relative value := value
  notches value := value * 120
  isZero value := decide (value = 0)

/-- A pad with its A button and one stick pressed. -/
def pressedPad : Pad ℤ where
  isConnected := true
  isPressed button := decide (button = .south)
  value axis := if axis = .leftStickX then 1 else 0
  buttonData _ := none

/-- A key goes down, a knob is pressed and released, a pad appears, and all of
it arrives. -/
def tour : List (InputAction ℤ) :=
  [.keyboardInput (some .keyW) true false,
    .keyboardInput (some .bracketLeft) true false,
    .keyboardInput (some .bracketLeft) false false,
    .deliver ⟨fun _ => true, .inOrder⟩, .poll [pressedPad],
    .deliver ⟨fun _ => true, .inOrder⟩, .deliver ⟨fun _ => true, .inOrder⟩]

theorem favourable_inOrder :
    WinAnswers.Favourable ⟨fun _ => true, .inOrder⟩ :=
  ⟨fun _ => rfl, ⟨rfl, rfl, rfl, rfl, rfl⟩⟩

theorem favourable_tour : ∀ action ∈ tour, Favourable action := by
  have hdeliver := favourable_inOrder
  simp only [tour, List.forall_mem_cons, List.not_mem_nil, IsEmpty.forall_iff,
    implies_true, Favourable, hdeliver, and_self]

/-- A system that keeps what it shows, and nothing else. -/
def tableSystem : WinSystem (ℕ → Option XGamepad)
    ((ℕ × Bool → Bool) × (MouseButton → Bool)) := ⟨.table, .table⟩

theorem documented_tableSystem : tableSystem.Documented :=
  ⟨VigemDriver.documented_table, Desktop.documented_table⟩

theorem foldl_step_arrived_tour :
    let path := tour.foldl (step tableSystem wholeSticks wholePointer)
      (start tableSystem)
    let view := path.host.view tableSystem
    (∀ scancode, view.keys scancode = true ↔
        ∃ code, forwarded code = some scancode ∧ path.held code = true) ∧
      (∀ button, view.buttons button = true ↔
        ∃ source, InputCapture.mouseButton source = some button ∧
          path.pressed source = true) ∧
        (∀ seat, view.pads seat = reported path.seen seat) ∧
          ∀ state, path.seen = some state →
            ∃ pad, view.pads GamepadCapture.seat = some pad ∧
              pad.buttons.setWidth 32 = state.1 :=
  foldl_step_arrived documented_tableSystem wholeSticks wholePointer tour
    favourable_tour rfl

example :
    ((tour.foldl (step tableSystem wholeSticks wholePointer)
      (start tableSystem)).host.view tableSystem).keys (0x11, false) = true :=
  rfl

end InputPath

end GameStreamer
