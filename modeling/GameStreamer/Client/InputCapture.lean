import GameStreamer.Core.EventRun
import GameStreamer.Input.Keymap
import GameStreamer.Protocol.Input

/-!
# Reading the client's input devices

The window forwards its key and mouse events, all but those of three keys that
it keeps for itself while they go down.  The controller is polled: a snapshot
is sent when it differs from the last one, and a disconnect once the pad is
gone.
-/

namespace GameStreamer

/-- The buttons of `gilrs` that are read. -/
inductive PadButton where
  | south | east | west | north
  | leftTrigger | rightTrigger | leftTrigger2 | rightTrigger2
  | select | start | mode | leftThumb | rightThumb
  | dpadUp | dpadDown | dpadLeft | dpadRight
  deriving DecidableEq, Repr

/-- The axes of `gilrs` that are read. -/
inductive PadAxis where
  | leftStickX | leftStickY | rightStickX | rightStickY | dpadX | dpadY
  deriving DecidableEq, Repr

/-- A controller as `gilrs` shows it, with readings of type `F`. -/
structure Pad (F : Type*) where
  isConnected : Bool
  isPressed : PadButton → Bool
  value : PadAxis → F
  buttonData : PadButton → Option F

/-- The arithmetic on the readings. -/
structure StickOps (F : Type*) where
  lt : F → F → Bool
  abs : F → F
  clamp : F → F → F → F
  mul : F → F → F
  /-- `as i16`. -/
  toInt16 : F → Int16
  zero : F
  one : F
  negOne : F
  half : F
  negHalf : F
  stickDeadzone : F
  /-- `f32::from(i16::MAX)`. -/
  maxInt16 : F

/-- What a snapshot carries, without the seat. -/
abbrev PadState := BitVec 32 × Vector Int16 8

namespace GamepadCapture

variable {F : Type*} (ops : StickOps F)

/-- The pairs of the loop in `buttons`. -/
def buttonMasks : List (PadButton × BitVec 32) :=
  [
    (.south, GamepadInput.a), (.east, GamepadInput.b),
    (.west, GamepadInput.x), (.north, GamepadInput.y),
    (.leftTrigger, GamepadInput.leftShoulder),
    (.rightTrigger, GamepadInput.rightShoulder),
    (.select, GamepadInput.back), (.start, GamepadInput.start),
    (.mode, GamepadInput.guide), (.leftThumb, GamepadInput.leftStick),
    (.rightThumb, GamepadInput.rightStick), (.dpadUp, GamepadInput.dpadUp),
    (.dpadDown, GamepadInput.dpadDown), (.dpadLeft, GamepadInput.dpadLeft),
    (.dpadRight, GamepadInput.dpadRight)
  ]

/-- A pad whose d-pad is a hat reports it as two axes. -/
def hat (pad : Pad F) (bits : BitVec 32) : BitVec 32 :=
  let hx := pad.value .dpadX
  let hy := pad.value .dpadY
  let bits :=
    if ops.lt ops.half hx then bits ||| GamepadInput.dpadRight
    else if ops.lt hx ops.negHalf then bits ||| GamepadInput.dpadLeft
    else bits
  if ops.lt ops.half hy then bits ||| GamepadInput.dpadUp
  else if ops.lt hy ops.negHalf then bits ||| GamepadInput.dpadDown
  else bits

def buttons (pad : Pad F) : BitVec 32 :=
  hat ops pad <| buttonMasks.foldl (fun bits entry =>
    if pad.isPressed entry.1 then bits ||| entry.2 else bits) 0

/-- Bipolar stick, to the whole of `i16` but its least value. -/
def stick (value : F) : Int16 :=
  if ops.lt (ops.abs value) ops.stickDeadzone then 0
  else ops.toInt16
    (ops.mul (ops.clamp value ops.negOne ops.one) ops.maxInt16)

/-- Analog trigger. -/
def trigger (pad : Pad F) (button : PadButton) : Int16 :=
  let value := (pad.buttonData button).getD ops.zero
  ops.toInt16 (ops.mul (ops.clamp value ops.zero ops.one) ops.maxInt16)

def axes (pad : Pad F) : Vector Int16 8 :=
  #v[stick ops (pad.value .leftStickX), stick ops (pad.value .leftStickY),
    stick ops (pad.value .rightStickX), stick ops (pad.value .rightStickY),
    trigger ops pad .leftTrigger2, trigger ops pad .rightTrigger2, 0, 0]

end GamepadCapture

/-- The last state sent, and whether the pad has been announced.  A poll
compares with it what the controllers show now. -/
structure GamepadCapture where
  last : Option PadState
  announced : Bool

namespace GamepadCapture

variable {F : Type*} (ops : StickOps F)

def new : GamepadCapture := ⟨none, false⟩

def seat : UInt8 := 0

/-- The state of the first connected pad, when there is one. -/
def reading (pads : List (Pad F)) : Option PadState :=
  (pads.find? fun pad => pad.isConnected).map fun pad =>
    (buttons ops pad, axes ops pad)

/-- One look at the controllers.  A snapshot is sent when it differs from the
last one, and a disconnect once no pad is connected any more. -/
def poll (capture : GamepadCapture) (pads : List (Pad F)) :
    GamepadCapture × Option (InputEvent F) :=
  match pads.find? fun pad => pad.isConnected with
  | none =>
      if capture.announced then
        (⟨none, false⟩, some (.gamepadDisconnect seat))
      else (capture, none)
  | some pad =>
      let buttons := buttons ops pad
      let axes := axes ops pad
      let capture := { capture with announced := true }
      if capture.last = some (buttons, axes) then (capture, none)
      else
        ({ capture with last := some (buttons, axes) },
          some (.gamepad ⟨seat, buttons, axes⟩))

/-- Only bits that XInput defines. -/
def Masked (bits : BitVec 32) : Prop :=
  bits &&& GamepadInput.xinputMask = bits

theorem Masked.or {left right : BitVec 32} (hleft : Masked left)
    (hright : Masked right) : Masked (left ||| right) := by
  rw [Masked, BitVec.and_or_distrib_right, hleft, hright]

theorem Masked.hat {bits : BitVec 32} (hbits : Masked bits) (pad : Pad F) :
    Masked (hat ops pad bits) := by
  have hstep : ∀ {bits : BitVec 32} (positive negative : BitVec 32)
      (reading : F), Masked bits → Masked positive → Masked negative →
      Masked (if ops.lt ops.half reading then bits ||| positive
        else if ops.lt reading ops.negHalf then bits ||| negative
        else bits) := by
    intro bits positive negative reading hbits hpositive hnegative
    split
    · exact hbits.or hpositive
    · split
      · exact hbits.or hnegative
      · exact hbits
  apply hstep
  · apply hstep
    · exact hbits
    · exact rfl
    · exact rfl
  · exact rfl
  · exact rfl

/-- Every bit the client sets is one that XInput defines. -/
theorem masked_buttons (pad : Pad F) : Masked (buttons ops pad) := by
  apply Masked.hat
  have hmasks : ∀ entry ∈ buttonMasks,
      entry.2 &&& GamepadInput.xinputMask = entry.2 := by decide
  apply @EventRun.foldl_invariant _ _ _ Masked (fun _ entry => Masked entry.2)
  · intro bits entry hbits hentry
    split
    · exact hbits.or hentry
    · exact hbits
  · exact rfl
  · exact EventRun.along_of_forall hmasks _

theorem masked_reading {pads : List (Pad F)} {state : PadState}
    (hreading : reading ops pads = some state) : Masked state.1 := by
  obtain ⟨pad, -, rfl⟩ := Option.map_eq_some_iff.mp hreading
  exact masked_buttons ops pad

/-- The event that tells the host of a reading. -/
def eventOf : Option PadState → InputEvent F
  | none => .gamepadDisconnect seat
  | some state => .gamepad ⟨seat, state.1, state.2⟩

/-- A poll sends what it reads if that is news. -/
theorem poll_eq (capture : GamepadCapture) (pads : List (Pad F))
    (hannounced : capture.announced = capture.last.isSome) :
    capture.poll ops pads =
      (⟨reading ops pads, (reading ops pads).isSome⟩,
        if reading ops pads = capture.last then none
        else some (eventOf (reading ops pads))) := by
  obtain ⟨last, announced⟩ := capture
  have hlast : announced = last.isSome := hannounced
  subst hlast
  unfold poll reading
  cases pads.find? fun pad => pad.isConnected with
  | none =>
      cases last with
      | none => rfl
      | some last => rfl
  | some pad =>
      simp only [Option.map_some, Option.isSome_some]
      by_cases hlast : last = some (buttons ops pad, axes ops pad)
      · rw [if_pos hlast, if_pos hlast.symm, hlast]
      · rw [if_neg hlast, if_neg (Ne.symm hlast), eventOf]

end GamepadCapture

/-! ### The window -/

/-- A mouse button as the window names it. -/
inductive WindowButton where
  | left | right | middle | back | forward
  | other (index : ℕ)
  deriving DecidableEq, Repr

namespace InputCapture

variable {F : Type*}

def mouseButton : WindowButton → Option MouseButton
  | .left => some .left
  | .right => some .right
  | .middle => some .middle
  | .back => some .back
  | .forward => some .forward
  | .other _ => none

/-- A key without a code, or whose code has no usage, is not sent. -/
def keyEvent (physical : Option KeyCode) (pressed : Bool) :
    Option (InputEvent F) :=
  (physical.bind hidUsage).map fun usage => .key usage pressed

/-- The keys by which the window steps the bitrate and toggles its control. -/
def isKnob (code : KeyCode) : Prop :=
  code = .bracketLeft ∨ code = .bracketRight ∨ code = .backslash

instance (code : KeyCode) : Decidable (isKnob code) :=
  inferInstanceAs (Decidable (_ ∨ _ ∨ _))

/-- What is forwarded of a `KeyboardInput`. -/
def keyboardInput (physical : Option KeyCode) (pressed synthetic : Bool) :
    Option (InputEvent F) :=
  if synthetic then none
  else if pressed ∧ ∃ code ∈ physical, isKnob code then none
  else keyEvent physical pressed

end InputCapture

end GameStreamer
