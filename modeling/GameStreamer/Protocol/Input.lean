import Mathlib.Data.BitVec
import Mathlib.Logic.Function.Basic

/-!
# Input events

The events by which a client forwards its keyboard, mouse and controller, with
the meaning of a controller snapshot's bits and axes.  Timestamps serve only
telemetry, and no host reads the payload of motion, touch or pen events; both
are left out.
-/

namespace GameStreamer

/-- Full controller state for one seat.  No host reads the timestamp. -/
structure GamepadInput where
  seat : UInt8
  buttons : BitVec 32
  axes : Vector Int16 8
  deriving DecidableEq

namespace GamepadInput

/-- The bits of `buttons` that XInput defines. -/
def xinputMask : BitVec 32 := 0xffff

def dpadUp : BitVec 32 := 0x0001
def dpadDown : BitVec 32 := 0x0002
def dpadLeft : BitVec 32 := 0x0004
def dpadRight : BitVec 32 := 0x0008
def start : BitVec 32 := 0x0010
def back : BitVec 32 := 0x0020
def leftStick : BitVec 32 := 0x0040
def rightStick : BitVec 32 := 0x0080
def leftShoulder : BitVec 32 := 0x0100
def rightShoulder : BitVec 32 := 0x0200
def guide : BitVec 32 := 0x0400
def a : BitVec 32 := 0x1000
def b : BitVec 32 := 0x2000
def x : BitVec 32 := 0x4000
def y : BitVec 32 := 0x8000

/-- `gamepad::Axis`: the places in `axes` that mean something. -/
inductive Axis where
  | leftX | leftY | rightX | rightY | leftTrigger | rightTrigger
  deriving DecidableEq, Repr

def Axis.index : Axis → Fin 8
  | .leftX => 0
  | .leftY => 1
  | .rightX => 2
  | .rightY => 3
  | .leftTrigger => 4
  | .rightTrigger => 5

end GamepadInput

inductive MouseButton where
  | left | right | middle | back | forward
  deriving DecidableEq, Repr

inductive MouseMove (F : Type*) where
  | relative (dx dy : F)
  | absolute (x y : F)

/-- One input event, with coordinates of type `F`. -/
inductive InputEvent (F : Type*) where
  | key (usage : ℕ) (down : Bool)
  | mouseMove (move : MouseMove F)
  | mouseButton (button : MouseButton) (down : Bool)
  | mouseWheel (dx dy : F)
  | gamepad (input : GamepadInput)
  | gamepadMotion (seat : UInt8)
  | touch
  | pen
  | gamepadDisconnect (seat : UInt8)

end GameStreamer
