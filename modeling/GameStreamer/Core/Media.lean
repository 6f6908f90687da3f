import Mathlib.Data.Nat.Basic

/-!
# Media types and the wire clock

The frame kinds of the encoder contract with their wire bytes, the 64-bit
frame counter with its truncated wire form, and the 32-bit form of the
microsecond timestamps.  Microsecond clock readings are natural numbers, and
only what is sent is truncated.
-/

namespace GameStreamer

/-- What an encoded frame is, on the wire and in the encoder contract. -/
inductive FrameKind where
  | idr
  | p
  | intraRefresh
  | fecParity
  deriving DecidableEq, Repr

namespace FrameKind

def toWire : FrameKind → UInt8
  | idr => 0
  | p => 1
  | intraRefresh => 2
  | fecParity => 3

/-- `none` is the source's `UnknownFrameKind` error. -/
def fromWire (byte : UInt8) : Option FrameKind :=
  if byte = 0 then some idr
  else if byte = 1 then some p
  else if byte = 2 then some intraRefresh
  else if byte = 3 then some fecParity
  else none

@[simp]
theorem fromWire_toWire (kind : FrameKind) :
    fromWire kind.toWire = some kind := by
  cases kind <;> rfl

end FrameKind

/-- `FrameId::wire`: frame ids are truncated to 32 bits on the wire. -/
def frameIdWire (frameId : ℕ) : UInt32 := UInt32.ofNat frameId

/-- Truncate a microsecond timestamp to its 32-bit wire form. -/
def wireTs (us : ℕ) : UInt32 := UInt32.ofNat us

/-- `later - earlier` between two wrapped timestamps. -/
def wireTsDeltaUs (later earlier : UInt32) : UInt32 := later - earlier

/-- `u32::MAX / 2`, the bound of every wrap-aware comparison. -/
def halfRange : UInt32 := 0x7fffffff

end GameStreamer
