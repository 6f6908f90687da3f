import GameStreamer.Core.Media
import Mathlib.Algebra.Ring.Int.Defs

/-!
# Clock synchronisation

The client estimates the offset of the agent's clock from ping/pong midpoints
and uses it to map truncated capture stamps into its own clock.  Of all
exchanges the one with the lowest round trip counts.  Clock readings are
natural numbers of microseconds, and an offset may be negative.
-/

namespace GameStreamer

/-- The estimate of the agent's clock against the client's, from the exchange
with the lowest round trip so far. -/
structure ClockSync where
  /-- `(rtt, offset)` of the best sample so far, in µs. -/
  best : Option (ℕ × ℤ)
  deriving DecidableEq, Repr

namespace ClockSync

/-- Record one ping/pong exchange: the sample with the lowest round trip
carries the least queueing noise. -/
def record (sync : ClockSync) (sentUs receivedUs agentTsUs : ℕ) : ClockSync :=
  let rtt := receivedUs - sentUs
  let midpoint := sentUs + rtt / 2
  let offset := (agentTsUs : ℤ) - midpoint
  match sync.best with
  | none => ⟨some (rtt, offset)⟩
  | some (bestRtt, _) => if rtt < bestRtt then ⟨some (rtt, offset)⟩ else sync

def offsetUs (sync : ClockSync) : Option ℤ := sync.best.map Prod.snd

/-- `u64::checked_add_signed`. -/
def checkedAddSigned (value : ℕ) (offset : ℤ) : Option ℕ :=
  let sum := (value : ℤ) + offset
  if 0 ≤ sum ∧ sum < 2 ^ 64 then some sum.toNat else none

/-- Latency of a frame captured at the truncated agent time `captureTsWire`
and observed at client time `clientNowUs`; more than ten seconds is a wrap
artifact and reported as nothing. -/
def frameLatencyUs (sync : ClockSync) (clientNowUs : ℕ)
    (captureTsWire : UInt32) : Option UInt32 := do
  let offset ← sync.offsetUs
  let agentNow ← checkedAddSigned clientNowUs offset
  let latency := wireTsDeltaUs (UInt32.ofNat agentNow) captureTsWire
  if latency < 10000000 then some latency else none

end ClockSync

end GameStreamer
