import Mathlib.Data.UInt
import Mathlib.Tactic.Ring

/-!
# Serial numbers

A counter that only grows is sent truncated to 32 bits.  Differences of two
truncated values recover the true distance as long as it is below `2 ^ 32`, so
the counters of a short stretch of a run are told apart by what was sent.
-/

namespace GameStreamer.SerialNumber

/-- The truncated form of a counter value. -/
abbrev wire (value : ℕ) : UInt32 := UInt32.ofNat value

theorem toNat_wire (value : ℕ) : (wire value).toNat = value % 2 ^ 32 :=
  UInt32.toNat_ofNat'

theorem toNat_wire_of_lt {value : ℕ} (hlt : value < 2 ^ 32) :
    (wire value).toNat = value := by
  rw [toNat_wire, Nat.mod_eq_of_lt hlt]

/-- Wrapping subtraction of truncated counters is the truncated distance. -/
theorem wire_sub_wire {older newer : ℕ} (hle : older ≤ newer) :
    wire newer - wire older = wire (newer - older) := by
  apply UInt32.toNat_inj.mp
  rw [UInt32.toNat_sub, toNat_wire, toNat_wire, toNat_wire]
  omega

theorem toNat_wire_sub_wire {older newer : ℕ} (hle : older ≤ newer)
    (hnear : newer - older < 2 ^ 32) :
    (wire newer - wire older).toNat = newer - older := by
  rw [wire_sub_wire hle, toNat_wire_of_lt hnear]

theorem wire_injOn {left right : ℕ} (hle : left ≤ right)
    (hnear : right - left < 2 ^ 32) (heq : wire left = wire right) :
    left = right := by
  have hsub := toNat_wire_sub_wire hle hnear
  rw [heq, UInt32.sub_self] at hsub
  have : right - left = 0 := by simpa using hsub.symm
  omega

end GameStreamer.SerialNumber
