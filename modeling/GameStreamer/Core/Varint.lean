import GameStreamer.Core.Bytes
import Mathlib.Tactic.Ring

/-!
# Variable-length numbers

A number as groups of seven bits, lowest first, every byte but the last with
its high bit set.  A width in bytes bounds both the writer's and the reader's
loop; within it, reading gives back what was written and leaves the bytes after
it.
-/

namespace GameStreamer.Varint

/-- At most `width` bytes. -/
def write : (width : ℕ) → ℕ → Bytes
  | 0, _ => []
  | width + 1, value =>
      if value < 128 then [UInt8.ofNat value]
      else UInt8.ofNat (value % 128 + 128) :: write width (value / 128)

/-- The number at the front, and the bytes after it; nothing where the bytes
end inside the number or it does not end within the width. -/
def read : (width : ℕ) → Bytes → Option (ℕ × Bytes)
  | 0, _ => none
  | _ + 1, [] => none
  | width + 1, byte :: rest =>
      if byte.toNat < 128 then some (byte.toNat, rest)
      else (read width rest).map fun (value, rest) =>
        (byte.toNat - 128 + 128 * value, rest)

/-- Reading gives back a number that fits the width. -/
theorem read_write {width value : ℕ} (h : value < 128 ^ (width + 1))
    (rest : Bytes) :
    read (width + 1) (write (width + 1) value ++ rest) =
      some (value, rest) := by
  induction width generalizing value with
  | zero =>
      have hlast : value < 128 := h
      have hbyte : (UInt8.ofNat value).toNat = value := by
        rw [UInt8.toNat_ofNat', Nat.mod_eq_of_lt (by omega)]
      rw [write, if_pos hlast, List.singleton_append, read, hbyte,
        if_pos hlast]
  | succ width ih =>
      rw [write]
      split_ifs with hlast
      · have hbyte : (UInt8.ofNat value).toNat = value := by
          rw [UInt8.toNat_ofNat', Nat.mod_eq_of_lt (by omega)]
        rw [List.singleton_append, read, hbyte, if_pos hlast]
      · have hbyte : (UInt8.ofNat (value % 128 + 128)).toNat =
            value % 128 + 128 := by
          rw [UInt8.toNat_ofNat', Nat.mod_eq_of_lt (by omega)]
        have hrest : value / 128 < 128 ^ (width + 1) := by
          rw [Nat.div_lt_iff_lt_mul (by decide), ← pow_succ]
          exact h
        rw [List.cons_append, read, hbyte, if_neg (by omega), ih hrest,
          Option.map_some, Nat.add_sub_cancel]
        dsimp only
        rw [Nat.mod_add_div]

end GameStreamer.Varint
