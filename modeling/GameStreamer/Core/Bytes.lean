import Mathlib.Data.List.Basic

/-!
# Bytes

A byte string is a list of bytes.  Facts about single bytes are finite checks,
and a text is compared through its UTF-8 bytes, which determine it.
-/

namespace GameStreamer

/-- A byte string is a list of bytes. -/
abbrev Bytes := List UInt8

/-- A fact about every byte is checked value by value. -/
theorem forall_byte {p : UInt8 → Prop} (h : ∀ n : Fin 256, p (UInt8.ofFin n)) :
    ∀ byte, p byte :=
  fun byte => h byte.toFin

/-- The UTF-8 bytes of a string. -/
def asBytes (text : String) : Bytes := text.toByteArray.data.toList

theorem asBytes_injective : Function.Injective asBytes := by
  intro left right heq
  apply String.toByteArray_inj.mp
  apply ByteArray.ext
  apply Array.toList_inj.mp
  exact heq

end GameStreamer
