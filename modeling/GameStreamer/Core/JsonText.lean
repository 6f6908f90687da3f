import Mathlib.Data.List.Basic
import GameStreamer.Core.Bytes

/-!
# JSON strings as byte strings

A string is written between quotes with its control bytes, quotes and
backslashes escaped.  Such a text can be followed by anything and still be
read back: the escapes form a prefix-free code and none of them starts with
the closing quote.
-/

namespace GameStreamer.JsonText

section PrefixCode

variable {A B : Type*}

/-- A message written symbol by symbol in a prefix-free code and closed by a
symbol that starts no code word is recovered together with what follows. -/
theorem flatMap_append_cons_inj {code : A → List B} {stop : B}
    (hcode : ∀ a b front back, code a ++ front = code b ++ back → a = b)
    (hstop : ∀ a front back, code a ++ front ≠ stop :: back)
    {left right : List A} {leftRest rightRest : List B}
    (heq : left.flatMap code ++ stop :: leftRest =
      right.flatMap code ++ stop :: rightRest) :
    left = right ∧ leftRest = rightRest := by
  induction left generalizing right with
  | nil =>
      cases right with
      | nil => exact ⟨rfl, (List.cons.inj heq).2⟩
      | cons b right =>
          rw [List.flatMap_cons, List.append_assoc] at heq
          exact absurd heq.symm (hstop _ _ _)
  | cons a left ih =>
      rw [List.flatMap_cons, List.append_assoc] at heq
      cases right with
      | nil => exact absurd heq (hstop _ _ _)
      | cons b right =>
          rw [List.flatMap_cons, List.append_assoc] at heq
          obtain rfl := hcode _ _ _ _ heq
          obtain ⟨rfl, hrest⟩ := ih (List.append_cancel_left heq)
          exact ⟨rfl, hrest⟩

end PrefixCode

/-! ## Escapes -/

def quoteByte : UInt8 := 0x22
def backslash : UInt8 := 0x5c

/-- One lower-case hexadecimal digit. -/
def hexDigit (n : UInt8) : UInt8 := if n < 10 then 0x30 + n else 0x57 + n

/-- How one byte of a string is written. -/
def escapeByte (byte : UInt8) : List UInt8 :=
  if byte = quoteByte then [backslash, quoteByte]
  else if byte = backslash then [backslash, backslash]
  else if byte = 0x08 then [backslash, 0x62]
  else if byte = 0x09 then [backslash, 0x74]
  else if byte = 0x0a then [backslash, 0x6e]
  else if byte = 0x0c then [backslash, 0x66]
  else if byte = 0x0d then [backslash, 0x72]
  else if byte < 0x20 then
    [backslash, 0x75, 0x30, 0x30, hexDigit (byte / 16), hexDigit (byte % 16)]
  else [byte]

/-- A string as it stands in a JSON text, quotes included. -/
def quote (bytes : List UInt8) : List UInt8 :=
  quoteByte :: (bytes.flatMap escapeByte ++ [quoteByte])

/-! ## Reading an escape back -/

def hexValue (digit : UInt8) : UInt8 :=
  if digit < 0x40 then digit - 0x30 else digit - 0x57

/-- The byte whose four hexadecimal digits come next. -/
def codeUnit : List UInt8 → UInt8
  | _ :: _ :: high :: low :: _ => hexValue high * 16 + hexValue low
  | _ => 0

/-- The byte that is meant by the escape whose backslash was just read. -/
def unescape : List UInt8 → UInt8
  | [] => 0
  | kind :: rest =>
      if kind = 0x75 then codeUnit rest
      else if kind = 0x62 then 0x08
      else if kind = 0x74 then 0x09
      else if kind = 0x6e then 0x0a
      else if kind = 0x66 then 0x0c
      else if kind = 0x72 then 0x0d
      else kind

def firstByte : List UInt8 → UInt8
  | [] => 0
  | first :: rest => if first = backslash then unescape rest else first

theorem hexValue_hexDigit (byte : UInt8) (hbyte : byte < 0x20) :
    hexValue (hexDigit (byte / 16)) * 16 + hexValue (hexDigit (byte % 16)) =
      byte := by
  revert byte
  exact forall_byte (by decide +kernel)

theorem firstByte_escapeByte_append (byte : UInt8) (rest : List UInt8) :
    firstByte (escapeByte byte ++ rest) = byte := by
  rw [escapeByte]
  split_ifs with hquote hback hbs htab hnl hff hcr hcontrol
  rotate_left 7
  · exact hexValue_hexDigit byte hcontrol
  · simp [firstByte, hback]
  -- The two-byte escapes.
  all_goals simp [firstByte, unescape, quoteByte, backslash, *]

theorem escapeByte_append_ne_quoteByte (byte : UInt8)
    (front back : List UInt8) :
    escapeByte byte ++ front ≠ quoteByte :: back := by
  intro heq
  have hne : backslash ≠ quoteByte := by decide
  rw [escapeByte] at heq
  split_ifs at heq with hquote
  all_goals
    rw [List.cons_append] at heq
    first
      | exact hne (List.cons.inj heq).1
      | exact hquote (List.cons.inj heq).1

/-- A quoted string and what follows it are both determined by the text. -/
theorem quote_append_inj {left right leftRest rightRest : List UInt8}
    (heq : quote left ++ leftRest = quote right ++ rightRest) :
    left = right ∧ leftRest = rightRest := by
  simp only [quote, List.cons_append, List.append_assoc, List.nil_append,
    List.cons.injEq, true_and] at heq
  apply flatMap_append_cons_inj ?_ escapeByte_append_ne_quoteByte heq
  intro a b front back h
  rw [← firstByte_escapeByte_append a front, h, firstByte_escapeByte_append]

end GameStreamer.JsonText
