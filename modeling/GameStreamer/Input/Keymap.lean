import GameStreamer.Core.Registers

/-!
# Key codes from the client to the hosts

The client names a physical key by its USB HID usage, and each host turns the
usage into a code of its own system.  The three tables are transcribed with
their entries in the order of the source.  What matters beyond the single
entries is how they fit: a key the client can send has a code on every host,
and no two keys meet in one code.
-/

namespace GameStreamer

/-- `winit`'s key codes: those the client translates, and the others. -/
inductive KeyCode where
  | keyA | keyB | keyC | keyD | keyE | keyF | keyG | keyH | keyI
  | keyJ | keyK | keyL | keyM | keyN | keyO | keyP | keyQ | keyR
  | keyS | keyT | keyU | keyV | keyW | keyX | keyY | keyZ | digit1
  | digit2 | digit3 | digit4 | digit5 | digit6 | digit7 | digit8
  | digit9 | digit0 | enter | escape | backspace | tab | space | minus
  | equal | bracketLeft | bracketRight | backslash | semicolon | quote
  | backquote | comma | period | slash | capsLock | f1 | f2 | f3 | f4
  | f5 | f6 | f7 | f8 | f9 | f10 | f11 | f12 | arrowRight | arrowLeft
  | arrowDown | arrowUp | controlLeft | shiftLeft | altLeft | superLeft
  | controlRight | shiftRight | altRight | superRight
  | other (index : ℕ)
  deriving DecidableEq, Repr

/-- The arms of `hid_usage`. -/
def hidUsages : List (KeyCode × ℕ) :=
  [
    (.keyA, 0x04), (.keyB, 0x05), (.keyC, 0x06), (.keyD, 0x07), (.keyE, 0x08),
    (.keyF, 0x09), (.keyG, 0x0a), (.keyH, 0x0b), (.keyI, 0x0c), (.keyJ, 0x0d),
    (.keyK, 0x0e), (.keyL, 0x0f), (.keyM, 0x10), (.keyN, 0x11), (.keyO, 0x12),
    (.keyP, 0x13), (.keyQ, 0x14), (.keyR, 0x15), (.keyS, 0x16), (.keyT, 0x17),
    (.keyU, 0x18), (.keyV, 0x19), (.keyW, 0x1a), (.keyX, 0x1b), (.keyY, 0x1c),
    (.keyZ, 0x1d), (.digit1, 0x1e), (.digit2, 0x1f), (.digit3, 0x20),
    (.digit4, 0x21), (.digit5, 0x22), (.digit6, 0x23), (.digit7, 0x24),
    (.digit8, 0x25), (.digit9, 0x26), (.digit0, 0x27), (.enter, 0x28),
    (.escape, 0x29), (.backspace, 0x2a), (.tab, 0x2b), (.space, 0x2c),
    (.minus, 0x2d), (.equal, 0x2e), (.bracketLeft, 0x2f),
    (.bracketRight, 0x30), (.backslash, 0x31), (.semicolon, 0x33),
    (.quote, 0x34), (.backquote, 0x35), (.comma, 0x36), (.period, 0x37),
    (.slash, 0x38), (.capsLock, 0x39), (.f1, 0x3a), (.f2, 0x3b), (.f3, 0x3c),
    (.f4, 0x3d), (.f5, 0x3e), (.f6, 0x3f), (.f7, 0x40), (.f8, 0x41),
    (.f9, 0x42), (.f10, 0x43), (.f11, 0x44), (.f12, 0x45), (.arrowRight, 0x4f),
    (.arrowLeft, 0x50), (.arrowDown, 0x51), (.arrowUp, 0x52),
    (.controlLeft, 0xe0), (.shiftLeft, 0xe1), (.altLeft, 0xe2),
    (.superLeft, 0xe3), (.controlRight, 0xe4), (.shiftRight, 0xe5),
    (.altRight, 0xe6), (.superRight, 0xe7)
  ]

/-- The HID usage (page 0x07) of a key, or none if it is not translated. -/
def hidUsage (code : KeyCode) : Option ℕ :=
  hidUsages.lookup code

/-- The arms of `hid_to_macos`. -/
def macosCodes : List (ℕ × ℕ) :=
  [
    (0x04, 0), (0x05, 11), (0x06, 8), (0x07, 2), (0x08, 14), (0x09, 3),
    (0x0a, 5), (0x0b, 4), (0x0c, 34), (0x0d, 38), (0x0e, 40), (0x0f, 37),
    (0x10, 46), (0x11, 45), (0x12, 31), (0x13, 35), (0x14, 12), (0x15, 15),
    (0x16, 1), (0x17, 17), (0x18, 32), (0x19, 9), (0x1a, 13), (0x1b, 7),
    (0x1c, 16), (0x1d, 6), (0x1e, 18), (0x1f, 19), (0x20, 20), (0x21, 21),
    (0x22, 23), (0x23, 22), (0x24, 26), (0x25, 28), (0x26, 25), (0x27, 29),
    (0x28, 36), (0x29, 53), (0x2a, 51), (0x2b, 48), (0x2c, 49), (0x2d, 27),
    (0x2e, 24), (0x2f, 33), (0x30, 30), (0x31, 42), (0x33, 41), (0x34, 39),
    (0x35, 50), (0x36, 43), (0x37, 47), (0x38, 44), (0x39, 57), (0x3a, 122),
    (0x3b, 120), (0x3c, 99), (0x3d, 118), (0x3e, 96), (0x3f, 97), (0x40, 98),
    (0x41, 100), (0x42, 101), (0x43, 109), (0x44, 103), (0x45, 111),
    (0x4f, 124), (0x50, 123), (0x51, 125), (0x52, 126), (0xe0, 59), (0xe1, 56),
    (0xe2, 58), (0xe3, 55), (0xe4, 62), (0xe5, 60), (0xe6, 61), (0xe7, 54)
  ]

/-- The virtual key code macOS wants for a usage. -/
def hidToMacos (usage : ℕ) : Option ℕ :=
  macosCodes.lookup usage

/-- A key whose scancode carries the `E0` prefix. -/
def ext (code : ℕ) : ℕ × Bool := (code, true)

def plain (code : ℕ) : ℕ × Bool := (code, false)

/-- The arms of `hid_to_scancode`. -/
def scancodes : List (ℕ × ℕ × Bool) :=
  [
    (0x04, plain 0x1e), (0x05, plain 0x30), (0x06, plain 0x2e),
    (0x07, plain 0x20), (0x08, plain 0x12), (0x09, plain 0x21),
    (0x0a, plain 0x22), (0x0b, plain 0x23), (0x0c, plain 0x17),
    (0x0d, plain 0x24), (0x0e, plain 0x25), (0x0f, plain 0x26),
    (0x10, plain 0x32), (0x11, plain 0x31), (0x12, plain 0x18),
    (0x13, plain 0x19), (0x14, plain 0x10), (0x15, plain 0x13),
    (0x16, plain 0x1f), (0x17, plain 0x14), (0x18, plain 0x16),
    (0x19, plain 0x2f), (0x1a, plain 0x11), (0x1b, plain 0x2d),
    (0x1c, plain 0x15), (0x1d, plain 0x2c), (0x1e, plain 0x02),
    (0x1f, plain 0x03), (0x20, plain 0x04), (0x21, plain 0x05),
    (0x22, plain 0x06), (0x23, plain 0x07), (0x24, plain 0x08),
    (0x25, plain 0x09), (0x26, plain 0x0a), (0x27, plain 0x0b),
    (0x28, plain 0x1c), (0x29, plain 0x01), (0x2a, plain 0x0e),
    (0x2b, plain 0x0f), (0x2c, plain 0x39), (0x2d, plain 0x0c),
    (0x2e, plain 0x0d), (0x2f, plain 0x1a), (0x30, plain 0x1b),
    (0x31, plain 0x2b), (0x33, plain 0x27), (0x34, plain 0x28),
    (0x35, plain 0x29), (0x36, plain 0x33), (0x37, plain 0x34),
    (0x38, plain 0x35), (0x39, plain 0x3a), (0x3a, plain 0x3b),
    (0x3b, plain 0x3c), (0x3c, plain 0x3d), (0x3d, plain 0x3e),
    (0x3e, plain 0x3f), (0x3f, plain 0x40), (0x40, plain 0x41),
    (0x41, plain 0x42), (0x42, plain 0x43), (0x43, plain 0x44),
    (0x44, plain 0x57), (0x45, plain 0x58), (0x47, plain 0x46),
    (0x49, ext 0x52), (0x4a, ext 0x47), (0x4b, ext 0x49), (0x4c, ext 0x53),
    (0x4d, ext 0x4f), (0x4e, ext 0x51), (0x4f, ext 0x4d), (0x50, ext 0x4b),
    (0x51, ext 0x50), (0x52, ext 0x48), (0x53, plain 0x45), (0x54, ext 0x35),
    (0x55, plain 0x37), (0x56, plain 0x4a), (0x57, plain 0x4e),
    (0x58, ext 0x1c), (0x59, plain 0x4f), (0x5a, plain 0x50),
    (0x5b, plain 0x51), (0x5c, plain 0x4b), (0x5d, plain 0x4c),
    (0x5e, plain 0x4d), (0x5f, plain 0x47), (0x60, plain 0x48),
    (0x61, plain 0x49), (0x62, plain 0x52), (0x63, plain 0x53),
    (0x65, ext 0x5d), (0xe0, plain 0x1d), (0xe1, plain 0x2a),
    (0xe2, plain 0x38), (0xe3, ext 0x5b), (0xe4, ext 0x1d), (0xe5, plain 0x36),
    (0xe6, ext 0x38), (0xe7, ext 0x5c)
  ]

/-- The PS/2 scancode Windows wants for a usage, and whether it is an
extended one. -/
def hidToScancode (usage : ℕ) : Option (ℕ × Bool) :=
  scancodes.lookup usage

/-- Every key the client translates is known to both hosts. -/
theorem hidUsages_mapped :
    ∀ entry ∈ hidUsages, (hidToScancode entry.2).isSome ∧
      (hidToMacos entry.2).isSome := by decide

theorem hidUsage_injective {left right : KeyCode} {usage : ℕ}
    (hleft : hidUsage left = some usage)
    (hright : hidUsage right = some usage) : left = right :=
  Registers.lookup_injective (by decide) hleft hright

theorem hidToScancode_injective {left right : ℕ} {code : ℕ × Bool}
    (hleft : hidToScancode left = some code)
    (hright : hidToScancode right = some code) : left = right :=
  Registers.lookup_injective (by decide) hleft hright

theorem hidToMacos_injective {left right code : ℕ}
    (hleft : hidToMacos left = some code)
    (hright : hidToMacos right = some code) : left = right :=
  Registers.lookup_injective (by decide) hleft hright

/-- The scancode at which a key of the client arrives on Windows. -/
def scancodeOf (code : KeyCode) : Option (ℕ × Bool) :=
  (hidUsage code).bind hidToScancode

/-- A key that the client sends never gets lost on the host. -/
theorem hidToScancode_of_hidUsage {code : KeyCode} {usage : ℕ}
    (husage : hidUsage code = some usage) :
    ∃ scancode, hidToScancode usage = some scancode := by
  obtain ⟨front, back, hsplit, -⟩ := List.lookup_eq_some_iff.mp husage
  have hmem : (code, usage) ∈ hidUsages := by
    rw [hsplit]
    exact List.mem_append_right _ List.mem_cons_self
  exact Option.isSome_iff_exists.mp (hidUsages_mapped _ hmem).1

theorem scancodeOf_injective {left right : KeyCode} {scancode : ℕ × Bool}
    (hleft : scancodeOf left = some scancode)
    (hright : scancodeOf right = some scancode) : left = right := by
  obtain ⟨usage, husage, hscancode⟩ := Option.bind_eq_some_iff.mp hleft
  obtain ⟨usage', husage', hscancode'⟩ := Option.bind_eq_some_iff.mp hright
  rw [hidToScancode_injective hscancode' hscancode] at husage'
  exact hidUsage_injective husage husage'

end GameStreamer
