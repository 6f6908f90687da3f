import Mathlib.Data.Nat.Bitwise
import Mathlib.Data.UInt
import GameStreamer.Core.Bytes
import GameStreamer.Core.Raster

/-!
# The frame marker

The frame index stands in the top left corner of a test picture, as 32 solid
blocks for its bits, the most significant first.  A reader samples the centre
of each block and compares it with mid-gray.  It therefore reads the index
back from whatever became of the picture on its way, if only each sample has
stayed on its side.
-/

namespace GameStreamer.Pattern

open Raster

def block : ℕ := 8
def blocks : ℕ := 32
def minWidth : ℕ := block * blocks

/-- `(index >> (31 - bit)) & 1 == 1` -/
def isOn (index : UInt32) (bit : ℕ) : Bool :=
  (index >>> UInt32.ofNat (31 - bit)) &&& 1 == 1

/-- `if on { 0xff } else { 0x00 }` -/
def shade (index : UInt32) (bit : ℕ) : UInt8 :=
  if isOn index bit then 0xff else 0x00

/-- One pixel, in the order blue, green, red, alpha. -/
def putPixel (px : ℕ) (b g r a : UInt8) (buf : Bytes) : Option Bytes := do
  let buf ← store px b buf
  let buf ← store (px + 1) g buf
  let buf ← store (px + 2) r buf
  store (px + 3) a buf

/-- Draw the number of a frame as a row of 32 black and white blocks.  `none`
is the failed assertion, or an index out of range. -/
def writeMarkerBgra (buf : Bytes) (stride : ℕ) (index : UInt32) :
    Option Bytes :=
  if stride < minWidth * 4 then none
  else
    forRange blocks (fun bit =>
      let v := shade index bit
      forRange block fun y =>
        let row := y * stride + bit * block * 4
        forRange block fun x => putPixel (row + x * 4) v v v 0xff) buf

/-- The loop of both readers, which sample different bytes of a block. -/
def readBlocks (buf : Bytes) (sampleAt : ℕ → ℕ) : Option UInt32 :=
  (List.range blocks).foldlM (fun index bit => do
    let sample ← buf[sampleAt bit]?
    some (if sample > 0x80 then index ||| (1 <<< UInt32.ofNat (31 - bit))
      else index)) 0

/-- The reader stops on a plane that is too small. -/
def readMarkerLuma (yPlane : Bytes) (stride width : ℕ) : Option UInt32 :=
  if width < minWidth ∨ stride < width then none
  else
    readBlocks yPlane fun bit =>
      let cx := bit * block + block / 2
      let cy := block / 2
      cy * stride + cx

/-- The green byte of a packed pixel stands for its brightness. -/
def readMarkerRgba (buf : Bytes) (width : ℕ) : Option UInt32 :=
  if width < minWidth then none
  else
    readBlocks buf fun bit =>
      let cx := bit * block + block / 2
      let cy := block / 2
      (cy * width + cx) * 4 + 1

/-! ## The bits of an index -/

theorem toNat_place (bit : ℕ) :
    (UInt32.ofNat (31 - bit)).toNat % 32 = 31 - bit := by
  rw [UInt32.toNat_ofNat', @Nat.mod_eq_of_lt (31 - bit) _ (by omega)]
  exact Nat.mod_eq_of_lt (by omega)

theorem isOn_eq_testBit (index : UInt32) (bit : ℕ) :
    isOn index bit = index.toNat.testBit (31 - bit) := by
  rw [isOn, Bool.eq_iff_iff, beq_iff_eq, ← UInt32.toNat_inj,
    UInt32.toNat_and, UInt32.toNat_shiftRight, toNat_place,
    Nat.shiftRight_eq_div_pow, Nat.testBit_eq_decide_div_mod_eq,
    decide_eq_true_iff]
  change _ &&& 1 = 1 ↔ _
  rw [Nat.and_one_is_mod]

/-- An index is its 32 bits. -/
theorem eq_of_isOn {left right : UInt32}
    (h : ∀ bit < blocks, isOn left bit = isOn right bit) : left = right := by
  apply UInt32.toNat_inj.mp
  apply Nat.eq_of_testBit_eq
  intro i
  by_cases hi : i < 32
  · have hbit := h (31 - i) (by unfold blocks; omega)
    rw [isOn_eq_testBit, isOn_eq_testBit, Nat.sub_sub_self (by omega)] at hbit
    exact hbit
  · have hpow : 2 ^ 32 ≤ 2 ^ i := Nat.pow_le_pow_right (by decide) (by omega)
    rw [Nat.testBit_lt_two_pow (left.toNat_lt.trans_le hpow),
      Nat.testBit_lt_two_pow (right.toNat_lt.trans_le hpow)]

/-- Setting a bit sets that bit alone. -/
theorem isOn_set (index : UInt32) {bit other : ℕ} (hbit : bit < blocks)
    (hother : other < blocks) :
    isOn (index ||| (1 <<< UInt32.ofNat (31 - bit))) other =
      (isOn index other || decide (bit = other)) := by
  have hplace : 31 - bit = 31 - other ↔ bit = other := by
    unfold blocks at hbit hother
    omega
  have hpow : 2 ^ (31 - bit) < 2 ^ 32 :=
    Nat.pow_lt_pow_right (by decide) (by omega)
  rw [isOn_eq_testBit, isOn_eq_testBit, UInt32.toNat_or, Nat.testBit_or,
    UInt32.toNat_shiftLeft, toNat_place, UInt32.toNat_one, Nat.one_shiftLeft,
    Nat.mod_eq_of_lt hpow, Nat.testBit_two_pow, decide_eq_decide.mpr hplace]

/-! ## Reading -/

/-- The sample of a block is on the side of mid-gray that the bit asks for. -/
def Sampled (buf : Bytes) (sampleAt : ℕ → ℕ) (index : UInt32) (bit : ℕ) :
    Prop :=
  ∃ sample, buf[sampleAt bit]? = some sample ∧
    (sample > 0x80 ↔ isOn index bit)

/-- After some blocks the accumulator has their bits, and no others. -/
theorem readBlocks_prefix {buf : Bytes} {sampleAt : ℕ → ℕ} {index : UInt32}
    (hsampled : ∀ bit < blocks, Sampled buf sampleAt index bit) {n : ℕ}
    (hn : n ≤ blocks) :
    ∃ read, (List.range n).foldlM (fun index bit => do
        let sample ← buf[sampleAt bit]?
        some (if sample > 0x80 then index ||| (1 <<< UInt32.ofNat (31 - bit))
          else index)) 0 = some read ∧
      ∀ bit < blocks, isOn read bit = (isOn index bit && decide (bit < n)) := by
  induction n with
  | zero =>
      refine ⟨0, rfl, ?_⟩
      intro bit _
      rw [isOn_eq_testBit, UInt32.toNat_zero, Nat.zero_testBit,
        decide_eq_false bit.not_lt_zero, Bool.and_false]
  | succ n ih =>
      obtain ⟨read, hread, hbits⟩ := ih (Nat.le_of_succ_le hn)
      obtain ⟨sample, hsample, hside⟩ := hsampled n hn
      rw [List.range_succ, List.foldlM_append, hread, Option.bind_eq_bind,
        Option.bind_some, List.foldlM_cons, hsample]
      refine ⟨_, rfl, ?_⟩
      intro bit hbit
      have hlt : bit < n + 1 ↔ bit < n ∨ n = bit := by omega
      rw [decide_eq_decide.mpr hlt, Bool.decide_or, Bool.and_or_distrib_left,
        ← hbits bit hbit]
      by_cases hon : sample > 0x80
      · rw [if_pos hon, isOn_set read hn hbit]
        by_cases heq : n = bit
        · rw [← heq, hside.mp hon, Bool.true_and]
        · rw [decide_eq_false heq, Bool.and_false]
      · rw [if_neg hon]
        by_cases heq : n = bit
        · have hoff := Bool.eq_false_iff.mpr (mt hside.mpr hon)
          rw [← heq, hoff, Bool.false_and, Bool.or_false]
        · rw [decide_eq_false heq, Bool.and_false, Bool.or_false]

theorem readBlocks_eq {buf : Bytes} {sampleAt : ℕ → ℕ} {index : UInt32}
    (hsampled : ∀ bit < blocks, Sampled buf sampleAt index bit) :
    readBlocks buf sampleAt = some index := by
  obtain ⟨read, hread, hbits⟩ := readBlocks_prefix hsampled (le_refl blocks)
  rw [readBlocks, hread, Option.some_inj]
  apply eq_of_isOn
  intro bit hbit
  rw [hbits bit hbit, decide_eq_true hbit, Bool.and_true]

/-! ## Writing -/

/-- The bytes of a pixel. -/
def channel (b g r a : UInt8) : ℕ → UInt8
  | 0 => b
  | 1 => g
  | 2 => r
  | _ => a

def pixel (px : ℕ) (b g r a : UInt8) : Picture UInt8 :=
  .stack 4 fun c => .dot (px + c) (channel b g r a c)

theorem draws_putPixel (px : ℕ) (b g r a : UInt8) :
    Draws (putPixel px b g r a) (pixel px b g r a) := by
  have hloop : Draws (forRange 4 fun c => store (px + c) (channel b g r a c))
      (pixel px b g r a) :=
    Draws.forRange fun c _ => draws_store (px + c) (channel b g r a c)
  apply hloop.congr
  intro buf
  simp only [forRange_succ, forRange_zero, Option.bind_eq_bind,
    Option.bind_some, Option.bind_assoc]
  rfl

/-- The 32 blocks. -/
def marker (stride : ℕ) (index : UInt32) : Picture UInt8 :=
  .stack blocks fun bit => .stack block fun y => .stack block fun x =>
    let v := shade index bit
    pixel (y * stride + bit * block * 4 + x * 4) v v v 0xff

theorem draws_marker {stride : ℕ} (index : UInt32)
    (hstride : minWidth * 4 ≤ stride) :
    Draws (fun buf => writeMarkerBgra buf stride index)
      (marker stride index) := by
  have hloop : Draws (forRange blocks fun bit =>
      forRange block fun y => forRange block fun x =>
        putPixel (y * stride + bit * block * 4 + x * 4) (shade index bit)
          (shade index bit) (shade index bit) 0xff) (marker stride index) := by
    apply Draws.forRange
    intro bit _
    apply Draws.forRange
    intro y _
    apply Draws.forRange
    intro x _
    apply draws_putPixel
  apply hloop.congr
  intro buf
  rw [writeMarkerBgra, if_neg (Nat.not_lt.mpr hstride)]

/-- A byte of the marker belongs to one pixel of its first rows. -/
theorem cell_of_marker {stride : ℕ} {index : UInt32} {i : ℕ} {shown : UInt8}
    (h : marker stride index i = some shown) :
    ∃ y < block, ∃ col < minWidth, ∃ c < 4,
      i = y * stride + (col * 4 + c) ∧
      shown = channel (shade index (col / block)) (shade index (col / block))
        (shade index (col / block)) 0xff c := by
  obtain ⟨bit, hbit, hblock⟩ := Picture.mem_of_stack h
  obtain ⟨y, hy, hline⟩ := Picture.mem_of_stack hblock
  obtain ⟨x, hx, hpixel⟩ := Picture.mem_of_stack hline
  obtain ⟨c, hc, hdot⟩ := Picture.mem_of_stack hpixel
  obtain ⟨hi, hshown⟩ := eq_of_dot hdot
  unfold block blocks at *
  have hcol : (bit * 8 + x) / 8 = bit := by omega
  refine ⟨y, hy, bit * 8 + x, by unfold minWidth block blocks; omega, c, hc,
    by omega, ?_⟩
  rw [hcol, hshown]

theorem marker_cell {stride y col c : ℕ} (index : UInt32)
    (hstride : minWidth * 4 ≤ stride) (hy : y < block) (hcol : col < minWidth)
    (hc : c < 4) :
    marker stride index (y * stride + (col * 4 + c)) =
      some (channel (shade index (col / block)) (shade index (col / block))
        (shade index (col / block)) 0xff c) := by
  have hbit : col / block < blocks := Nat.div_lt_of_lt_mul hcol
  have hx : col % block < block := Nat.mod_lt col (by decide)
  have hsome : (marker stride index (y * stride + (col * 4 + c))).isSome := by
    apply Picture.isSome_stack hbit
    apply Picture.isSome_stack hy
    apply Picture.isSome_stack hx
    apply Picture.isSome_stack hc
    have haddress : y * stride + (col * 4 + c) =
        y * stride + col / block * block * 4 + col % block * 4 + c := by
      unfold block
      omega
    rw [Picture.dot, if_pos haddress]
    rfl
  obtain ⟨shown, hshown⟩ := Option.isSome_iff_exists.mp hsome
  obtain ⟨y', hy', col', hcol', c', hc', heq, hvalue⟩ := cell_of_marker hshown
  have hunique := @cell_unique stride _ _ _ _ (by omega) (by omega) heq
  have hsame : col = col' ∧ c = c' := by omega
  rw [hshown, hvalue, ← hsame.1, ← hsame.2]

/-- The marker needs its rows, the last of them up to its last block. -/
theorem marker_fits {stride length : ℕ} (index : UInt32)
    (hstride : minWidth * 4 ≤ stride) :
    (marker stride index).Fits length ↔
      (block - 1) * stride + minWidth * 4 ≤ length := by
  constructor
  · intro hfits
    have hlast := @marker_cell stride (block - 1) (minWidth - 1) 3 index
      hstride (by decide) (by decide) (by decide)
    have hrange := hfits _ (by rw [hlast]; rfl)
    unfold minWidth block blocks at *
    omega
  · intro hlength i hi
    obtain ⟨shown, hshown⟩ := Option.isSome_iff_exists.mp hi
    obtain ⟨y, hy, col, hcol, c, hc, rfl, -⟩ := cell_of_marker hshown
    have hrow : y * stride ≤ (block - 1) * stride :=
      Nat.mul_le_mul_right stride (Nat.le_sub_one_of_lt hy)
    omega

/-- The marker is written exactly where the picture has room for it. -/
theorem writeMarkerBgra_eq {stride : ℕ} (buf : Bytes) (index : UInt32)
    (hstride : minWidth * 4 ≤ stride)
    (hlength : (block - 1) * stride + minWidth * 4 ≤ buf.length) :
    writeMarkerBgra buf stride index = some ((marker stride index).lay buf) :=
  (draws_marker index hstride).laid ((marker_fits index hstride).mpr hlength)

end GameStreamer.Pattern
