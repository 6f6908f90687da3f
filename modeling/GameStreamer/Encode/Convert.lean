import Mathlib.Algebra.Order.Group.Nat
import Mathlib.Data.Int.Order.Basic
import Mathlib.Data.List.GetD
import GameStreamer.Core.Raster
import GameStreamer.Encode.Sw

/-!
# Color conversion

The software encoder turns a BGRA picture into the three planes of I420, in
integer arithmetic.  The brightness is computed for each pixel, the color for
the mean of each block of two by two.  The formulas stay within the limited
range, so that the casts to a byte never cut anything off.
-/

namespace GameStreamer.Encode.Convert

open Raster

/-- The channels of the pixel at this byte, in the order blue, green, red. -/
def readPixel (bgra : Bytes) (p : ℕ) : Option (ℤ × ℤ × ℤ) := do
  let b ← bgra[p]?
  let g ← bgra[p + 1]?
  let r ← bgra[p + 2]?
  some (b.toNat, g.toNat, r.toNat)

def luma : ℤ × ℤ × ℤ → ℤ
  | (b, g, r) => ((66 * r + 129 * g + 25 * b + 128) >>> (8 : ℕ)) + 16

def chromaU : ℤ × ℤ × ℤ → ℤ
  | (b, g, r) => ((-38 * r - 74 * g + 112 * b + 128) >>> (8 : ℕ)) + 128

def chromaV : ℤ × ℤ × ℤ → ℤ
  | (b, g, r) => ((112 * r - 94 * g - 18 * b + 128) >>> (8 : ℕ)) + 128

def lumaLoop (bgra : Bytes) (stride width height : ℕ) (yPlane : Bytes) :
    Option Bytes :=
  forRange height (fun row =>
    let src := row * stride
    let dst := row * width
    forRange width fun col yPlane => do
      let pixel ← readPixel bgra (src + col * 4)
      store (dst + col) (UInt8.ofInt (luma pixel)) yPlane) yPlane

/-- The sums of the channels over a block of two by two. -/
def blockSums (bgra : Bytes) (stride cr cc : ℕ) : Option (ℤ × ℤ × ℤ) :=
  forRange 2 (fun dy =>
    forRange 2 fun dx (sb, sg, sr) => do
      let p := (cr * 2 + dy) * stride + (cc * 2 + dx) * 4
      let (b, g, r) ← readPixel bgra p
      some (sb + b, sg + g, sr + r)) (0, 0, 0)

def chromaLoop (bgra : Bytes) (stride width height : ℕ)
    (planes : Bytes × Bytes) : Option (Bytes × Bytes) :=
  forRange (height / 2) (fun cr =>
    forRange (width / 2) fun cc (uPlane, vPlane) => do
      let (sb, sg, sr) ← blockSums bgra stride cr cc
      let mean := (sb.tdiv 4, sg.tdiv 4, sr.tdiv 4)
      let ci := cr * (width / 2) + cc
      let uPlane ← store ci (UInt8.ofInt (chromaU mean)) uPlane
      let vPlane ← store ci (UInt8.ofInt (chromaV mean)) vPlane
      some (uPlane, vPlane)) planes

/-- One contiguous buffer: the Y plane, then U, then V. -/
structure YUVBuffer where
  yuv : Bytes
  width : ℕ
  height : ℕ
  deriving DecidableEq, Repr

/-- `none` is an index out of range.  As in the checks of the encoder, the
product of stride and height is that of an allocated picture and fits a
`usize`. -/
def bgraToI420 (bgra : Bytes) (stride : ℕ) (width height : UInt32) :
    Option (Except EncodeError YUVBuffer) :=
  let w := width.toNat
  let h := height.toNat
  if w % 2 ≠ 0 ∨ h % 2 ≠ 0 then
    some (.error (.oddDimensions width height))
  else if stride < w * 4 ∨ bgra.length < stride * h then
    some (.error .shortBuffer)
  else do
    let yLen := w * h
    let cLen := yLen / 4
    let yPlane ← lumaLoop bgra stride w h (List.replicate yLen 0)
    let (uPlane, vPlane) ← chromaLoop bgra stride w h
      (List.replicate cLen 0, List.replicate cLen 0)
    some (.ok ⟨yPlane ++ uPlane ++ vPlane, w, h⟩)

/-! ## The limited range -/

/-- The channels are bytes. -/
def InRange : ℤ × ℤ × ℤ → Prop
  | (b, g, r) =>
      (0 ≤ b ∧ b ≤ 255) ∧ (0 ≤ g ∧ g ≤ 255) ∧ (0 ≤ r ∧ r ≤ 255)

theorem toNat_ofInt {value : ℤ} (hlow : 0 ≤ value) (hhigh : value ≤ 255) :
    ((UInt8.ofInt value).toNat : ℤ) = value := by
  have hmod : value % 2 ^ 8 = value := Int.emod_eq_of_lt hlow (by omega)
  rw [UInt8.ofInt, hmod, UInt8.toNat_ofNat', Nat.mod_eq_of_lt (by omega),
    Int.toNat_of_nonneg hlow]

theorem shiftRight_eight (value : ℤ) : value >>> (8 : ℕ) = value / 256 :=
  Int.shiftRight_eq_div_pow value 8

theorem luma_range {pixel : ℤ × ℤ × ℤ} (hpixel : InRange pixel) :
    16 ≤ luma pixel ∧ luma pixel ≤ 235 := by
  obtain ⟨b, g, r⟩ := pixel
  obtain ⟨hb, hg, hr⟩ := hpixel
  rw [luma, shiftRight_eight]
  omega

theorem chromaU_range {pixel : ℤ × ℤ × ℤ} (hpixel : InRange pixel) :
    16 ≤ chromaU pixel ∧ chromaU pixel ≤ 240 := by
  obtain ⟨b, g, r⟩ := pixel
  obtain ⟨hb, hg, hr⟩ := hpixel
  rw [chromaU, shiftRight_eight]
  omega

theorem chromaV_range {pixel : ℤ × ℤ × ℤ} (hpixel : InRange pixel) :
    16 ≤ chromaV pixel ∧ chromaV pixel ≤ 240 := by
  obtain ⟨b, g, r⟩ := pixel
  obtain ⟨hb, hg, hr⟩ := hpixel
  rw [chromaV, shiftRight_eight]
  omega

/-- Gray has no color. -/
theorem chroma_gray (level : ℤ) :
    chromaU (level, level, level) = 128 ∧
      chromaV (level, level, level) = 128 := by
  rw [chromaU, chromaV, shiftRight_eight, shiftRight_eight]
  omega

/-! ## The planes -/

section Planes

variable {bgra : Bytes} {stride w h : ℕ}

/-- The picture holds its rows, and the rows hold their pixels. -/
structure Holds (bgra : Bytes) (stride w h : ℕ) : Prop where
  wide : w * 4 ≤ stride
  long : stride * h ≤ bgra.length

def pixelAt (bgra : Bytes) (stride row col : ℕ) : ℤ × ℤ × ℤ :=
  ((bgra.getD (row * stride + col * 4) 0).toNat,
    (bgra.getD (row * stride + col * 4 + 1) 0).toNat,
    (bgra.getD (row * stride + col * 4 + 2) 0).toNat)

theorem pixelAt_inRange (bgra : Bytes) (stride row col : ℕ) :
    InRange (pixelAt bgra stride row col) := by
  have hbyte : ∀ byte : UInt8,
      (0 : ℤ) ≤ byte.toNat ∧ (byte.toNat : ℤ) ≤ 255 := by
    intro byte
    have hlt := byte.toNat_lt
    omega
  exact ⟨hbyte _, hbyte _, hbyte _⟩

theorem Holds.readPixel (hholds : Holds bgra stride w h) {row col : ℕ}
    (hrow : row < h) (hcol : col < w) :
    readPixel bgra (row * stride + col * 4) =
      some (pixelAt bgra stride row col) := by
  have hrange : row * stride + col * 4 + 3 < bgra.length := by
    calc row * stride + col * 4 + 3 < row * stride + w * 4 := by omega
      _ ≤ row * stride + stride := Nat.add_le_add_left hholds.wide _
      _ = stride * (row + 1) := by rw [Nat.mul_succ, Nat.mul_comm]
      _ ≤ stride * h := Nat.mul_le_mul_left stride hrow
      _ ≤ bgra.length := hholds.long
  have hbyte : ∀ i, i < bgra.length →
      bgra[i]? = some (bgra.getD i 0) := by
    intro i hi
    rw [List.getD_eq_getElem _ _ hi, List.getElem?_eq_getElem hi]
  rw [Convert.readPixel, hbyte _ (by omega), hbyte _ (by omega),
    hbyte _ (by omega)]
  rfl

/-- The mean color of a block of two by two. -/
def blockMean (bgra : Bytes) (stride cr cc : ℕ) : ℤ × ℤ × ℤ :=
  let corner dy dx := pixelAt bgra stride (cr * 2 + dy) (cc * 2 + dx)
  let sum := corner 0 0 + corner 0 1 + corner 1 0 + corner 1 1
  (sum.1.tdiv 4, sum.2.1.tdiv 4, sum.2.2.tdiv 4)

theorem tdiv_four_range {a b c d : ℤ} (ha : 0 ≤ a ∧ a ≤ 255)
    (hb : 0 ≤ b ∧ b ≤ 255) (hc : 0 ≤ c ∧ c ≤ 255) (hd : 0 ≤ d ∧ d ≤ 255) :
    0 ≤ (a + b + c + d).tdiv 4 ∧ (a + b + c + d).tdiv 4 ≤ 255 := by
  rw [Int.tdiv_eq_ediv_of_nonneg (by omega)]
  omega

theorem blockMean_inRange (bgra : Bytes) (stride cr cc : ℕ) :
    InRange (blockMean bgra stride cr cc) := by
  have hcorner : ∀ dy dx, InRange
      (pixelAt bgra stride (cr * 2 + dy) (cc * 2 + dx)) :=
    fun _ _ => pixelAt_inRange ..
  have h00 := hcorner 0 0
  have h01 := hcorner 0 1
  have h10 := hcorner 1 0
  have h11 := hcorner 1 1
  exact ⟨tdiv_four_range h00.1 h01.1 h10.1 h11.1,
    tdiv_four_range h00.2.1 h01.2.1 h10.2.1 h11.2.1,
    tdiv_four_range h00.2.2 h01.2.2 h10.2.2 h11.2.2⟩

/-- A block of one gray has that gray for its mean. -/
theorem blockMean_gray {cr cc : ℕ} {level : ℤ}
    (hgray : ∀ dy < 2, ∀ dx < 2,
      pixelAt bgra stride (cr * 2 + dy) (cc * 2 + dx) = (level, level, level)) :
    blockMean bgra stride cr cc = (level, level, level) := by
  have hmean : (level + level + level + level).tdiv 4 = level := by
    have hfour : level + level + level + level = 4 * level := by omega
    rw [hfour, Int.mul_tdiv_cancel_left level (by decide)]
  have h00 := hgray 0 (by decide) 0 (by decide)
  have h01 := hgray 0 (by decide) 1 (by decide)
  have h10 := hgray 1 (by decide) 0 (by decide)
  have h11 := hgray 1 (by decide) 1 (by decide)
  simp only [blockMean, h00, h01, h10, h11, Prod.fst_add, Prod.snd_add, hmean]

theorem Holds.blockSums (hholds : Holds bgra stride w h) {cr cc : ℕ}
    (hcr : cr < h / 2) (hcc : cc < w / 2) :
    ∃ sums, blockSums bgra stride cr cc = some sums ∧
      (sums.1.tdiv 4, sums.2.1.tdiv 4, sums.2.2.tdiv 4) =
        blockMean bgra stride cr cc := by
  have hread : ∀ dy < 2, ∀ dx < 2, Convert.readPixel bgra
      ((cr * 2 + dy) * stride + (cc * 2 + dx) * 4) =
        some (pixelAt bgra stride (cr * 2 + dy) (cc * 2 + dx)) := by
    intro dy hdy dx hdx
    exact hholds.readPixel (by omega) (by omega)
  have h00 := hread 0 (by decide) 0 (by decide)
  have h01 := hread 0 (by decide) 1 (by decide)
  have h10 := hread 1 (by decide) 0 (by decide)
  have h11 := hread 1 (by decide) 1 (by decide)
  rw [Convert.blockSums]
  simp only [forRange_succ, forRange_zero, Option.bind_eq_bind,
    Option.bind_some, h00, h01, h10, h11]
  refine ⟨_, rfl, ?_⟩
  simp only [blockMean, Prod.fst_add, Prod.snd_add, Int.zero_add]

/-- A plane that a loop over its cells has filled. -/
def plane (rows cols length : ℕ) (value : ℕ → ℕ → ℤ) : Bytes :=
  (grid rows cols cols fun row col => UInt8.ofInt (value row col)).lay
    (List.replicate length 0)

@[simp]
theorem length_plane (rows cols length : ℕ) (value : ℕ → ℕ → ℤ) :
    (plane rows cols length value).length = length := by
  rw [plane, Picture.length_lay, List.length_replicate]

theorem forRange_plane {rows cols length : ℕ} {value : ℕ → ℕ → ℤ}
    {body : ℕ → ℕ → Bytes → Option Bytes} (hlength : rows * cols ≤ length)
    (hbody : ∀ row < rows, ∀ col < cols, ∀ buf, body row col buf =
      store (row * cols + col) (UInt8.ofInt (value row col)) buf) :
    forRange rows (fun row => forRange cols fun col => body row col)
      (List.replicate length 0) = some (plane rows cols length value) := by
  apply (draws_grid hbody).laid
  apply grid_fits (le_refl cols)
  rw [List.length_replicate]
  exact hlength

theorem Holds.lumaLoop (hholds : Holds bgra stride w h) :
    lumaLoop bgra stride w h (List.replicate (w * h) 0) =
      some (plane h w (w * h) fun row col =>
        luma (pixelAt bgra stride row col)) := by
  apply forRange_plane (Nat.mul_comm h w).le
  intro row hrow col hcol buf
  rw [hholds.readPixel hrow hcol]
  rfl

/-- The two planes are filled in one loop, as if each had its own. -/
theorem Holds.chromaLoop (hholds : Holds bgra stride w h) {cLen : ℕ}
    (hlength : h / 2 * (w / 2) ≤ cLen) :
    chromaLoop bgra stride w h
        (List.replicate cLen 0, List.replicate cLen 0) =
      some (plane (h / 2) (w / 2) cLen fun cr cc =>
          chromaU (blockMean bgra stride cr cc),
        plane (h / 2) (w / 2) cLen fun cr cc =>
          chromaV (blockMean bgra stride cr cc)) := by
  have hsplit : ∀ cr < h / 2, (forRange (w / 2) fun cc planes => do
      let (sb, sg, sr) ← Convert.blockSums bgra stride cr cc
      let mean := (sb.tdiv 4, sg.tdiv 4, sr.tdiv 4)
      let ci := cr * (w / 2) + cc
      let uPlane ← store ci (UInt8.ofInt (chromaU mean)) planes.1
      let vPlane ← store ci (UInt8.ofInt (chromaV mean)) planes.2
      some (uPlane, vPlane)) =
      both (forRange (w / 2) fun cc => store (cr * (w / 2) + cc)
          (UInt8.ofInt (chromaU (blockMean bgra stride cr cc))))
        (forRange (w / 2) fun cc => store (cr * (w / 2) + cc)
          (UInt8.ofInt (chromaV (blockMean bgra stride cr cc)))) := by
    intro cr hcr
    rw [← forRange_both]
    apply forRange_congr
    intro cc hcc
    obtain ⟨sums, hsums, hmean⟩ := hholds.blockSums hcr hcc
    funext planes
    rw [hsums, ← hmean]
    rfl
  have hloop := forRange_congr hsplit
  rw [forRange_both] at hloop
  have hrun := congrFun hloop (List.replicate cLen 0, List.replicate cLen 0)
  rw [both, forRange_plane hlength fun _ _ _ _ _ => rfl,
    forRange_plane hlength fun _ _ _ _ _ => rfl] at hrun
  exact hrun

/-- A byte that shows this value, uncut. -/
def Shows (buf : Bytes) (i : ℕ) (value : ℤ) : Prop :=
  ∃ byte, buf[i]? = some byte ∧ (byte.toNat : ℤ) = value

theorem shows_plane {rows cols length row col : ℕ} {value : ℕ → ℕ → ℤ}
    (hbyte : ∀ row col, 0 ≤ value row col ∧ value row col ≤ 255)
    (hlength : rows * cols ≤ length) (hrow : row < rows) (hcol : col < cols) :
    Shows (plane rows cols length value) (row * cols + col)
      (value row col) := by
  have hfits := @grid_fits _ rows cols cols length
    (fun row col => UInt8.ofInt (value row col)) (le_refl cols) hlength
  have hcell := @grid_cell _ rows cols cols row col
    (fun row col => UInt8.ofInt (value row col)) (le_refl cols) hrow hcol
  have hrange := hfits _ (by rw [hcell]; rfl)
  refine ⟨_, Picture.getElem?_lay_of_some hcell ?_, ?_⟩
  · rw [List.length_replicate]
    exact hrange
  · exact toNat_ofInt (hbyte row col).1 (hbyte row col).2

/-- Every byte of a plane without a gap comes from a cell. -/
theorem mem_plane {rows cols length : ℕ} {value : ℕ → ℕ → ℤ} {byte : UInt8}
    (hbyte : ∀ row col, 0 ≤ value row col ∧ value row col ≤ 255)
    (hlength : rows * cols = length)
    (hmem : byte ∈ plane rows cols length value) :
    ∃ row col, (byte.toNat : ℤ) = value row col := by
  obtain ⟨i, hi⟩ := List.mem_iff_getElem?.mp hmem
  have hrange := (List.getElem?_eq_some_iff.mp hi).1
  rw [length_plane, ← hlength] at hrange
  have hcols : 0 < cols := Nat.pos_of_lt_mul_left hrange
  have hcell := shows_plane hbyte hlength.le (Nat.div_lt_of_lt_mul
    (Nat.mul_comm rows cols ▸ hrange)) (Nat.mod_lt i hcols)
  rw [Nat.mul_comm, Nat.div_add_mod] at hcell
  obtain ⟨shown, hshown, hvalue⟩ := hcell
  rw [hi, Option.some_inj] at hshown
  exact ⟨i / cols, i % cols, hshown ▸ hvalue⟩

/-- The planes are those of the picture, and nothing is missing: every sample
is the value of its formula, which is within the limited range. -/
structure Converted (bgra : Bytes) (stride w h : ℕ) (out : YUVBuffer) :
    Prop where
  size : out.yuv.length = w * h + 2 * (w * h / 4)
  luma : ∀ row < h, ∀ col < w,
    Shows out.yuv (row * w + col) (luma (pixelAt bgra stride row col))
  u : ∀ cr < h / 2, ∀ cc < w / 2,
    Shows out.yuv (w * h + (cr * (w / 2) + cc))
      (chromaU (blockMean bgra stride cr cc))
  v : ∀ cr < h / 2, ∀ cc < w / 2,
    Shows out.yuv (w * h + w * h / 4 + (cr * (w / 2) + cc))
      (chromaV (blockMean bgra stride cr cc))

theorem Shows.append_left {buf : Bytes} {i : ℕ} {value : ℤ}
    (hshows : Shows buf i value) (rest : Bytes) :
    Shows (buf ++ rest) i value := by
  obtain ⟨byte, hbyte, hvalue⟩ := hshows
  have hrange := (List.getElem?_eq_some_iff.mp hbyte).1
  exact ⟨byte, (List.getElem?_append_left hrange).trans hbyte, hvalue⟩

theorem Shows.append_right {buf : Bytes} {i : ℕ} {value : ℤ}
    (hshows : Shows buf i value) {front : Bytes} {length : ℕ}
    (hlength : front.length = length) :
    Shows (front ++ buf) (length + i) value := by
  obtain ⟨byte, hbyte, hvalue⟩ := hshows
  refine ⟨byte, ?_, hvalue⟩
  rw [List.getElem?_append_right (hlength ▸ Nat.le_add_right ..), hlength,
    Nat.add_sub_cancel_left, hbyte]

/-- The blocks of two by two of a plane of even sides. -/
theorem blocks_eq (heven : w % 2 = 0 ∧ h % 2 = 0) :
    h / 2 * (w / 2) = w * h / 4 := by
  obtain ⟨a, rfl⟩ := Nat.dvd_of_mod_eq_zero heven.1
  obtain ⟨b, rfl⟩ := Nat.dvd_of_mod_eq_zero heven.2
  have hfour : 2 * a * (2 * b) = 4 * (b * a) := by
    rw [Nat.mul_mul_mul_comm, Nat.mul_comm a b]
  rw [hfour, Nat.mul_div_cancel_left _ (by decide),
    Nat.mul_div_cancel_left _ (by decide),
    Nat.mul_div_cancel_left _ (by decide)]

end Planes

/-- The checks of the encoder are those of the conversion. -/
theorem bgraToI420_error {bgra : Bytes} {stride : ℕ} {width height : UInt32}
    {error : EncodeError}
    (hchecks : Sw.bgraToI420 bgra stride width height = .error error) :
    bgraToI420 bgra stride width height = some (.error error) := by
  rw [Sw.bgraToI420] at hchecks
  rw [bgraToI420]
  split at hchecks
  · rename_i hodd
    rw [if_pos hodd]
    cases hchecks
    rfl
  · rename_i hodd
    rw [if_neg hodd]
    split at hchecks
    · rename_i hshort
      rw [if_pos hshort]
      cases hchecks
      rfl
    · cases hchecks

/-- The three planes of a picture. -/
def planes (bgra : Bytes) (stride w h : ℕ) : YUVBuffer :=
  ⟨(plane h w (w * h) fun row col => luma (pixelAt bgra stride row col)) ++
      (plane (h / 2) (w / 2) (w * h / 4) fun cr cc =>
        chromaU (blockMean bgra stride cr cc)) ++
      (plane (h / 2) (w / 2) (w * h / 4) fun cr cc =>
        chromaV (blockMean bgra stride cr cc)), w, h⟩

theorem byte_of_range {low high value : ℤ} (hvalue : low ≤ value ∧ value ≤ high)
    (hlow : 0 ≤ low) (hhigh : high ≤ 255) : 0 ≤ value ∧ value ≤ 255 :=
  ⟨hlow.trans hvalue.1, hvalue.2.trans hhigh⟩

section Bytes

variable (bgra : Bytes) (stride : ℕ)

theorem luma_byte (row col : ℕ) :
    0 ≤ luma (pixelAt bgra stride row col) ∧
      luma (pixelAt bgra stride row col) ≤ 255 :=
  byte_of_range (luma_range (pixelAt_inRange ..)) (by decide) (by decide)

theorem chromaU_byte (cr cc : ℕ) :
    0 ≤ chromaU (blockMean bgra stride cr cc) ∧
      chromaU (blockMean bgra stride cr cc) ≤ 255 :=
  byte_of_range (chromaU_range (blockMean_inRange ..)) (by decide) (by decide)

theorem chromaV_byte (cr cc : ℕ) :
    0 ≤ chromaV (blockMean bgra stride cr cc) ∧
      chromaV (blockMean bgra stride cr cc) ≤ 255 :=
  byte_of_range (chromaV_range (blockMean_inRange ..)) (by decide) (by decide)

theorem planes_converted {w h : ℕ} (heven : w % 2 = 0 ∧ h % 2 = 0) :
    Converted bgra stride w h (planes bgra stride w h) := by
  have hblocks := (blocks_eq heven).le
  constructor
  · simp only [planes, List.length_append, length_plane]
    omega
  · intro row hrow col hcol
    apply Shows.append_left
    apply Shows.append_left
    exact shows_plane (luma_byte bgra stride) (Nat.mul_comm h w).le hrow hcol
  · intro cr hcr cc hcc
    apply Shows.append_left
    apply Shows.append_right
      (shows_plane (chromaU_byte bgra stride) hblocks hcr hcc)
    exact length_plane ..
  · intro cr hcr cc hcc
    apply Shows.append_right
      (shows_plane (chromaV_byte bgra stride) hblocks hcr hcc)
    rw [List.length_append, length_plane, length_plane]

/-- The codes outside of the limited range are never used. -/
theorem planes_limited {w h : ℕ} (heven : w % 2 = 0 ∧ h % 2 = 0)
    {byte : UInt8} (hmem : byte ∈ (planes bgra stride w h).yuv) :
    16 ≤ byte.toNat ∧ byte.toNat ≤ 240 := by
  have hblocks := blocks_eq heven
  have hcell : ∃ value : ℤ, (byte.toNat : ℤ) = value ∧
      16 ≤ value ∧ value ≤ 240 := by
    rcases List.mem_append.mp hmem with hfront | hv
    · rcases List.mem_append.mp hfront with hy | hu
      · obtain ⟨row, col, hvalue⟩ :=
          mem_plane (luma_byte bgra stride) (Nat.mul_comm h w) hy
        have hrange := luma_range (pixelAt_inRange bgra stride row col)
        exact ⟨_, hvalue, hrange.1, hrange.2.trans (by decide)⟩
      · obtain ⟨cr, cc, hvalue⟩ :=
          mem_plane (chromaU_byte bgra stride) hblocks hu
        exact ⟨_, hvalue, chromaU_range (blockMean_inRange ..)⟩
    · obtain ⟨cr, cc, hvalue⟩ :=
        mem_plane (chromaV_byte bgra stride) hblocks hv
      exact ⟨_, hvalue, chromaV_range (blockMean_inRange ..)⟩
  omega

end Bytes

theorem holds_of_checks {bgra : Bytes} {stride : ℕ} {width height : UInt32}
    (hchecks : Sw.bgraToI420 bgra stride width height = .ok ()) :
    (width.toNat % 2 = 0 ∧ height.toNat % 2 = 0) ∧
      Holds bgra stride width.toNat height.toNat := by
  rw [Sw.bgraToI420] at hchecks
  split at hchecks
  · cases hchecks
  split at hchecks
  · cases hchecks
  rename_i hodd hshort
  rw [not_or, not_not, not_not] at hodd
  rw [not_or, Nat.not_lt, Nat.not_lt] at hshort
  exact ⟨hodd, hshort.1, hshort.2⟩

/-- The conversion of a picture that passes the checks. -/
theorem bgraToI420_eq {bgra : Bytes} {stride : ℕ} {width height : UInt32}
    (hchecks : Sw.bgraToI420 bgra stride width height = .ok ()) :
    bgraToI420 bgra stride width height =
      some (.ok (planes bgra stride width.toNat height.toNat)) := by
  obtain ⟨heven, hholds⟩ := holds_of_checks hchecks
  have hodd : ¬(width.toNat % 2 ≠ 0 ∨ height.toNat % 2 ≠ 0) :=
    not_or.mpr ⟨not_not_intro heven.1, not_not_intro heven.2⟩
  have hshort : ¬(stride < width.toNat * 4 ∨
      bgra.length < stride * height.toNat) :=
    not_or.mpr ⟨Nat.not_lt.mpr hholds.wide, Nat.not_lt.mpr hholds.long⟩
  rw [bgraToI420, if_neg hodd, if_neg hshort]
  dsimp only
  rw [hholds.lumaLoop, Option.bind_eq_bind, Option.bind_some,
    hholds.chromaLoop (blocks_eq heven).le]
  rfl

/-- The conversion never runs out of a buffer.  It refuses what the checks
refuse, and from every other picture it makes three full planes: each byte
is the value of its formula, uncut, and within the limited range. -/
theorem bgraToI420_limited (bgra : Bytes) (stride : ℕ)
    (width height : UInt32) :
    match Sw.bgraToI420 bgra stride width height with
    | .error error =>
        bgraToI420 bgra stride width height = some (.error error)
    | .ok () =>
        ∃ out, bgraToI420 bgra stride width height = some (.ok out) ∧
          Converted bgra stride width.toNat height.toNat out ∧
          ∀ byte ∈ out.yuv, 16 ≤ byte.toNat ∧ byte.toNat ≤ 240 := by
  cases hchecks : Sw.bgraToI420 bgra stride width height with
  | error error => exact bgraToI420_error hchecks
  | ok accepted =>
      have heven := (holds_of_checks hchecks).1
      refine ⟨_, bgraToI420_eq hchecks, planes_converted bgra stride heven, ?_⟩
      intro byte hmem
      exact planes_limited bgra stride heven hmem

end GameStreamer.Encode.Convert
