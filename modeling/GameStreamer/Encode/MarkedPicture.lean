import GameStreamer.Encode.Convert
import GameStreamer.Video.Pattern

/-!
# A marked picture on its way to the client

A picture is marked, converted to I420, encoded, sent and decoded, and the
client reads the marker out of the luma plane.  The codec is lossy.  The marker
survives it as long as no sample of the luma is off by more than 106 of the
219 steps between black and white.
-/

open GameStreamer.Raster GameStreamer.Pattern GameStreamer.Encode.Convert

namespace GameStreamer.Encode

section Marked

variable {buf : Bytes} {stride w h : ℕ} {index : UInt32}

/-- The gray of a marker's pixel. -/
def gray (index : UInt32) (col : ℕ) : ℤ := (shade index (col / block)).toNat

theorem Convert.Holds.marker_room (hholds : Holds buf stride w h)
    (hwide : minWidth ≤ w) (hhigh : block ≤ h) :
    minWidth * 4 ≤ stride ∧
      (block - 1) * stride + minWidth * 4 ≤ buf.length := by
  have hstride : minWidth * 4 ≤ stride :=
    (Nat.mul_le_mul_right 4 hwide).trans hholds.wide
  refine ⟨hstride, ?_⟩
  calc (block - 1) * stride + minWidth * 4
      ≤ (block - 1) * stride + stride := Nat.add_le_add_left hstride _
    _ = stride * block := by unfold block; omega
    _ ≤ stride * h := Nat.mul_le_mul_left stride hhigh
    _ ≤ buf.length := hholds.long

theorem getD_marker {row col c : ℕ} (hstride : minWidth * 4 ≤ stride)
    (hlength : (block - 1) * stride + minWidth * 4 ≤ buf.length)
    (hrow : row < block) (hcol : col < minWidth) (hc : c < 3) :
    ((marker stride index).lay buf).getD (row * stride + (col * 4 + c)) 0 =
      shade index (col / block) := by
  have hcell := @marker_cell stride row col c index hstride hrow hcol
    (Nat.lt_succ_of_lt hc)
  have hrange := (marker_fits index hstride).mpr hlength _
    (by rw [hcell]; rfl)
  rw [List.getD_eq_getElem?_getD, Picture.getElem?_lay_of_some hcell hrange,
    Option.getD_some]
  have hchannel : c = 0 ∨ c = 1 ∨ c = 2 := by omega
  rcases hchannel with rfl | rfl | rfl <;> rfl

theorem pixelAt_marker {row col : ℕ} (hstride : minWidth * 4 ≤ stride)
    (hlength : (block - 1) * stride + minWidth * 4 ≤ buf.length)
    (hrow : row < block) (hcol : col < minWidth) :
    pixelAt ((marker stride index).lay buf) stride row col =
      (gray index col, gray index col, gray index col) := by
  have hbyte := fun c hc =>
    @getD_marker buf stride index row col c hstride hlength hrow hcol hc
  rw [pixelAt, Nat.add_assoc, Nat.add_assoc, hbyte 1 (by decide),
    hbyte 2 (by decide), ← Nat.add_zero (col * 4), hbyte 0 (by decide)]
  rfl

/-- White and black in the limited range. -/
theorem luma_gray (index : UInt32) (col : ℕ) :
    luma (gray index col, gray index col, gray index col) =
      if isOn index (col / block) then 235 else 16 := by
  rw [gray, shade]
  split <;> rfl

theorem sampled_of_near {decoded : Bytes} {sampleAt : ℕ → ℕ} {bit : ℕ}
    {sample : UInt8} {level : ℤ} (hsample : decoded[sampleAt bit]? = some sample)
    (hlevel : level = if isOn index bit then 235 else 16)
    (hnear : level - 106 ≤ sample.toNat ∧ sample.toNat ≤ level + 106) :
    Sampled decoded sampleAt index bit := by
  refine ⟨sample, hsample, ?_⟩
  rw [gt_iff_lt, UInt8.lt_iff_toNat_lt]
  change 128 < sample.toNat ↔ _
  cases hon : isOn index bit with
  | true =>
      rw [hon, if_pos rfl] at hlevel
      exact iff_of_true (by omega) rfl
  | false =>
      rw [hon, if_neg Bool.false_ne_true] at hlevel
      exact iff_of_false (by omega) Bool.false_ne_true

/-- A plane, of any stride, whose samples are this near to those of the
picture. -/
def Near (tolerance : ℤ) (decoded : Bytes) (decodedStride : ℕ) (w h : ℕ)
    (level : ℕ → ℕ → ℤ) : Prop :=
  ∀ row < h, ∀ col < w, ∃ sample : UInt8,
    decoded[row * decodedStride + col]? = some sample ∧
      level row col - tolerance ≤ sample.toNat ∧
      sample.toNat ≤ level row col + tolerance

/-- The centre of a block is a pixel of the block. -/
theorem centre {bit : ℕ} (hbit : bit < blocks) :
    bit * block + block / 2 < minWidth ∧
      (bit * block + block / 2) / block = bit := by
  unfold minWidth
  unfold blocks block at *
  omega

/-- A plane near enough to the luma of a marked picture reads as its index. -/
theorem readMarkerLuma_near (hholds : Holds buf stride w h)
    (hwide : minWidth ≤ w) (hhigh : block ≤ h) {decoded : Bytes}
    {decodedStride : ℕ} (hdecoded : w ≤ decodedStride)
    (hnear : Near 106 decoded decodedStride w h fun row col =>
      luma (pixelAt ((marker stride index).lay buf) stride row col)) :
    readMarkerLuma decoded decodedStride w = some index := by
  have hroom := hholds.marker_room hwide hhigh
  rw [readMarkerLuma, if_neg (not_or.mpr ⟨Nat.not_lt.mpr hwide,
    Nat.not_lt.mpr hdecoded⟩)]
  apply readBlocks_eq
  intro bit hbit
  obtain ⟨hcx, hblock⟩ := centre hbit
  obtain ⟨sample, hsample, hbounds⟩ := hnear (block / 2)
    (Nat.lt_of_lt_of_le (by decide) hhigh) _ (Nat.lt_of_lt_of_le hcx hwide)
  have hlevel : luma (pixelAt ((marker stride index).lay buf) stride
      (block / 2) (bit * block + block / 2)) =
      if isOn index bit then 235 else 16 := by
    rw [pixelAt_marker hroom.1 hroom.2 (by decide) hcx, luma_gray, hblock]
  exact sampled_of_near hsample hlevel hbounds

/-- The packed picture itself reads as its index. -/
theorem readMarkerRgba_marker (hholds : Holds buf (w * 4) w h)
    (hwide : minWidth ≤ w) (hhigh : block ≤ h) :
    readMarkerRgba ((marker (w * 4) index).lay buf) w = some index := by
  have hroom := hholds.marker_room hwide hhigh
  rw [readMarkerRgba, if_neg (Nat.not_lt.mpr hwide)]
  apply readBlocks_eq
  intro bit hbit
  obtain ⟨hcx, hblock⟩ := centre hbit
  have hcell := @marker_cell (w * 4) (block / 2) (bit * block + block / 2) 1
    index hroom.1 (by decide) hcx (by decide)
  have hrange := (marker_fits index hroom.1).mpr hroom.2 _
    (by rw [hcell]; rfl)
  have haddress : (block / 2 * w + (bit * block + block / 2)) * 4 + 1 =
      block / 2 * (w * 4) + ((bit * block + block / 2) * 4 + 1) := by
    rw [Nat.add_mul, Nat.mul_assoc, Nat.add_assoc]
  refine ⟨shade index bit, ?_, ?_⟩
  · dsimp only
    rw [haddress, Picture.getElem?_lay_of_some hcell hrange, hblock]
    rfl
  · rw [shade]
    cases isOn index bit <;> decide

/-- The marker has no color. -/
theorem chroma_marker (hholds : Holds buf stride w h) (hwide : minWidth ≤ w)
    (hhigh : block ≤ h) {cr cc : ℕ} (hcr : cr < block / 2)
    (hcc : cc < minWidth / 2) :
    chromaU (blockMean ((marker stride index).lay buf) stride cr cc) = 128 ∧
      chromaV (blockMean ((marker stride index).lay buf) stride cr cc) =
        128 := by
  have hroom := hholds.marker_room hwide hhigh
  have hmean : blockMean ((marker stride index).lay buf) stride cr cc =
      (gray index (cc * 2), gray index (cc * 2), gray index (cc * 2)) := by
    apply blockMean_gray
    intro dy hdy dx hdx
    have hblock : (cc * 2 + dx) / block = cc * 2 / block := by
      unfold block
      omega
    unfold block at hcr
    rw [pixelAt_marker hroom.1 hroom.2 (by unfold block; omega) (by omega),
      gray, hblock]
    rfl
  rw [hmean]
  exact chroma_gray _

/-- A marked picture that an encoder accepts is converted with its marker: the
blocks have no color, and every plane near enough to the luma of the picture
reads as the index. -/
theorem readMarkerLuma_decoded (buf : Bytes) (stride : ℕ)
    (width height : UInt32) (index : UInt32)
    (hchecks : Sw.bgraToI420 buf stride width height = .ok ())
    (hwide : minWidth ≤ width.toNat) (hhigh : block ≤ height.toNat) :
    ∃ marked out, writeMarkerBgra buf stride index = some marked ∧
      bgraToI420 marked stride width height = some (.ok out) ∧
      Converted marked stride width.toNat height.toNat out ∧
      (∀ cr < block / 2, ∀ cc < minWidth / 2,
        chromaU (blockMean marked stride cr cc) = 128 ∧
          chromaV (blockMean marked stride cr cc) = 128) ∧
      ∀ decoded decodedStride, width.toNat ≤ decodedStride →
        Near 106 decoded decodedStride width.toNat height.toNat
          (fun row col => luma (pixelAt marked stride row col)) →
        readMarkerLuma decoded decodedStride width.toNat = some index := by
  obtain ⟨heven, hholds⟩ := holds_of_checks hchecks
  have hroom := hholds.marker_room hwide hhigh
  have hmarked : Sw.bgraToI420 ((marker stride index).lay buf) stride width
      height = .ok () := by
    rw [← hchecks, Sw.bgraToI420, Sw.bgraToI420, Picture.length_lay]
  refine ⟨_, _, writeMarkerBgra_eq buf index hroom.1 hroom.2,
    bgraToI420_eq hmarked, planes_converted _ stride heven, ?_, ?_⟩
  · intro cr hcr cc hcc
    exact chroma_marker hholds hwide hhigh hcr hcc
  · intro decoded decodedStride hdecoded hnear
    exact readMarkerLuma_near hholds hwide hhigh hdecoded hnear

end Marked

theorem readMarkerLuma_decoded_black :
    ∃ marked, writeMarkerBgra (List.replicate 8192 0) 1024 0xdeadbeef =
        some marked ∧
      ∀ decoded, Near 106 decoded 256 256 8
          (fun row col => luma (pixelAt marked 1024 row col)) →
        readMarkerLuma decoded 256 256 = some 0xdeadbeef := by
  have hchecks : Sw.bgraToI420 (List.replicate 8192 0) 1024 256 8 =
      .ok () := by
    rw [Sw.bgraToI420, List.length_replicate]
    rfl
  obtain ⟨marked, out, hmarked, -, -, -, hread⟩ :=
    readMarkerLuma_decoded (List.replicate 8192 0) 1024 256 8 0xdeadbeef
      hchecks (by decide) (by decide)
  exact ⟨marked, hmarked, fun decoded => hread decoded 256 (le_refl _)⟩

end GameStreamer.Encode
