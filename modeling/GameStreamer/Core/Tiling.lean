import Mathlib.Algebra.BigOperators.Group.List.Basic
import Mathlib.Algebra.GroupWithZero.Nat
import Mathlib.Data.List.GetD
import Mathlib.Data.List.TakeDrop

/-!
# Slices, tilings and writes

A list cut into consecutive slices is read back slice by slice, and a list
built slice by slice has each slice at its place.  Writes at listed places
leave every other place alone.  Cutting a list into chunks of one size and
splicing values into it are treated in the same way.
-/

namespace GameStreamer.Tiling

variable {α β κ : Type*}

/-- The elements at `start..start + len`. -/
def slice (start len : ℕ) (l : List α) : List α := (l.drop start).take len

theorem length_slice {start len : ℕ} {l : List α}
    (h : start + len ≤ l.length) : (slice start len l).length = len := by
  rw [slice, List.length_take, List.length_drop]
  omega

theorem mem_of_mem_slice {start len : ℕ} {l : List α} {a : α}
    (h : a ∈ slice start len l) : a ∈ l :=
  List.mem_of_mem_drop (List.mem_of_mem_take h)

theorem getElem?_slice {start len i : ℕ} (l : List α) (h : i < len) :
    (slice start len l)[i]? = l[start + i]? := by
  rw [slice, List.getElem?_take_of_lt h, List.getElem?_drop]

theorem slice_append_left {start len : ℕ} {l : List α} (l' : List α)
    (h : start + len ≤ l.length) :
    slice start len (l ++ l') = slice start len l := by
  rw [slice, slice, List.drop_append_of_le_length (by omega),
    List.take_append_of_le_length (by rw [List.length_drop]; omega)]

theorem slice_congr {start len : ℕ} {l l' : List α}
    (h : ∀ i, start ≤ i → i < start + len → l[i]? = l'[i]?) :
    slice start len l = slice start len l' := by
  apply List.ext_getElem?
  intro i
  rcases Nat.lt_or_ge i len with hlt | hge
  · rw [getElem?_slice l hlt, getElem?_slice l' hlt]
    exact h _ (Nat.le_add_right _ _) (Nat.add_lt_add_left hlt _)
  · rw [slice, slice, List.getElem?_take, List.getElem?_take,
      if_neg (Nat.not_lt.mpr hge), if_neg (Nat.not_lt.mpr hge)]

/-- The pieces, given by where each starts and how long it is, follow one
another from `first` to `last`. -/
inductive Tiles (start len : κ → ℕ) : ℕ → List κ → ℕ → Prop
  | nil (first : ℕ) : Tiles start len first [] first
  | cons {piece : κ} {pieces : List κ} {last : ℕ}
      (rest : Tiles start len (start piece + len piece) pieces last) :
      Tiles start len (start piece) (piece :: pieces) last

namespace Tiles

variable {start len : κ → ℕ} {first last : ℕ} {pieces : List κ}

theorem le (h : Tiles start len first pieces last) : first ≤ last := by
  induction h with
  | nil first => exact Nat.le_refl _
  | cons rest ih => exact Nat.le_trans (Nat.le_add_right _ _) ih

/-- Every piece lies within the range. -/
theorem bounds (h : Tiles start len first pieces last) {piece : κ}
    (hmem : piece ∈ pieces) :
    first ≤ start piece ∧ start piece + len piece ≤ last := by
  induction h with
  | nil first => cases hmem
  | cons rest ih =>
      rcases List.mem_cons.mp hmem with rfl | htail
      · exact ⟨Nat.le_refl _, rest.le⟩
      · obtain ⟨hfirst, hlast⟩ := ih htail
        exact ⟨Nat.le_trans (Nat.le_add_right _ _) hfirst, hlast⟩

theorem sum_len (h : Tiles start len first pieces last) :
    first + (pieces.map len).sum = last := by
  induction h with
  | nil first => rfl
  | cons rest ih => rw [List.map_cons, List.sum_cons, ← Nat.add_assoc, ih]

/-- A list is the concatenation of its slices. -/
theorem flatMap_slice (h : Tiles start len first pieces last) (l : List α) :
    pieces.flatMap (fun piece => slice (start piece) (len piece) l) =
      slice first (last - first) l := by
  induction h with
  | nil first => simp [slice]
  | @cons piece pieces last rest ih =>
      have hle := rest.le
      have hsplit : last - start piece =
          len piece + (last - (start piece + len piece)) := by omega
      rw [List.flatMap_cons, ih, hsplit, slice, slice, slice, List.take_add,
        List.drop_drop]

/-- How many elements satisfy `p` is summed piece by piece. -/
theorem countP_slice (h : Tiles start len first pieces last) (p : α → Bool)
    (l : List α) :
    (pieces.map fun piece =>
      (slice (start piece) (len piece) l).countP p).sum =
      (slice first (last - first) l).countP p := by
  rw [← h.flatMap_slice l, List.countP_flatMap]
  rfl

variable {f : κ → List α}

theorem length_flatMap (h : Tiles start len first pieces last)
    (hlen : ∀ piece ∈ pieces, (f piece).length = len piece) :
    first + (pieces.flatMap f).length = last := by
  have hmap : pieces.map (fun piece => (f piece).length) = pieces.map len :=
    List.map_congr_left hlen
  rw [List.length_flatMap, hmap, h.sum_len]

/-- A list built from pieces of the right lengths has each at its place. -/
theorem slice_flatMap (h : Tiles start len first pieces last)
    (hlen : ∀ piece ∈ pieces, (f piece).length = len piece) {piece : κ}
    (hmem : piece ∈ pieces) (front : List α) (hfront : front.length = first) :
    slice (start piece) (len piece) (front ++ pieces.flatMap f) =
      f piece := by
  induction h generalizing front with
  | nil first => cases hmem
  | @cons head pieces last rest ih =>
      have hhead := hlen head List.mem_cons_self
      rcases List.mem_cons.mp hmem with rfl | htail
      · rw [slice, List.drop_left' hfront, List.flatMap_cons,
          List.take_left' hhead]
      · rw [List.flatMap_cons, ← List.append_assoc]
        apply ih (fun p hp => hlen p (List.mem_cons_of_mem _ hp)) htail
        rw [List.length_append, hfront, hhead]

/-- Numbering each piece from its place numbers the whole. -/
theorem zipIdx_flatMap (h : Tiles start len first pieces last)
    (hlen : ∀ piece ∈ pieces, (f piece).length = len piece) :
    pieces.flatMap (fun piece => (f piece).zipIdx (start piece)) =
      (pieces.flatMap f).zipIdx first := by
  induction h with
  | nil first => rfl
  | @cons head pieces last rest ih =>
      rw [List.flatMap_cons, List.flatMap_cons, List.zipIdx_append,
        hlen head List.mem_cons_self,
        ih fun p hp => hlen p (List.mem_cons_of_mem _ hp)]

end Tiles

/-- Numbered pieces that follow one another are a tiling. -/
theorem tiles_range' (start len : ℕ → ℕ)
    (hstep : ∀ i, start i + len i = start (i + 1)) (first count : ℕ) :
    Tiles start len (start first) (List.range' first count)
      (start (first + count)) := by
  induction count generalizing first with
  | zero => exact Tiles.nil _
  | succ count ih =>
      have hrest := ih (first + 1)
      rw [← hstep first, Nat.add_right_comm] at hrest
      exact Tiles.cons hrest

/-! ## Chunks -/

/-- `div_ceil`. -/
def divCeil (a b : ℕ) : ℕ := if a % b = 0 then a / b else a / b + 1

theorem divCeil_le_iff {a b c : ℕ} (hb : 0 < b) :
    divCeil a b ≤ c ↔ a ≤ c * b := by
  rw [divCeil]
  split_ifs with hrem
  · obtain ⟨q, rfl⟩ := Nat.dvd_of_mod_eq_zero hrem
    rw [Nat.mul_div_cancel_left q hb, Nat.mul_comm b q]
    exact (Nat.mul_le_mul_right_iff hb).symm
  · have hne : a ≠ c * b := by
      rintro rfl
      exact hrem (Nat.mul_mod_left c b)
    rw [Nat.add_one_le_iff, Nat.div_lt_iff_lt_mul hb]
    omega

theorem le_divCeil_mul (a : ℕ) {b : ℕ} (hb : 0 < b) : a ≤ divCeil a b * b :=
  (divCeil_le_iff hb).mp (Nat.le_refl _)

/-- `chunks(size)`: every chunk has `size` elements, but the last may have
fewer. -/
def chunks (size : ℕ) (l : List α) : List (List α) :=
  (List.range (divCeil l.length size)).map fun i => slice (i * size) size l

theorem length_chunks (size : ℕ) (l : List α) :
    (chunks size l).length = divCeil l.length size := by
  rw [chunks, List.length_map, List.length_range]

theorem lt_divCeil_iff {a b c : ℕ} (hb : 0 < b) :
    c < divCeil a b ↔ c * b < a := by
  have hle := divCeil_le_iff (a := a) (c := c) hb
  omega

/-- No chunk is longer than `size` or than the whole. -/
theorem length_mem_chunks {size : ℕ} {l chunk : List α}
    (h : chunk ∈ chunks size l) : chunk.length ≤ min l.length size := by
  obtain ⟨i, -, rfl⟩ := List.mem_map.mp h
  rw [slice, List.length_take, List.length_drop]
  omega

/-- Only the last chunk may be short. -/
theorem length_mem_dropLast_chunks {size : ℕ} {l chunk : List α}
    (hsize : 0 < size) (h : chunk ∈ (chunks size l).dropLast) :
    chunk.length = min l.length size := by
  obtain ⟨i, hi, rfl⟩ := List.mem_iff_getElem.mp h
  rw [List.length_dropLast, length_chunks] at hi
  have hnext := (lt_divCeil_iff hsize).mp (show i + 1 < divCeil l.length size
    by omega)
  rw [Nat.succ_mul] at hnext
  simp only [List.getElem_dropLast, chunks, List.getElem_map,
    List.getElem_range]
  rw [length_slice (by omega)]
  omega

theorem flatten_chunks {size : ℕ} (hsize : 0 < size) (l : List α) :
    (chunks size l).flatten = l := by
  have htiles := tiles_range' (· * size) (fun _ => size)
    (fun i => (Nat.succ_mul i size).symm) 0 (divCeil l.length size)
  have hall := htiles.flatMap_slice l
  rw [← List.range_eq_range', Nat.zero_mul, Nat.zero_add, Nat.sub_zero,
    slice, List.drop_zero, List.take_of_length_le (le_divCeil_mul _ hsize)]
    at hall
  rwa [chunks, ← List.flatMap_def]

/-! ## Writes -/

/-- `values` written from `start` on. -/
def splice (start : ℕ) (values l : List α) : List α :=
  l.take start ++ values ++ l.drop (start + values.length)

theorem length_splice {start : ℕ} {values l : List α}
    (h : start + values.length ≤ l.length) :
    (splice start values l).length = l.length := by
  simp only [splice, List.length_append, List.length_take, List.length_drop]
  omega

theorem getElem?_splice_inside {start i : ℕ} {values l : List α}
    (h : start + values.length ≤ l.length) (hi : i < values.length) :
    (splice start values l)[start + i]? = values[i]? := by
  have htake : (l.take start).length = start :=
    List.length_take_of_le (by omega)
  rw [splice, List.append_assoc, List.getElem?_append_right (by omega), htake,
    Nat.add_sub_cancel_left, List.getElem?_append_left hi]

theorem getElem?_splice_outside {start i : ℕ} {values l : List α}
    (h : start + values.length ≤ l.length)
    (hi : i < start ∨ start + values.length ≤ i) :
    (splice start values l)[i]? = l[i]? := by
  have htake : (l.take start).length = start :=
    List.length_take_of_le (by omega)
  rw [splice, List.append_assoc]
  rcases hi with hlt | hge
  · rw [List.getElem?_append_left (by omega), List.getElem?_take_of_lt hlt]
  · rw [List.getElem?_append_right (by omega),
      List.getElem?_append_right (by omega), List.getElem?_drop, htake]
    congr 1
    omega

theorem slice_splice {start : ℕ} {values l : List α}
    (h : start + values.length ≤ l.length) :
    slice start values.length (splice start values l) = values := by
  have hlen : start + values.length ≤ (splice start values l).length := by
    rwa [length_splice h]
  apply List.ext_getElem?
  intro i
  rcases Nat.lt_or_ge i values.length with hlt | hge
  · rw [getElem?_slice _ hlt, getElem?_splice_inside h hlt]
  · rw [List.getElem?_eq_none, List.getElem?_eq_none hge]
    rwa [length_slice hlen]

/-- A list written at listed places is unchanged at any other. -/
theorem getElem?_foldl_set_of_ne (place : κ → ℕ) (value : κ → α)
    (writes : List κ) (l : List α) {i : ℕ}
    (h : ∀ write ∈ writes, place write ≠ i) :
    (writes.foldl (fun l write => l.set (place write) (value write)) l)[i]? =
      l[i]? := by
  induction writes generalizing l with
  | nil => rfl
  | cons write writes ih =>
      rw [List.foldl_cons, ih _ fun w hw => h w (List.mem_cons_of_mem _ hw),
        List.getElem?_set_ne (h write List.mem_cons_self)]

/-- A list written at listed places holds there what was written, where all
writes to the place agree. -/
theorem getElem?_foldl_set (place : κ → ℕ) (value : κ → α) (writes : List κ)
    (l : List α) {i : ℕ} {v : α} (hrange : i < l.length)
    (hmem : ∃ write ∈ writes, place write = i)
    (hagree : ∀ write ∈ writes, place write = i → value write = v) :
    (writes.foldl (fun l write => l.set (place write) (value write)) l)[i]? =
      some v := by
  induction writes generalizing l with
  | nil =>
      obtain ⟨write, hnil, -⟩ := hmem
      cases hnil
  | cons head writes ih =>
      rw [List.foldl_cons]
      by_cases hlater : ∃ write ∈ writes, place write = i
      · apply ih _ _ hlater fun w hw => hagree w (List.mem_cons_of_mem _ hw)
        rw [List.length_set]
        exact hrange
      · have hhead : place head = i := by
          obtain ⟨write, hwrite, hplace⟩ := hmem
          rcases List.mem_cons.mp hwrite with rfl | hin
          · exact hplace
          · exact absurd ⟨write, hin, hplace⟩ hlater
        rw [getElem?_foldl_set_of_ne place value writes _ fun w hw h =>
          hlater ⟨w, hw, h⟩, ← hhead,
          List.getElem?_set_self (hhead.symm ▸ hrange),
          hagree head List.mem_cons_self hhead]

end GameStreamer.Tiling
