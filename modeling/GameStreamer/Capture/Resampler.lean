import Mathlib.Algebra.Order.Floor.Semifield
import Mathlib.Data.List.GetD
import Mathlib.Data.Rat.Floor
import Mathlib.Data.UInt
import Mathlib.Tactic.FieldSimp
import Mathlib.Tactic.Linarith
import GameStreamer.Core.Pieces

/-!
# Resampling

Captured audio is brought to 48 kHz by linear interpolation, packet by packet.
The read position and the last frame carry over, so that a packet boundary
leaves no trace in the output.  Positions and samples are exact rationals
here, up to the rounding to 16 bits.
-/

namespace GameStreamer.Capture

/-- The samples of a stereo frame. -/
abbrev StereoFrame := ℚ × ℚ

def outRate : ℕ := 48000

structure Resampler where
  /-- Source frames consumed per output frame. -/
  step : ℚ
  /-- Read position over the carried frame and the input, in source frames. -/
  pos : ℚ
  /-- The previous packet's last frame. -/
  carry : StereoFrame
  step_pos : 0 < step

namespace Resampler

/-- The first packet has no predecessor, so the position is past the carry. -/
def new (inRate : UInt32) (hrate : 1 ≤ inRate) : Resampler where
  step := inRate.toNat / outRate
  pos := 1
  carry := (0, 0)
  step_pos := by
    have hpos : 1 ≤ inRate.toNat := UInt32.le_iff_toNat_le.mp hrate
    have hcast : (0 : ℚ) < inRate.toNat := by exact_mod_cast hpos
    exact div_pos hcast (by norm_num [outRate])

/-- Frame `k` of the carried frame followed by the input. -/
def frameAt (carry : StereoFrame) (input : List StereoFrame) (k : ℕ) :
    Option StereoFrame :=
  if k = 0 then some carry else input[k - 1]?

/-- The output frame between `a` and `b`, interleaved. -/
def between (a b : StereoFrame) (frac : ℚ) : List ℚ :=
  [a.1 + (b.1 - a.1) * frac, a.2 + (b.2 - a.2) * frac]

/-- The steps of this length that start before the end, one of them now. -/
theorem ceil_eq_succ {step left : ℚ} (hstep : 0 < step) (hleft : 0 < left) :
    ⌈left / step⌉₊ = ⌈(left - step) / step⌉₊ + 1 := by
  have hceil := Nat.ceil_pos.mpr (div_pos hleft hstep)
  rw [sub_div, div_self hstep.ne', Nat.ceil_sub_one]
  omega

/-- `while self.pos < n as f64`; nothing for an index out of range. -/
def read (resampler : Resampler) (input : List StereoFrame) (pos : ℚ)
    (out : List ℚ) : Option (ℚ × List ℚ) :=
  if pos < input.length then do
    let i := ⌊pos⌋₊
    let frac := pos - i
    let a ← frameAt resampler.carry input i
    let b ← frameAt resampler.carry input (i + 1)
    read resampler input (pos + resampler.step) (out ++ between a b frac)
  else some (pos, out)
termination_by ⌈(input.length - pos) / resampler.step⌉₊
decreasing_by
  have hleft : 0 < input.length - pos := by linarith
  rw [← sub_sub, ceil_eq_succ resampler.step_pos hleft]
  exact Nat.lt_succ_self _

/-- Resample `input`, appending interleaved samples to `out`. -/
def push (resampler : Resampler) (input : List StereoFrame) (out : List ℚ) :
    Option (Resampler × List ℚ) :=
  let n := input.length
  if n = 0 then some (resampler, out)
  else do
    let (pos, out) ← read resampler input resampler.pos out
    let carry ← input[n - 1]?
    some ({ resampler with pos := pos - n, carry := carry }, out)

/-- Packets pushed one after another. -/
def pushAll (resampler : Resampler) (packets : List (List StereoFrame))
    (out : List ℚ) : Option (Resampler × List ℚ) :=
  packets.foldlM (fun (resampler, out) packet => resampler.push packet out)
    (resampler, out)

/-! ## The loop -/

section Frames

variable {carry : StereoFrame} {front rest : List StereoFrame}

theorem exists_frameAt (carry : StereoFrame) {input : List StereoFrame} {k : ℕ}
    (h : k ≤ input.length) : ∃ frame, frameAt carry input k = some frame := by
  rw [frameAt]
  split_ifs with hzero
  · exact ⟨carry, rfl⟩
  · have hlt : k - 1 < input.length := by omega
    exact ⟨input[k - 1], List.getElem?_eq_getElem hlt⟩

theorem frameAt_append_left {k : ℕ} (h : k ≤ front.length) :
    frameAt carry (front ++ rest) k = frameAt carry front k := by
  rw [frameAt, frameAt]
  split_ifs with hzero
  · rfl
  · exact List.getElem?_append_left (by omega)

/-- Past the front, its last frame stands where the carried frame does. -/
theorem frameAt_append_right {last : StereoFrame}
    (hlast : front[front.length - 1]? = some last) (k : ℕ) :
    frameAt carry (front ++ rest) (k + front.length) =
      frameAt last rest k := by
  have hpos : 0 < front.length := by
    have hlt := (List.getElem?_eq_some_iff.mp hlast).1
    omega
  rw [frameAt, frameAt, if_neg (by omega)]
  split_ifs with hzero
  · rw [hzero, Nat.zero_add, List.getElem?_append_left (by omega), hlast]
  · rw [List.getElem?_append_right (by omega)]
    congr 1
    omega

end Frames

variable {resampler : Resampler} {input front rest : List StereoFrame}
  {pos : ℚ}

theorem read_of_le (h : input.length ≤ pos) (out : List ℚ) :
    resampler.read input pos out = some (pos, out) := by
  rw [read, if_neg (not_lt.mpr h)]

/-- One turn of the loop. -/
theorem read_of_frames (h : pos < input.length) {a b : StereoFrame}
    (ha : frameAt resampler.carry input ⌊pos⌋₊ = some a)
    (hb : frameAt resampler.carry input (⌊pos⌋₊ + 1) = some b)
    (out : List ℚ) :
    resampler.read input pos out =
      resampler.read input (pos + resampler.step)
        (out ++ between a b (pos - ⌊pos⌋₊)) := by
  rw [read, if_pos h]
  simp only [ha, hb, Option.bind_eq_bind, Option.bind_some]

/-- Both frames that a turn reads are there. -/
theorem exists_frames (carry : StereoFrame) (hpos : 0 ≤ pos)
    (h : pos < input.length) :
    ∃ a b, frameAt carry input ⌊pos⌋₊ = some a ∧
      frameAt carry input (⌊pos⌋₊ + 1) = some b := by
  have hlt : ⌊pos⌋₊ < input.length := (Nat.floor_lt hpos).mpr h
  obtain ⟨a, ha⟩ := exists_frameAt carry hlt.le
  obtain ⟨b, hb⟩ := exists_frameAt carry (Nat.succ_le_of_lt hlt)
  exact ⟨a, b, ha, hb⟩

/-- The loop ends past the input, and appends the same wherever it appends. -/
theorem exists_read (resampler : Resampler) (input : List StereoFrame)
    (hpos : 0 ≤ pos) :
    ∃ (after : ℚ) (samples : List ℚ), input.length ≤ after ∧
      ∀ out, resampler.read input pos out = some (after, out ++ samples) := by
  induction pos, ([] : List ℚ) using read.induct resampler input with
  | case1 pos _ h i frac ih =>
      obtain ⟨a, b, ha, hb⟩ := exists_frames resampler.carry hpos h
      obtain ⟨after, samples, hafter, hread⟩ :=
        ih a b (add_nonneg hpos resampler.step_pos.le)
      refine ⟨after, between a b (pos - ⌊pos⌋₊) ++ samples, hafter, ?_⟩
      intro out
      rw [read_of_frames h ha hb, hread, List.append_assoc]
  | case2 pos _ h =>
      have hle : input.length ≤ pos := not_lt.mp h
      exact ⟨pos, [], hle, fun out => by
        rw [read_of_le hle, List.append_nil]⟩

/-- A longer input is read to the end of its front first. -/
theorem read_append_left (hpos : 0 ≤ pos) (out : List ℚ) :
    resampler.read (front ++ rest) pos out =
      (resampler.read front pos out).bind fun state =>
        resampler.read (front ++ rest) state.1 state.2 := by
  induction pos, out using read.induct resampler front with
  | case1 pos out h i frac ih =>
      obtain ⟨a, b, ha, hb⟩ := exists_frames resampler.carry hpos h
      have hlt : ⌊pos⌋₊ < front.length := (Nat.floor_lt hpos).mpr h
      have hlong : pos < (front ++ rest).length := by
        rw [List.length_append, Nat.cast_add]
        exact lt_of_lt_of_le h (le_add_of_nonneg_right (Nat.cast_nonneg _))
      rw [read_of_frames h ha hb, ← ih a b
        (add_nonneg hpos resampler.step_pos.le)]
      apply read_of_frames hlong
      · rw [frameAt_append_left hlt.le, ha]
      · rw [frameAt_append_left (Nat.succ_le_of_lt hlt), hb]
  | case2 pos out h =>
      rw [read_of_le (not_lt.mp h), Option.bind_some]

/-- Past the front, the loop goes as on the rest with the front's last frame
carried. -/
theorem read_append_right {after : Resampler}
    (hcarry : front[front.length - 1]? = some after.carry)
    (hstep : after.step = resampler.step) (hpos : 0 ≤ pos) (out : List ℚ) :
    resampler.read (front ++ rest) (pos + front.length) out =
      (after.read rest pos out).map fun (last, out) =>
        (last + front.length, out) := by
  induction pos, out using read.induct after rest with
  | case1 pos out h i frac ih =>
      obtain ⟨a, b, ha, hb⟩ := exists_frames after.carry hpos h
      have hfloor : ⌊pos + front.length⌋₊ = ⌊pos⌋₊ + front.length :=
        Nat.floor_add_natCast hpos front.length
      have hlong : pos + front.length < (front ++ rest).length := by
        rw [List.length_append, Nat.cast_add, add_comm]
        exact add_lt_add_right h _
      rw [read_of_frames h ha hb, ← ih a b
        (add_nonneg hpos after.step_pos.le)]
      have hturn := @read_of_frames resampler (front ++ rest)
        (pos + front.length) hlong a b
        (by rw [hfloor, frameAt_append_right hcarry, ha])
        (by rw [hfloor, add_right_comm, frameAt_append_right hcarry, hb]) out
      rw [hturn, hfloor, hstep, add_right_comm, Nat.cast_add,
        add_sub_add_right_eq_sub]
  | case2 pos out h =>
      have hle : rest.length ≤ pos := not_lt.mp h
      rw [read_of_le hle, read_of_le, Option.map_some]
      rw [List.length_append, Nat.cast_add, add_comm]
      exact add_le_add_left hle _

/-! ## Packets -/

theorem push_nil (resampler : Resampler) (out : List ℚ) :
    resampler.push [] out = some (resampler, out) := by
  simp [push]

theorem push_eq (hnonempty : input ≠ []) {after : ℚ} {samples out : List ℚ}
    (hread : resampler.read input resampler.pos out = some (after, samples)) :
    resampler.push input out = some
      ({ resampler with
          pos := after - input.length
          carry := input.getLast hnonempty }, samples) := by
  have hlen : input.length ≠ 0 :=
    fun h => hnonempty (List.length_eq_zero_iff.mp h)
  have hlast : input[input.length - 1]? = some (input.getLast hnonempty) := by
    rw [← List.getLast?_eq_getElem?, List.getLast?_eq_getLast_of_ne_nil]
  simp only [push, if_neg hlen, hread, hlast, Option.bind_eq_bind,
    Option.bind_some]

/-- A push reads no frame that is not there, and leaves a position that is not
negative. -/
theorem exists_push (hpos : 0 ≤ resampler.pos) (input : List StereoFrame) :
    ∃ (after : Resampler) (samples : List ℚ), 0 ≤ after.pos ∧
      ∀ out, resampler.push input out = some (after, out ++ samples) := by
  by_cases hnonempty : input = []
  · subst hnonempty
    exact ⟨resampler, [], hpos, fun out => by rw [push_nil, List.append_nil]⟩
  · obtain ⟨last, samples, hlast, hread⟩ := exists_read resampler input hpos
    exact ⟨_, samples, sub_nonneg.mpr hlast,
      fun out => push_eq hnonempty (hread out)⟩

/-- Two packets are one packet. -/
theorem push_append (hpos : 0 ≤ resampler.pos) (front rest : List StereoFrame)
    (out : List ℚ) :
    resampler.push (front ++ rest) out =
      (resampler.push front out).bind fun state =>
        state.1.push rest state.2 := by
  by_cases hfront : front = []
  · subst hfront
    rw [push_nil]
    rfl
  by_cases hrest : rest = []
  · subst hrest
    obtain ⟨after, samples, -, hpush⟩ := exists_push hpos front
    rw [List.append_nil, hpush, Option.bind_some, push_nil]
  obtain ⟨last, samples, hlast, hread⟩ := exists_read resampler front hpos
  have hfirst := push_eq hfront (hread out)
  generalize hafter : ({ resampler with
    pos := last - front.length
    carry := front.getLast hfront } : Resampler) = after at hfirst
  have hnext : 0 ≤ after.pos := by
    rw [← hafter]
    exact sub_nonneg.mpr hlast
  obtain ⟨final, more, -, hmore⟩ := exists_read after rest hnext
  have hcarry : front[front.length - 1]? = some after.carry := by
    rw [← hafter, ← List.getLast?_eq_getElem?,
      List.getLast?_eq_getLast_of_ne_nil]
  -- The whole input is read up to the end of the front, and then on.
  have hwhole : resampler.read (front ++ rest) resampler.pos out =
      some (final + front.length, out ++ samples ++ more) := by
    have hlastEq : last = after.pos + front.length := by
      rw [← hafter, sub_add_cancel]
    rw [read_append_left hpos, hread, Option.bind_some, hlastEq,
      read_append_right hcarry (by rw [← hafter]) hnext, hmore]
    rfl
  rw [hfirst, Option.bind_some, push_eq hrest (hmore _),
    push_eq (List.append_ne_nil_of_left_ne_nil hfront rest) hwhole]
  rw [← hafter]
  simp only [List.length_append, Nat.cast_add,
    List.getLast_append_of_ne_nil _ hrest, add_sub_add_right_eq_sub,
    add_comm (front.length : ℚ)]

/-- However a stream is split, its packets give what the stream gives. -/
theorem pushAll_eq_push (hpos : 0 ≤ resampler.pos)
    (packets : List (List StereoFrame)) (out : List ℚ) :
    resampler.pushAll packets out = resampler.push packets.flatten out := by
  have hinv : ∀ (state : Resampler × List ℚ) (packet : List StereoFrame)
      (after : Resampler × List ℚ), 0 ≤ state.1.pos →
        state.1.push packet state.2 = some after → 0 ≤ after.1.pos := by
    intro state packet after h hpush
    obtain ⟨pushed, samples, hpushed, hall⟩ := exists_push h packet
    obtain rfl := Option.some.inj ((hall state.2).symm.trans hpush)
    exact hpushed
  exact Pieces.foldlM_eq_flatten (fun state => push_nil state.1 state.2)
    (fun state h front rest => push_append h front rest state.2) hinv hpos
    packets

/-! ## The stream as a whole -/

/-- The source interpolated at a position, in source frames. -/
def interpolate (source : ℕ → StereoFrame) (position : ℚ) : List ℚ :=
  between (source ⌊position⌋₊) (source (⌊position⌋₊ + 1))
    (position - ⌊position⌋₊)

/-- The loop appends the source interpolated at every step up to the end of
the input. -/
theorem read_eq (source : ℕ → StereoFrame) {first : ℕ}
    (hsource : ∀ k, first ≤ k → k ≤ input.length →
      frameAt resampler.carry input k = some (source k))
    (hpos : first ≤ pos) (out : List ℚ) :
    resampler.read input pos out = some
      (pos + ⌈(input.length - pos) / resampler.step⌉₊ * resampler.step,
        out ++ (List.range ⌈(input.length - pos) / resampler.step⌉₊).flatMap
          fun j : ℕ => interpolate source (pos + j * resampler.step)) := by
  induction pos, out using read.induct resampler input with
  | case1 pos out h i frac ih =>
      have hnonneg : 0 ≤ pos := le_trans (Nat.cast_nonneg first) hpos
      have hfirst : first ≤ ⌊pos⌋₊ := Nat.le_floor hpos
      have hlt : ⌊pos⌋₊ < input.length := (Nat.floor_lt hnonneg).mpr h
      have ha := hsource ⌊pos⌋₊ hfirst hlt.le
      have hb := hsource (⌊pos⌋₊ + 1) (Nat.le_succ_of_le hfirst) hlt
      have hcount := ceil_eq_succ resampler.step_pos (sub_pos.mpr h)
      rw [read_of_frames h ha hb, ih _ _
        (le_trans hpos (le_add_of_nonneg_right resampler.step_pos.le)),
        ← sub_sub, hcount]
      have hshift : ∀ j : ℕ, pos + resampler.step + j * resampler.step =
          pos + (j + 1 : ℕ) * resampler.step := by
        intro j
        push_cast
        ring
      simp only [hshift, List.range_succ_eq_map, List.flatMap_cons,
        List.flatMap_map, List.append_assoc, Nat.cast_zero, zero_mul, add_zero]
      rfl
  | case2 pos out h =>
      have hle : input.length ≤ pos := not_lt.mp h
      have hzero : ⌈(input.length - pos) / resampler.step⌉₊ = 0 :=
        Nat.ceil_eq_zero.mpr (div_nonpos_of_nonpos_of_nonneg
          (sub_nonpos.mpr hle) resampler.step_pos.le)
      rw [read_of_le hle, hzero, Nat.cast_zero, zero_mul, add_zero,
        List.range_zero, List.flatMap_nil, List.append_nil]

/-- Output frame `j` of a stream is the stream interpolated at `j` steps. -/
theorem push_new (inRate : UInt32) (hrate : 1 ≤ inRate)
    (stream : List StereoFrame) :
    ∃ after, ∀ out, (new inRate hrate).push stream out = some (after,
      out ++ (List.range
        ⌈(stream.length - 1) / (new inRate hrate).step⌉₊).flatMap
          fun j : ℕ => interpolate (stream.getD · (0, 0))
            (j * (new inRate hrate).step)) := by
  generalize hnew : new inRate hrate = resampler
  have hpos : resampler.pos = 1 := by rw [← hnew]; rfl
  by_cases hnonempty : stream = []
  · subst hnonempty
    refine ⟨resampler, fun out => ?_⟩
    have hzero : ⌈((([] : List StereoFrame).length : ℚ) - 1) /
        resampler.step⌉₊ = 0 :=
      Nat.ceil_eq_zero.mpr (div_nonpos_of_nonpos_of_nonneg (by simp)
        resampler.step_pos.le)
    rw [push_nil, hzero, List.range_zero, List.flatMap_nil, List.append_nil]
  · have hsource : ∀ k, 1 ≤ k → k ≤ stream.length →
        frameAt resampler.carry stream k =
          some (stream.getD (k - 1) (0, 0)) := by
      intro k hk hle
      have hlt : k - 1 < stream.length := by omega
      rw [frameAt, if_neg (by omega), List.getElem?_eq_getElem hlt,
        List.getD_eq_getElem _ _ hlt]
    have hshift : ∀ position : ℚ, 0 ≤ position →
        interpolate (fun k => stream.getD (k - 1) (0, 0)) (1 + position) =
          interpolate (stream.getD · (0, 0)) position := by
      intro position hposition
      have hfloor : ⌊1 + position⌋₊ = ⌊position⌋₊ + 1 := by
        rw [add_comm, Nat.floor_add_one hposition]
      rw [interpolate, interpolate, hfloor, Nat.add_sub_cancel,
        Nat.add_sub_cancel, Nat.cast_add, Nat.cast_one, add_comm 1 position,
        add_sub_add_right_eq_sub]
    have hsteps : ∀ j : ℕ,
        interpolate (fun k => stream.getD (k - 1) (0, 0))
          (1 + j * resampler.step) =
          interpolate (stream.getD · (0, 0)) (j * resampler.step) :=
      fun j => hshift _ (mul_nonneg (Nat.cast_nonneg j) resampler.step_pos.le)
    have hread := @read_eq resampler stream 1
      (fun k => stream.getD (k - 1) (0, 0)) 1 hsource (by simp)
    simp only [hsteps] at hread
    exact ⟨_, fun out => push_eq hnonempty
      ((congrArg (resampler.read stream · out) hpos).trans (hread out))⟩

/-- The samples of the frames, interleaved. -/
def interleave (frames : List StereoFrame) : List ℚ :=
  frames.flatMap fun frame => [frame.1, frame.2]

/-- Interpolated at whole positions, a stream gives all its frames but the
last. -/
theorem interpolate_whole (stream : List StereoFrame) :
    ((List.range (stream.length - 1)).flatMap fun j : ℕ =>
      interpolate (stream.getD · (0, 0)) j) = interleave stream.dropLast := by
  have hframe : ∀ j : ℕ, interpolate (stream.getD · (0, 0)) j =
      [(stream.getD j (0, 0)).1, (stream.getD j (0, 0)).2] := by
    intro j
    simp [interpolate, between]
  have hdrop : (List.range (stream.length - 1)).map
      (stream.getD · (0, 0)) = stream.dropLast := by
    apply List.ext_getElem
    · simp
    · intro j hj hlast
      rw [List.length_map, List.length_range] at hj
      have hlt : j < stream.length := by omega
      rw [List.getElem_map, List.getElem_range, List.getElem_dropLast,
        List.getD_eq_getElem _ _ hlt]
  rw [interleave, ← hdrop, List.flatMap_map]
  simp only [hframe]

/-- Packet boundaries leave no trace: pushed one after another, the packets
append what the stream appends, and every frame read is there.  At 48 kHz all
frames but the last come out as they went in. -/
theorem resampling_split (inRate : UInt32) (hrate : 1 ≤ inRate)
    (packets : List (List StereoFrame)) :
    ∃ after samples,
      (∀ out,
        (new inRate hrate).pushAll packets out =
            some (after, out ++ samples) ∧
          (new inRate hrate).push packets.flatten out =
            some (after, out ++ samples)) ∧
        (inRate = 48000 → samples = interleave packets.flatten.dropLast) := by
  obtain ⟨after, hpush⟩ := push_new inRate hrate packets.flatten
  refine ⟨after, _, fun out => ⟨?_, hpush out⟩, ?_⟩
  · have hpos : 0 ≤ (new inRate hrate).pos := zero_le_one
    rw [pushAll_eq_push hpos, hpush]
  · intro hsame
    have hstep : (new inRate hrate).step = 1 := by
      change (inRate.toNat : ℚ) / outRate = 1
      rw [hsame]
      exact div_self (Nat.cast_ne_zero.mpr (by decide))
    simp only [hstep, div_one, mul_one, Nat.ceil_sub_one, Nat.ceil_natCast]
    exact interpolate_whole packets.flatten

/-- Three frames at 48 kHz in three packets, one of them empty. -/
theorem resampling_split_three :
    ∃ after, ∀ out,
      (new 48000 (by decide)).pushAll [[(3, 1)], [], [(5, 2), (7, 4)]] out =
        some (after, out ++ [3, 1, 5, 2]) := by
  obtain ⟨after, samples, hsplit, hwhole⟩ :=
    resampling_split 48000 (by decide) [[(3, 1)], [], [(5, 2), (7, 4)]]
  obtain rfl : samples = [3, 1, 5, 2] := hwhole rfl
  exact ⟨after, fun out => (hsplit out).1⟩

end Resampler

end GameStreamer.Capture
