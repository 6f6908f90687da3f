import Mathlib.Algebra.Field.MinimalAxioms
import Mathlib.Data.List.Iterate
import Mathlib.Data.List.GetD
import Mathlib.Data.UInt
import Mathlib.Dynamics.PeriodicPts.Lemmas
import Mathlib.NumberTheory.Divisors
import GameStreamer.Core.Bytes
import GameStreamer.Core.Tiling

/-!
# The field of the erasure code

Bytes form GF(2^8) under exclusive or and the product that the code reads off
two tables, with the polynomial x^8 + x^4 + x^3 + x^2 + 1 and generator 2.
Doubling has order 255 at 1, so the tables list every nonzero byte once, and
the product of two powers is a power.  It distributes because multiplying by a
power of the generator is iterated doubling, which is linear.
-/

namespace GameStreamer.Fec

/-! ## Tables -/

/-- `x <<= 1`, reduced by 0x11d on overflow. -/
def double (x : ℕ) : ℕ :=
  if (x <<< 1) &&& 0x100 ≠ 0 then (x <<< 1) ^^^ 0x11d else x <<< 1

/-- The values that `x` takes in `build_tables`. -/
def powers : List ℕ := List.iterate double 1 255

/-- Doubled, so that `mul` needs no reduction. -/
def expTable : List UInt8 := (powers ++ powers).map UInt8.ofNat

def logTable : List UInt8 :=
  powers.zipIdx.foldl (fun table (x, i) => table.set x (UInt8.ofNat i))
    (List.replicate 256 0)

def exp (i : ℕ) : UInt8 := expTable.getD i 0

def log (a : UInt8) : ℕ := (logTable.getD a.toNat 0).toNat

def mul (a b : UInt8) : UInt8 :=
  if a = 0 ∨ b = 0 then 0 else exp (log a + log b)

def inv (a : UInt8) : UInt8 := exp (255 - log a)

/-! ## Doubling -/

theorem double_lt {x : ℕ} (hx : x < 256) : double x < 256 := by
  have hall : ∀ x : Fin 256, double x < 256 := by decide +kernel
  exact hall ⟨x, hx⟩

theorem double_pos {x : ℕ} (hx : x < 256) (hpos : 0 < x) : 0 < double x := by
  have hall : ∀ x : Fin 256, 0 < x.val → 0 < double x := by decide +kernel
  exact hall ⟨x, hx⟩ hpos

theorem double_eq {x : ℕ} (hx : x < 256) :
    double x = x <<< 1 ^^^ if x.testBit 7 then 0x11d else 0 := by
  have hall : ∀ x : Fin 256, double x =
      x.val <<< 1 ^^^ if x.val.testBit 7 then 0x11d else 0 := by
    decide +kernel
  exact hall ⟨x, hx⟩

theorem double_xor {x y : ℕ} (hx : x < 256) (hy : y < 256) :
    double (x ^^^ y) = double x ^^^ double y := by
  have hxy : x ^^^ y < 256 := Nat.xor_lt_two_pow (n := 8) hx hy
  have hcarry : (if (x ^^^ y).testBit 7 then 0x11d else 0) =
      (if x.testBit 7 then 0x11d else 0) ^^^
        if y.testBit 7 then 0x11d else 0 := by
    rw [Nat.testBit_xor]
    cases x.testBit 7 <;> cases y.testBit 7 <;> rfl
  rw [double_eq hx, double_eq hy, double_eq hxy, Nat.shiftLeft_xor_distrib,
    hcarry]
  ac_rfl

/-- The powers of the generator. -/
def power (i : ℕ) : ℕ := double^[i] 1

theorem power_lt_pos (i : ℕ) : power i < 256 ∧ 0 < power i := by
  induction i with
  | zero => decide
  | succ i ih =>
      rw [power, Function.iterate_succ_apply']
      exact ⟨double_lt ih.1, double_pos ih.1 ih.2⟩

theorem minimalPeriod_double : Function.minimalPeriod double 1 = 255 := by
  have hperiodic : Function.IsPeriodicPt double 255 1 := by
    show double^[255] 1 = 1
    decide +kernel
  have hmem : Function.minimalPeriod double 1 ∈ Nat.divisors 255 :=
    Nat.mem_divisors.mpr ⟨hperiodic.minimalPeriod_dvd, by decide⟩
  have hreturn := Function.isPeriodicPt_minimalPeriod double 1
  have hall : ∀ p ∈ Nat.divisors 255, double^[p] 1 = 1 → p = 255 := by
    decide +kernel
  exact hall _ hmem hreturn

theorem power_mod (i : ℕ) : power (i % 255) = power i := by
  rw [power, power, ← minimalPeriod_double]
  exact Function.iterate_mod_minimalPeriod_eq

theorem power_injOn {i j : ℕ} (hi : i < 255) (hj : j < 255)
    (h : power i = power j) : i = j := by
  rw [← minimalPeriod_double] at hi hj
  exact Function.iterate_injOn_Iio_minimalPeriod hi hj h

/-! ## The tables hold the powers -/

/-- The power as a byte. -/
def powerByte (i : ℕ) : UInt8 := UInt8.ofNat (power i)

theorem toNat_powerByte (i : ℕ) : (powerByte i).toNat = power i := by
  rw [powerByte, UInt8.toNat_ofNat', Nat.mod_eq_of_lt (power_lt_pos i).1]

theorem powerByte_ne_zero (i : ℕ) : powerByte i ≠ 0 := by
  intro h
  have hzero := congrArg UInt8.toNat h
  rw [toNat_powerByte] at hzero
  exact absurd hzero (Nat.ne_of_gt (power_lt_pos i).2)

theorem powerByte_mod (i : ℕ) : powerByte (i % 255) = powerByte i := by
  rw [powerByte, powerByte, power_mod]

theorem length_powers : powers.length = 255 := List.length_iterate _ _ _

theorem getElem_powers {i : ℕ} (h : i < powers.length) :
    powers[i] = power i := List.getElem_iterate _ _ _ _ h

theorem exp_eq {i : ℕ} (hi : i < 510) : exp i = powerByte i := by
  have hpow : ∀ j < 255, (powers.map UInt8.ofNat).getD j 0 = powerByte j := by
    intro j hj
    rw [List.getD_eq_getElem _ _ (by simpa [length_powers] using hj)]
    simp [getElem_powers, powerByte]
  have hlen : (powers.map UInt8.ofNat).length = 255 := by simp [length_powers]
  rw [exp, expTable, List.map_append]
  rcases Nat.lt_or_ge i 255 with hlt | hge
  · rw [List.getD_append _ _ _ _ (hlen ▸ hlt), hpow i hlt]
  · rw [List.getD_append_right _ _ _ _ (hlen ▸ hge), hlen,
      hpow (i - 255) (by omega), ← powerByte_mod i,
      Nat.mod_eq_sub_mod hge, powerByte_mod]

theorem log_powerByte {i : ℕ} (hi : i < 255) : log (powerByte i) = i := by
  have hmem : (power i, i) ∈ powers.zipIdx := by
    apply List.mem_zipIdx_iff_getElem?.mpr
    rw [List.getElem?_eq_getElem (by rw [length_powers]; exact hi),
      getElem_powers]
  have hagree : ∀ entry ∈ powers.zipIdx, entry.1 = power i →
      UInt8.ofNat entry.2 = UInt8.ofNat i := by
    intro entry hentry hplace
    obtain ⟨hj, hget⟩ := List.getElem?_eq_some_iff.mp
      (List.mem_zipIdx_iff_getElem?.mp hentry)
    rw [getElem_powers, hplace] at hget
    rw [length_powers] at hj
    rw [power_injOn hj hi hget]
  have hrange : power i < (List.replicate 256 (0 : UInt8)).length := by
    rw [List.length_replicate]
    exact (power_lt_pos i).1
  have hget := Tiling.getElem?_foldl_set Prod.fst
    (fun entry : ℕ × ℕ => UInt8.ofNat entry.2) powers.zipIdx _ hrange
    ⟨_, hmem, rfl⟩ hagree
  rw [log, logTable, toNat_powerByte, List.getD_eq_getElem?_getD, hget,
    Option.getD_some, UInt8.toNat_ofNat', Nat.mod_eq_of_lt (by omega)]

/-- Every nonzero byte is a power. -/
theorem exists_powerByte {a : UInt8} (ha : a ≠ 0) :
    ∃ i < 255, powerByte i = a := by
  have hsub : (Finset.range 255).image power ⊆ Finset.Ioo 0 256 := by
    intro x hx
    obtain ⟨i, -, rfl⟩ := Finset.mem_image.mp hx
    exact Finset.mem_Ioo.mpr ⟨(power_lt_pos i).2, (power_lt_pos i).1⟩
  have hcard : ((Finset.range 255).image power).card = 255 := by
    rw [Finset.card_image_of_injOn, Finset.card_range]
    intro i hi j hj h
    exact power_injOn (Finset.mem_range.mp hi) (Finset.mem_range.mp hj) h
  have heq := Finset.eq_of_subset_of_card_le hsub
    (by rw [hcard, Nat.card_Ioo])
  have hmem : a.toNat ∈ (Finset.range 255).image power := by
    rw [heq]
    exact Finset.mem_Ioo.mpr
      ⟨Nat.pos_of_ne_zero fun h => ha (UInt8.toNat_inj.mp h), a.toNat_lt⟩
  obtain ⟨i, hi, hpower⟩ := Finset.mem_image.mp hmem
  exact ⟨i, Finset.mem_range.mp hi,
    UInt8.toNat_inj.mp (by rw [toNat_powerByte, hpower])⟩

/-! ## The product -/

theorem mul_powerByte (i j : ℕ) :
    mul (powerByte i) (powerByte j) = powerByte (i + j) := by
  have hi := Nat.mod_lt i (show 0 < 255 by decide)
  have hj := Nat.mod_lt j (show 0 < 255 by decide)
  have hzero : ¬(powerByte i = 0 ∨ powerByte j = 0) :=
    not_or.mpr ⟨powerByte_ne_zero i, powerByte_ne_zero j⟩
  rw [mul, if_neg hzero, ← powerByte_mod i, ← powerByte_mod j,
    log_powerByte hi, log_powerByte hj, exp_eq (by omega),
    ← powerByte_mod, ← powerByte_mod (i + j), ← Nat.add_mod]

@[simp]
theorem zero_mul (a : UInt8) : mul 0 a = 0 := if_pos (Or.inl rfl)

@[simp]
theorem mul_zero (a : UInt8) : mul a 0 = 0 := if_pos (Or.inr rfl)

theorem inv_powerByte {i : ℕ} (hi : i < 255) :
    inv (powerByte i) = powerByte (255 - i) := by
  rw [inv, log_powerByte hi, exp_eq (by omega)]

/-- Doubling a byte. -/
def doubleByte (a : UInt8) : UInt8 := UInt8.ofNat (double a.toNat)

theorem doubleByte_xor (a b : UInt8) :
    doubleByte (a ^^^ b) = doubleByte a ^^^ doubleByte b := by
  rw [doubleByte, UInt8.toNat_xor, double_xor a.toNat_lt b.toNat_lt,
    UInt8.ofNat_xor]
  rfl

theorem doubleByte_powerByte (i : ℕ) :
    doubleByte (powerByte i) = powerByte (i + 1) := by
  rw [doubleByte, toNat_powerByte, powerByte, power, power,
    Function.iterate_succ_apply']

/-- Multiplying by a power of the generator is repeated doubling. -/
theorem powerByte_mul (i : ℕ) (a : UInt8) :
    mul (powerByte i) a = doubleByte^[i] a := by
  by_cases ha : a = 0
  · have hfixed : doubleByte^[i] 0 = 0 := Function.iterate_fixed (by rfl) i
    rw [ha, mul_zero, hfixed]
  · obtain ⟨j, -, rfl⟩ := exists_powerByte ha
    rw [mul_powerByte]
    induction i with
    | zero => rw [Nat.zero_add]; rfl
    | succ i ih =>
        rw [Function.iterate_succ_apply', ← ih, doubleByte_powerByte,
          Nat.add_right_comm]

theorem iterate_doubleByte_xor (i : ℕ) (a b : UInt8) :
    doubleByte^[i] (a ^^^ b) = doubleByte^[i] a ^^^ doubleByte^[i] b := by
  induction i generalizing a b with
  | zero => rfl
  | succ i ih =>
      rw [Function.iterate_succ_apply, doubleByte_xor, ih]
      rfl

theorem mul_xor (a b c : UInt8) :
    mul a (b ^^^ c) = mul a b ^^^ mul a c := by
  by_cases ha : a = 0
  · rw [ha, zero_mul, zero_mul, zero_mul, UInt8.xor_self]
  · obtain ⟨i, -, rfl⟩ := exists_powerByte ha
    simp only [powerByte_mul, iterate_doubleByte_xor]

theorem mul_comm (a b : UInt8) : mul a b = mul b a := by
  simp only [mul, or_comm, Nat.add_comm]

theorem mul_assoc (a b c : UInt8) : mul (mul a b) c = mul a (mul b c) := by
  by_cases ha : a = 0
  · simp [ha]
  · by_cases hb : b = 0
    · simp [hb]
    · by_cases hc : c = 0
      · simp [hc]
      · obtain ⟨i, -, rfl⟩ := exists_powerByte ha
        obtain ⟨j, -, rfl⟩ := exists_powerByte hb
        obtain ⟨k, -, rfl⟩ := exists_powerByte hc
        simp only [mul_powerByte, Nat.add_assoc]

theorem one_mul (a : UInt8) : mul 1 a = a := powerByte_mul 0 a

theorem mul_inv_cancel {a : UInt8} (ha : a ≠ 0) : mul a (inv a) = 1 := by
  obtain ⟨i, hi, rfl⟩ := exists_powerByte ha
  rw [inv_powerByte hi, mul_powerByte, Nat.add_sub_cancel' (Nat.le_of_lt hi),
    ← powerByte_mod]
  rfl

/-! ## The field -/

/-- A byte as an element of GF(2^8). -/
structure GF256 where
  byte : UInt8
  deriving DecidableEq, Repr

namespace GF256

instance : Zero GF256 := ⟨⟨0⟩⟩
instance : One GF256 := ⟨⟨1⟩⟩
instance : Add GF256 := ⟨fun a b => ⟨a.byte ^^^ b.byte⟩⟩
instance : Neg GF256 := ⟨id⟩
instance : Mul GF256 := ⟨fun a b => ⟨mul a.byte b.byte⟩⟩
instance : Inv GF256 := ⟨fun a => if a.byte = 0 then 0 else ⟨inv a.byte⟩⟩

@[ext]
theorem ext {a b : GF256} (h : a.byte = b.byte) : a = b := by
  cases a
  cases b
  exact congrArg mk h

@[simp] theorem byte_zero : (0 : GF256).byte = 0 := rfl
@[simp] theorem byte_one : (1 : GF256).byte = 1 := rfl
@[simp] theorem byte_add (a b : GF256) : (a + b).byte = a.byte ^^^ b.byte := rfl
@[simp] theorem byte_mul (a b : GF256) : (a * b).byte = mul a.byte b.byte := rfl

theorem byte_ne_zero {a : GF256} (ha : a ≠ 0) : a.byte ≠ 0 :=
  fun h => ha (ext h)

theorem byte_inv {a : GF256} (ha : a ≠ 0) : a⁻¹.byte = inv a.byte := by
  show (if a.byte = 0 then 0 else ⟨inv a.byte⟩ : GF256).byte = inv a.byte
  rw [if_neg (byte_ne_zero ha)]

theorem mul_inv_cancel {a : GF256} (ha : a ≠ 0) : a * a⁻¹ = 1 := by
  apply ext
  rw [byte_mul, byte_inv ha, Fec.mul_inv_cancel (byte_ne_zero ha), byte_one]

instance : Field GF256 :=
  Field.ofMinimalAxioms GF256
    (fun a b c => ext (UInt8.xor_assoc a.byte b.byte c.byte))
    (fun a => ext (UInt8.zero_xor))
    (fun a => ext (UInt8.xor_self))
    (fun a b c => ext (mul_assoc a.byte b.byte c.byte))
    (fun a b => ext (mul_comm a.byte b.byte))
    (fun a => ext (one_mul a.byte))
    (fun a ha => mul_inv_cancel ha)
    (if_pos rfl)
    (fun a b c => ext (mul_xor a.byte b.byte c.byte))
    ⟨0, 1, fun h => absurd (congrArg byte h) (by decide)⟩

/-- Subtraction is addition: the characteristic is two. -/
@[simp]
theorem byte_sub (a b : GF256) : (a - b).byte = a.byte ^^^ b.byte := by
  rw [sub_eq_add_neg]
  rfl

theorem add_self (a : GF256) : a + a = 0 := ext UInt8.xor_self

end GF256

end GameStreamer.Fec
