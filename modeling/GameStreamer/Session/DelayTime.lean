import Mathlib.Algebra.Order.Group.Int
import Mathlib.Algebra.Ring.Int.Defs

/-!
# Signed time deltas

Rust durations are unsigned, so the delay estimators carry their own signed
difference with two infinite ends.  This module transcribes its arithmetic and
its order, and reads both in the integers where they are finite.  A negative
delta of no length is a second zero; it is the only value on which the order
and the integers disagree, and differences never produce it.
-/

namespace GameStreamer

/-- An instant, or a point before or after every instant. -/
inductive Timestamp where
  | distantPast
  | exact (instant : ℕ)
  | distantFuture
  deriving DecidableEq, Repr

/-- A duration that can be negative, or infinite in either direction. -/
inductive TimeDelta where
  | negativeInfinity
  | negative (duration : ℕ)
  | positive (duration : ℕ)
  | positiveInfinity
  deriving DecidableEq, Repr

namespace TimeDelta

def zero : TimeDelta := .positive 0

/-- The signed distance from one duration to another, as each of the
operators spells it out. -/
def difference (this that : ℕ) : TimeDelta :=
  match compare this that with
  | .lt => .negative (that - this)
  | .eq => zero
  | .gt => .positive (this - that)

def add : TimeDelta → TimeDelta → TimeDelta
  | .positiveInfinity, _ | _, .positiveInfinity => .positiveInfinity
  | .negativeInfinity, _ | _, .negativeInfinity => .negativeInfinity
  | .negative this, .negative that => .negative (this + that)
  | .positive this, .positive that => .positive (this + that)
  | .positive this, .negative that => difference this that
  | .negative this, .positive that => difference that this

def sub : TimeDelta → TimeDelta → TimeDelta
  | .positiveInfinity, _ | _, .negativeInfinity => .positiveInfinity
  | .negativeInfinity, _ | _, .positiveInfinity => .negativeInfinity
  | .positive this, .negative that => .positive (this + that)
  | .negative this, .positive that => .negative (this + that)
  | .positive this, .positive that => difference this that
  | .negative this, .negative that => difference that this

def cmp : TimeDelta → TimeDelta → Ordering
  | .negativeInfinity, .negativeInfinity => .eq
  | .negativeInfinity, _ => .lt
  | _, .negativeInfinity => .gt
  | .positiveInfinity, .positiveInfinity => .eq
  | .positiveInfinity, _ => .gt
  | _, .positiveInfinity => .lt
  | .negative _, .positive _ => .lt
  | .positive _, .negative _ => .gt
  | .positive this, .positive that => compare this that
  | .negative this, .negative that => compare that this

/-- Division by a whole number rounds the length toward zero. -/
def div : TimeDelta → ℕ → TimeDelta
  | .negative duration, divisor => .negative (duration / divisor)
  | .positive duration, divisor => .positive (duration / divisor)
  | infinite, _ => infinite

/-- `From<Duration>`. -/
def ofDuration (duration : ℕ) : TimeDelta := .positive duration

end TimeDelta

namespace Timestamp

/-- The difference of two timestamps. -/
def sub : Timestamp → Timestamp → TimeDelta
  | .distantFuture, _ | _, .distantPast => .positiveInfinity
  | .distantPast, _ | _, .distantFuture => .negativeInfinity
  | .exact this, .exact that => TimeDelta.difference this that

end Timestamp

namespace TimeDelta

/-- Not the second zero. -/
def Normal : TimeDelta → Prop
  | .negative duration => 0 < duration
  | _ => True

/-- A delta between two instants, as an integer. -/
def toInt : TimeDelta → ℤ
  | .negative duration => -(duration : ℤ)
  | .positive duration => duration
  | _ => 0

def Finite : TimeDelta → Prop
  | .negative _ | .positive _ => True
  | _ => False

@[simp]
theorem toInt_negative (duration : ℕ) :
    (negative duration).toInt = -(duration : ℤ) := by rw [toInt]

@[simp]
theorem toInt_positive (duration : ℕ) :
    (positive duration).toInt = duration := by rw [toInt]

@[simp]
theorem toInt_zero : zero.toInt = 0 := rfl

@[simp]
theorem toInt_ofDuration (duration : ℕ) :
    (ofDuration duration).toInt = duration := by
  rw [ofDuration, toInt_positive]

theorem difference_normal (this that : ℕ) :
    (difference this that).Normal := by
  unfold difference
  split
  · next hlt => exact Nat.sub_pos_of_lt (Nat.compare_eq_lt.mp hlt)
  · trivial
  · trivial

@[simp]
theorem difference_finite (this that : ℕ) :
    (difference this that).Finite := by
  unfold difference
  split <;> trivial

@[simp]
theorem toInt_difference (this that : ℕ) :
    (difference this that).toInt = (this : ℤ) - that := by
  unfold difference
  split
  · next hlt =>
      have := Nat.compare_eq_lt.mp hlt
      simp only [toInt]
      omega
  · next heq =>
      have := Nat.compare_eq_eq.mp heq
      simp only [toInt, zero]
      omega
  · next hgt =>
      have := Nat.compare_eq_gt.mp hgt
      simp only [toInt]
      omega

theorem sub_normal {this that : TimeDelta} (hthis : this.Normal)
    (hthat : that.Normal) : (this.sub that).Normal := by
  cases this <;> cases that <;>
    first
    | trivial
    | exact difference_normal _ _
    | exact Nat.add_pos_left hthis _

theorem sub_finite {this that : TimeDelta} (hthis : this.Finite)
    (hthat : that.Finite) : (this.sub that).Finite := by
  cases this <;> cases that <;>
    first
    | contradiction
    | trivial
    | exact difference_finite _ _

theorem toInt_sub {this that : TimeDelta} (hthis : this.Finite)
    (hthat : that.Finite) :
    (this.sub that).toInt = this.toInt - that.toInt := by
  cases this <;> cases that <;> try contradiction
  all_goals simp only [sub, toInt_difference, toInt_negative, toInt_positive]
  all_goals omega

theorem cmp_eq_lt_iff_toInt (this that : TimeDelta) (hthis : this.Finite)
    (hthat : that.Finite) (hnormal : this.Normal) :
    this.cmp that = .lt ↔ this.toInt < that.toInt := by
  cases this <;> cases that <;> try contradiction
  case negative.negative => simp [cmp, Nat.compare_eq_lt]
  case negative.positive =>
    simp only [Normal] at hnormal
    simp only [cmp, toInt_negative, toInt_positive, true_iff]
    omega
  case positive.negative =>
    simp only [cmp, toInt_negative, toInt_positive, reduceCtorEq, false_iff]
    omega
  case positive.positive => simp [cmp, Nat.compare_eq_lt]

theorem cmp_ne_gt_iff_toInt (this that : TimeDelta) (hthis : this.Finite)
    (hthat : that.Finite) (hnormal : that.Normal) :
    this.cmp that ≠ .gt ↔ this.toInt ≤ that.toInt := by
  cases this <;> cases that <;> try contradiction
  case negative.negative => simp [cmp, Nat.compare_eq_gt]
  case negative.positive =>
    simp only [cmp, toInt_negative, toInt_positive, ne_eq, reduceCtorEq,
      not_false_eq_true, true_iff]
    omega
  case positive.negative =>
    simp only [Normal] at hnormal
    simp only [cmp, toInt_negative, toInt_positive, ne_eq, not_true_eq_false,
      false_iff]
    omega
  case positive.positive => simp [cmp, Nat.compare_eq_gt]

theorem eq_zero_iff {delta : TimeDelta} (hfinite : delta.Finite)
    (hnormal : delta.Normal) : delta = zero ↔ delta.toInt = 0 := by
  cases delta with
  | negativeInfinity | positiveInfinity => exact absurd hfinite id
  | negative duration =>
      have hpos : 0 < duration := hnormal
      simp [zero, hpos.ne']
  | positive duration => simp [zero]

end TimeDelta

end GameStreamer
