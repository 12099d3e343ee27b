import DryRun.Proofs.Number.Real

/-!
# Angles in exact numbers, with one zero or with two

The angle of a vector jumps by a full turn where it points straight back. Exact numbers have one
zero, and there the angle is half a turn. Doubles have two zeros, and the sign of a zero that is
the second coordinate tells from which side the vector came: the angle is half a turn in one sense
or in the other.

What an angle is used for does not depend on this choice, as long as it is at most half a turn in
either sense. `Scalar.ExactAngles` says so: values stand for real numbers, of which sums, products
and comparisons are exact, and angles are between the two ends, both included. Real numbers satisfy
it, and so do real numbers with two zeros (`SignedReal`), in which the sign of a zero is kept as
doubles keep it.
-/

namespace DryRun

/-! ### The law -/

/-- Values that stand for real numbers, with exact sums, products and comparisons, and angles
between half a turn in one sense and half a turn in the other, both included. -/
class Scalar.ExactAngles (α : Type) [Scalar α] where
  /-- The real number that a value stands for. -/
  value : α → ℝ
  isNaN_eq_false : ∀ a : α, isNaN a = false
  value_add : ∀ a b : α, value (a + b) = value a + value b
  value_sub : ∀ a b : α, value (a - b) = value a - value b
  value_mul : ∀ a b : α, value (a * b) = value a * value b
  lt_iff : ∀ a b : α, a < b ↔ value a < value b
  le_iff : ∀ a b : α, a ≤ b ↔ value a ≤ value b
  value_ofDecimal : ∀ d : Decimal, value (ofDecimal d) = d.value
  value_hypot : ∀ a b : α, value (hypot a b) = Real.sqrt (value a ^ 2 + value b ^ 2)
  value_turn : value turn = 2 * Real.pi
  abs_value_atan2_le : ∀ a b : α, |value (atan2 a b)| ≤ Real.pi

/-- The smaller of two values. -/
theorem Scalar.ExactAngles.value_min {α : Type} [Scalar α] [ExactAngles α] (a b : α) :
    value (Scalar.min a b) = Min.min (value a) (value b) := by
  simp only [Scalar.min, isNaN_eq_false, Bool.false_eq_true, if_false]
  split
  · next h => exact (min_eq_right ((lt_iff b a).1 h).le).symm
  · next h => exact (min_eq_left (not_lt.1 fun hlt => h ((lt_iff b a).2 hlt))).symm

namespace Exact

noncomputable instance : Scalar.ExactAngles ℝ where
  value x := x
  isNaN_eq_false := isNaN_eq_false
  value_add _ _ := rfl
  value_sub _ _ := rfl
  value_mul _ _ := rfl
  lt_iff _ _ := Iff.rfl
  le_iff _ _ := Iff.rfl
  value_ofDecimal _ := rfl
  value_hypot _ _ := rfl
  value_turn := rfl
  abs_value_atan2_le _ _ := Complex.abs_arg_le_pi _

/-- With one zero no angle is half a turn in the negative sense. -/
theorem neg_pi_lt_atan2 (y x : ℝ) : -Real.pi < Scalar.atan2 y x := Complex.neg_pi_lt_arg _

end Exact

/-! ### Two zeros -/

/-- A real number with a sign. A zero may have either sign, every other number has its own. -/
structure SignedReal where
  value : ℝ
  negative : Bool
  negative_iff : value ≠ 0 → (negative = true ↔ value < 0)

namespace SignedReal

open Classical in
/-- A real number, with a sign in case that it is zero. -/
noncomputable def of (x : ℝ) (negative : Bool) : SignedReal where
  value := x
  negative := if x = 0 then negative else decide (x < 0)
  negative_iff h := by rw [if_neg h, decide_eq_true_iff]

@[simp] theorem value_of (x : ℝ) (negative : Bool) : (of x negative).value = x := rfl

/-- The sign of a zero is the one that was given. -/
@[simp] theorem negative_of_zero (negative : Bool) : (of 0 negative).negative = negative :=
  if_pos rfl

/-- The sign of any other number is its own. -/
theorem negative_of_neg {x : ℝ} (hx : x < 0) (negative : Bool) : (of x negative).negative = true :=
  (if_neg hx.ne).trans (decide_eq_true hx)

open Classical in
/-- The angle of a vector. If it points straight back or ahead, it is on the side that the sign of
the zero tells. -/
noncomputable def angle (y x : SignedReal) : SignedReal :=
  if y.value = 0 then
    if x.negative then of (if y.negative then -Real.pi else Real.pi) y.negative
    else of 0 y.negative
  else of (Scalar.atan2 y.value x.value) y.negative

/-- The angle of a vector that points straight back. -/
theorem value_angle_of_back {y x : SignedReal} (hy : y.value = 0) (hx : x.negative = true) :
    (angle y x).value = if y.negative then -Real.pi else Real.pi := by
  rw [angle, if_pos hy, if_pos hx, value_of]

/-- No angle is more than half a turn. -/
theorem abs_value_angle_le (y x : SignedReal) : |(angle y x).value| ≤ Real.pi := by
  unfold angle
  split
  · split
    · cases y.negative with
      | true => simp [abs_of_pos Real.pi_pos]
      | false => simp [abs_of_pos Real.pi_pos]
    · simp [Real.pi_pos.le]
  · exact Complex.abs_arg_le_pi _

open Classical in
/-- Real numbers with two zeros measure a machine. The sum of two zeros is negative if both are,
and what cancels leaves the positive zero; the sign of a product is that of its factors. -/
noncomputable instance : Scalar SignedReal where
  zero := of 0 false
  add a b := of (a.value + b.value) (a.negative && b.negative)
  sub a b := of (a.value - b.value) (a.negative && !b.negative)
  mul a b := of (a.value * b.value) (a.negative ^^ b.negative)
  div a b := of (a.value * b.value⁻¹) (a.negative ^^ b.negative)
  neg a := of (-a.value) (!a.negative)
  lt a b := a.value < b.value
  le a b := a.value ≤ b.value
  beq a b := decide (a.value = b.value)
  decLt a b := inferInstanceAs (Decidable (a.value < b.value))
  decLe a b := inferInstanceAs (Decidable (a.value ≤ b.value))
  abs a := of (Scalar.abs a.value) false
  sqrt a := of (Scalar.sqrt a.value) a.negative
  hypot a b := of (Scalar.hypot a.value b.value) false
  atan2 := angle
  turn := of Scalar.turn false
  nan := of 0 false
  isFinite _ := true
  same a b := decide (a.value = b.value)
  ofDecimal d := of d.value d.negative
  numeral tie a := Scalar.numeral tie a.value
  roundBetween lo hi a := Scalar.roundBetween lo hi a.value
  truncBetween lo hi a := Scalar.truncBetween lo hi a.value

noncomputable instance : Scalar.ExactAngles SignedReal where
  value := SignedReal.value
  isNaN_eq_false a := by
    change (!decide (a.value = a.value)) = false
    simp
  value_add _ _ := rfl
  value_sub _ _ := rfl
  value_mul _ _ := rfl
  lt_iff _ _ := Iff.rfl
  le_iff _ _ := Iff.rfl
  value_ofDecimal _ := rfl
  value_hypot _ _ := rfl
  value_turn := rfl
  abs_value_atan2_le := abs_value_angle_le

end SignedReal

end DryRun
