import DryRun.Number.Double
import Mathlib.Data.Prod.Lex

/-!
# Laws of numbers

What is proved of a machine over every `Scalar` uses no law of arithmetic at all. Some
properties of a machine need one, and this module names the laws that they need, so that a
statement says by its assumptions which readings of the numbers it is about:

* `Scalar.ExactSums`: addition and subtraction do not round. Exact numbers satisfy it,
  doubles do not.
* `Scalar.OrderedNumbers`: the values that are numbers are totally ordered. Exact numbers
  satisfy it, and so do doubles, with their infinities, and with two zeros that are equal in
  the order without being the same.
* `Scalar.ListedNumbers`: numbers are told apart by equality where values are listed. Exact
  numbers satisfy it, and so do doubles, whose two zeros are one entry.
* `Scalar.DistinctDigits`: the whole numbers below ten are told apart by equality. Exact numbers
  satisfy it, and so do doubles.
* `Scalar.FiniteCancels`: a value taken away from itself leaves nothing exactly if it is finite.
  Exact numbers satisfy it, and so do doubles, where an infinity leaves no number.

The order of doubles is lexicographic in the sign, the exponent and the magnitude, as
`Double.compare_eq` says of the model of doubles.
-/

namespace DryRun

namespace Scalar

variable (α : Type) [Scalar α]

/-- Addition and subtraction are exact: they are those of a commutative group. -/
class ExactSums : Prop where
  add_assoc : ∀ a b c : α, a + b + c = a + (b + c)
  add_comm : ∀ a b : α, a + b = b + a
  add_zero : ∀ a : α, a + 0 = a
  add_sub_cancel : ∀ a b : α, a + b - b = a
  sub_add_cancel : ∀ a b : α, a - b + b = a

/-- The values that are numbers are totally ordered. -/
class OrderedNumbers : Prop where
  lt_irrefl : ∀ a : α, ¬ a < a
  lt_trans : ∀ {a b c : α}, a < b → b < c → a < c
  le_iff_not_lt : ∀ {a b : α}, isNaN a = false → isNaN b = false → (a ≤ b ↔ ¬ b < a)

/-- Among the values of a list a number is the same entry as those that it equals, and a value
that is not negative is a number. -/
class ListedNumbers : Prop where
  same_eq : ∀ {a b : α}, isNaN b = false → same a b = (b == a)
  isNaN_of_nonneg : ∀ {a : α}, 0 ≤ a → isNaN a = false

/-- A value equals at most one of the whole numbers below ten. -/
class DistinctDigits : Prop where
  beq_zero : ∀ a : α, (a == 0) = (a == ofNat 0)
  eq_of_beq : ∀ {a : α} {j k : Nat}, j < 10 → k < 10 → (a == ofNat j) = true →
    (a == ofNat k) = true → j = k

/-- Taking a value away from itself leaves nothing if it is finite, and only then. -/
class FiniteCancels : Prop where
  sub_self_eq_zero_iff : ∀ a : α, a - a = 0 ↔ isFinite a = true

variable {α}

/-- Taking away nothing changes nothing. -/
theorem ExactSums.sub_zero [ExactSums α] (a : α) : a - 0 = a := by
  have h := ExactSums.add_sub_cancel a 0
  rwa [ExactSums.add_zero] at h

/-- Adding up a list may be started from any value. -/
theorem ExactSums.foldl_add [ExactSums α] (xs : List α) (a : α) :
    xs.foldl (· + ·) a = sum xs + a := by
  induction xs generalizing a with
  | nil =>
      rw [List.foldl_nil, sum, List.foldl_nil, ExactSums.add_comm, ExactSums.add_zero]
  | cons x xs ih =>
      have hsum : sum (x :: xs) = sum xs + (0 + x) := ih (0 + x)
      rw [List.foldl_cons, ih, hsum, ExactSums.add_comm 0 x, ExactSums.add_zero,
        ExactSums.add_assoc, ExactSums.add_comm x a]

end Scalar

/-! ### The order of doubles -/

namespace Double

open Float.Model (UnpackedFloat)

/-- The place of a double in the order: its sign and whether it is infinite, then its
exponent, then its magnitude. -/
def rank : UnpackedFloat → Int ×ₗ Int ×ₗ Int
  | .notANumber | .zero _ => toLex (0, toLex (0, 0))
  | .infinity .negative => toLex (-2, toLex (0, 0))
  | .infinity .positive => toLex (2, toLex (0, 0))
  | .finite .negative m e _ => toLex (-1, toLex (-e, -(m : Int)))
  | .finite .positive m e _ => toLex (1, toLex (e, (m : Int)))

/-- Ranks with the same first part compare as their other parts do. -/
theorem compare_toLex (s a b c d : Int) :
    compare (toLex (s, toLex (a, b))) (toLex (s, toLex (c, d))) =
      (compare a c).then (compare b d) := by
  simp [Prod.Lex.compare_def, compareLex, compareOn]

/-- A change of sign turns the order around. -/
theorem compare_neg (a b : Int) : compare (-a) (-b) = (compare a b).swap := by
  simp only [compare, compareOfLessAndEq]
  grind [Ordering.swap]

/-- Natural numbers compare as integers do. -/
theorem compare_natCast (a b : Nat) : compare (a : Int) (b : Int) = compare a b := by
  simp only [compare, compareOfLessAndEq]
  grind

/-- Doubles compare as their ranks do, unless one of them is no number. -/
theorem compare_eq (a b : UnpackedFloat) :
    a.compare b = if a.isNaN || b.isNaN then none else some (compare (rank a) (rank b)) := by
  rcases a with (_ | _) | _ | _ | ⟨_ | _, m, e, hm⟩ <;>
    rcases b with (_ | _) | _ | _ | ⟨_ | _, m', e', hm'⟩ <;> try rfl
  -- two finite doubles of the same sign are left
  · change some ((compare e e').then (compare m m')).swap =
      some (compare (toLex (-1, toLex (-e, -(m : Int)))) (toLex (-1, toLex (-e', -(m' : Int)))))
    rw [compare_toLex, compare_neg, compare_neg, compare_natCast, Ordering.swap_then]
  · change some ((compare e e').then (compare m m')) =
      some (compare (toLex (1, toLex (e, (m : Int)))) (toLex (1, toLex (e', (m' : Int)))))
    rw [compare_toLex, compare_natCast]

/-- Whether a double is no number, by its model. -/
theorem isNaN_eq (a : Float) : Scalar.isNaN a = a.toModel.unpack.isNaN := by
  change (!(a.toModel.unpack.compare a.toModel.unpack == some .eq)) = _
  rw [compare_eq]
  cases h : a.toModel.unpack.isNaN <;> simp

/-- A double is less than another if both are numbers and their ranks are so ordered. -/
theorem lt_iff (a b : Float) :
    a < b ↔ Scalar.isNaN a = false ∧ Scalar.isNaN b = false ∧
      rank a.toModel.unpack < rank b.toModel.unpack := by
  change decide (a.toModel < b.toModel) = true ↔ _
  rw [decide_eq_true_iff]
  change (a.toModel.unpack.compare b.toModel.unpack == some .lt) = true ↔ _
  rw [compare_eq, isNaN_eq, isNaN_eq]
  cases a.toModel.unpack.isNaN <;> cases b.toModel.unpack.isNaN <;> simp [compare_lt_iff_lt]

/-- A double is at most another if both are numbers and their ranks are so ordered. -/
theorem le_iff (a b : Float) :
    a ≤ b ↔ Scalar.isNaN a = false ∧ Scalar.isNaN b = false ∧
      rank a.toModel.unpack ≤ rank b.toModel.unpack := by
  change decide (a.toModel ≤ b.toModel) = true ↔ _
  rw [decide_eq_true_iff]
  change ((a.toModel.unpack.compare b.toModel.unpack).any (·.isLE)) = true ↔ _
  rw [compare_eq, isNaN_eq, isNaN_eq]
  cases a.toModel.unpack.isNaN <;> cases b.toModel.unpack.isNaN <;>
    simp [Ordering.isLE_iff_ne_gt, compare_le_iff_le]

/-- **Doubles that are numbers are totally ordered.** -/
instance : Scalar.OrderedNumbers Float where
  lt_irrefl a h := lt_irrefl _ ((lt_iff a a).mp h).2.2
  lt_trans h₁ h₂ := by
    rw [lt_iff] at h₁ h₂ ⊢
    exact ⟨h₁.1, h₂.2.1, h₁.2.2.trans h₂.2.2⟩
  le_iff_not_lt ha hb := by
    rw [le_iff, lt_iff]
    simp [ha, hb]

/-- Two doubles are equal if both are numbers and their ranks are the same. -/
theorem beq_iff (a b : Float) :
    (a == b) = true ↔ Scalar.isNaN a = false ∧ Scalar.isNaN b = false ∧
      rank a.toModel.unpack = rank b.toModel.unpack := by
  change (a.toModel.unpack.compare b.toModel.unpack == some .eq) = true ↔ _
  rw [compare_eq, isNaN_eq, isNaN_eq]
  cases a.toModel.unpack.isNaN <;> cases b.toModel.unpack.isNaN <;> simp [compare_eq_iff_eq]

/-- Equality of doubles is symmetric. -/
theorem beq_comm (a b : Float) : (a == b) = (b == a) := by
  rw [Bool.eq_iff_iff, beq_iff, beq_iff]
  exact ⟨fun h => ⟨h.2.1, h.1, h.2.2.symm⟩, fun h => ⟨h.2.1, h.1, h.2.2.symm⟩⟩

/-- **Doubles are listed once each, and the two zeros are one entry.** -/
instance : Scalar.ListedNumbers Float where
  same_eq := by
    intro a b hb
    change (a == b || a.toBits == b.toBits) = (b == a)
    rw [beq_comm b a]
    cases hbits : a.toBits == b.toBits with
    | false => rw [Bool.or_false]
    | true =>
        obtain rfl : a = b := by
          obtain ⟨⟨bits, valid⟩⟩ := a
          obtain ⟨⟨bits', valid'⟩⟩ := b
          obtain rfl : bits = bits' := eq_of_beq hbits
          rfl
        rw [Bool.or_true, eq_comm, beq_iff]
        exact ⟨hb, hb, rfl⟩
  isNaN_of_nonneg h := ((le_iff _ _).mp h).2.1

/-- **Doubles equal at most one of the whole numbers below ten.** -/
instance : Scalar.DistinctDigits Float where
  beq_zero a := congrArg (a == ·) (by decide +kernel)
  eq_of_beq hj hk hbj hbk := by
    have htable : ∀ j k : Fin 10,
        ((Scalar.ofNat j : Float) == Scalar.ofNat k) = true → j = k := by decide +kernel
    obtain ⟨-, hnj, hrj⟩ := (beq_iff _ _).mp hbj
    obtain ⟨-, hnk, hrk⟩ := (beq_iff _ _).mp hbk
    have hbeq := (beq_iff _ _).mpr ⟨hnj, hnk, hrj.symm.trans hrk⟩
    exact congrArg Fin.val (htable ⟨_, hj⟩ ⟨_, hk⟩ hbeq)

/-- A finite double taken away from itself is the positive zero, and any other one no number. -/
theorem unpacked_sub_self (u : UnpackedFloat) :
    u.sub .binary64 u = if u.isFinite then .zero .positive else .notANumber := by
  rcases u with (_ | _) | _ | (_ | _) | ⟨s, m, e, hm⟩ <;> try rfl
  -- the two mantissas are brought to one exponent in the same way
  change UnpackedFloat.normalize _ (s.apply _ - s.apply _) _ _ = .zero .positive
  rw [Int.sub_self]
  rfl

/-- **Finite doubles cancel, and no others.** -/
instance : Scalar.FiniteCancels Float where
  sub_self_eq_zero_iff a := by
    change Float.ofModel (.pack (a.toModel.unpack.sub .binary64 a.toModel.unpack)) = 0 ↔
      a.toModel.unpack.isFinite = true
    rw [unpacked_sub_self]
    cases a.toModel.unpack.isFinite with
    | true => exact iff_of_true (by decide +kernel) rfl
    | false => exact iff_of_false (by decide +kernel) Bool.false_ne_true

end Double

end DryRun
