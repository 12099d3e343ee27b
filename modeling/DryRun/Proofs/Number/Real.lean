import Mathlib.Analysis.SpecialFunctions.Complex.Arg
import DryRun.Config
import DryRun.Proofs.Number.Laws

/-!
# Exact numbers

The real numbers measure a machine exactly: sums do not round, roots and angles are the
true ones, and every value is a finite number. Geometry and kinematics are about this
reading of the numbers; doubles approximate it.

A real number has a decimal only if it is one, so most of them have no text. Nothing that
is measured depends on a text.
-/

namespace DryRun

/-- The number that a decimal stands for. -/
noncomputable def Decimal.value (d : Decimal) : ℝ :=
  (if d.negative then -1 else 1) * d.significand * (10 : ℝ) ^ d.exponent

/-- The nearest integer; a half goes away from zero. -/
noncomputable def Exact.round (x : ℝ) : Int :=
  if 0 ≤ x then ⌊x + 1 / 2⌋ else -⌊-x + 1 / 2⌋

/-- The integer part. -/
noncomputable def Exact.trunc (x : ℝ) : Int := if 0 ≤ x then ⌊x⌋ else ⌈x⌉

open Classical in
/-- Real numbers measure a machine. -/
noncomputable instance : Scalar ℝ where
  beq x y := decide (x = y)
  decLt := inferInstance
  decLe := inferInstance
  abs x := |x|
  sqrt := Real.sqrt
  hypot x y := Real.sqrt (x ^ 2 + y ^ 2)
  atan2 y x := Complex.arg ⟨x, y⟩
  turn := 2 * Real.pi
  nan := 0
  isFinite _ := true
  same x y := decide (x = y)
  ofDecimal := Decimal.value
  numeral _ x := if h : ∃ d : Decimal, d.value = x then .finite h.choose.normalize else .nan
  roundBetween lo hi x := Double.clamp lo hi (Exact.round x)
  truncBetween lo hi x := Double.clamp lo hi (Exact.trunc x)

namespace Exact

/-- Every real number is a number. -/
@[simp] theorem isNaN_eq_false (x : ℝ) : Scalar.isNaN x = false := by
  change (!decide (x = x)) = false
  simp

/-- Every real number is finite. -/
@[simp] theorem isFinite_eq_true (x : ℝ) : Scalar.isFinite x = true := rfl

/-- A whole number is itself. -/
@[simp] theorem ofNat_eq (n : Nat) : (Scalar.ofNat n : ℝ) = n := by
  change (if false then (-1 : ℝ) else 1) * (n : ℝ) * (10 : ℝ) ^ (0 : Int) = n
  simp

/-- The code of a whole number is ten times the number. -/
theorem toCode_ofNat {n : Nat} (h : n ≤ 1000) : toCode (Scalar.ofNat n : ℝ) = 10 * n := by
  have hround : Exact.round ((n : ℝ) * 10) = 10 * n := by
    rw [Exact.round, if_pos (by positivity), Int.floor_eq_iff]
    push_cast
    constructor <;> linarith
  change Double.clamp minCode maxCode (Exact.round (Scalar.ofNat n * Scalar.ofNat 10)) = 10 * n
  rw [ofNat_eq, ofNat_eq, Nat.cast_ofNat, hround, Double.clamp, minCode, maxCode]
  omega

/-- The code of a number with one decimal is its number of tenths. -/
theorem toCode_tenths {n : Nat} (h : n ≤ 10000) :
    toCode (Scalar.ofDecimal ⟨false, n, -1⟩ : ℝ) = n := by
  have hten : Decimal.value ⟨false, n, -1⟩ * Scalar.ofNat 10 = n := by
    rw [ofNat_eq]
    change (if false then (-1 : ℝ) else 1) * (n : ℝ) * (10 : ℝ) ^ (-1 : Int) * _ = n
    rw [if_neg Bool.false_ne_true, one_mul, zpow_neg_one, Nat.cast_ofNat,
      inv_mul_cancel_right₀ (by norm_num)]
  have hround : Exact.round (n : ℝ) = n := by
    rw [Exact.round, if_pos (by positivity), Int.floor_eq_iff]
    push_cast
    constructor <;> linarith
  change Double.clamp minCode maxCode
    (Exact.round (Decimal.value ⟨false, n, -1⟩ * Scalar.ofNat 10)) = n
  rw [hten, hround, Double.clamp, minCode, maxCode]
  omega

/-- Sums of real numbers are exact. -/
instance : Scalar.ExactSums ℝ where
  add_assoc := add_assoc
  add_comm := add_comm
  add_zero := add_zero
  add_sub_cancel := add_sub_cancel_right
  sub_add_cancel := sub_add_cancel

/-- Real numbers are totally ordered. -/
instance : Scalar.OrderedNumbers ℝ where
  lt_irrefl := lt_irrefl
  lt_trans := lt_trans
  le_iff_not_lt _ _ := not_lt.symm

/-- Real numbers are told apart by equality. -/
instance : Scalar.ListedNumbers ℝ where
  same_eq _ := decide_eq_decide.2 eq_comm
  isNaN_of_nonneg _ := isNaN_eq_false _

/-- Real numbers below ten are told apart by equality. -/
instance : Scalar.DistinctDigits ℝ where
  beq_zero a := decide_eq_decide.2 (by rw [ofNat_eq, Nat.cast_zero])
  eq_of_beq _ _ hj hk := by
    have hjk := (of_decide_eq_true hj).symm.trans (of_decide_eq_true hk)
    rw [ofNat_eq, ofNat_eq] at hjk
    exact Nat.cast_injective hjk

/-- Every real number cancels. -/
instance : Scalar.FiniteCancels ℝ where
  sub_self_eq_zero_iff a := iff_of_true (sub_self a) rfl

/-! ### Largest values and lengths -/

/-- A minute has sixty seconds. -/
theorem sixty_eq : (Scalar.sixty : ℝ) = 60 := by rw [Scalar.sixty, ofNat_eq, Nat.cast_ofNat]

theorem sixty_pos : (0 : ℝ) < Scalar.sixty := by
  rw [sixty_eq]
  norm_num

/-- The larger of two numbers. -/
theorem max_eq (a b : ℝ) : Scalar.max a b = max a b := by
  simp only [Scalar.max, isNaN_eq_false, Bool.false_eq_true, if_false]
  split
  · next h => exact (max_eq_right h.le).symm
  · next h => exact (max_eq_left (not_lt.1 h)).symm

/-- The smaller of two numbers. -/
theorem min_eq (a b : ℝ) : Scalar.min a b = min a b := by
  simp only [Scalar.min, isNaN_eq_false, Bool.false_eq_true, if_false]
  split
  · next h => exact (min_eq_right h.le).symm
  · next h => exact (min_eq_left (not_lt.1 h)).symm

/-- The largest of some numbers, and zero, is the least number that none of them exceeds. -/
theorem maxOf_le_iff {xs : List ℝ} {t : ℝ} :
    Scalar.maxOf xs ≤ t ↔ 0 ≤ t ∧ ∀ x ∈ xs, x ≤ t := by
  have hfold (a : ℝ) : xs.foldl Scalar.max a ≤ t ↔ a ≤ t ∧ ∀ x ∈ xs, x ≤ t := by
    induction xs generalizing a with
    | nil => simp
    | cons x xs ih =>
        rw [List.foldl_cons, ih, max_eq, max_le_iff, List.forall_mem_cons, and_assoc]
  exact hfold 0

/-- The largest of some numbers is not less than any of them. -/
theorem le_maxOf {xs : List ℝ} {x : ℝ} (h : x ∈ xs) : x ≤ Scalar.maxOf xs :=
  (maxOf_le_iff.1 le_rfl).2 x h

/-- The largest of some numbers, and zero, is not negative. -/
theorem maxOf_nonneg (xs : List ℝ) : 0 ≤ Scalar.maxOf xs := (maxOf_le_iff.1 le_rfl).1

/-- The largest of some numbers that are not negative is one of them. -/
theorem isGreatest_maxOf {xs : List ℝ} (hne : xs ≠ []) (hnonneg : ∀ x ∈ xs, 0 ≤ x) :
    IsGreatest {x | x ∈ xs} (Scalar.maxOf xs) := by
  refine ⟨?_, fun x hx => le_maxOf hx⟩
  obtain ⟨m, hm, hmax⟩ := xs.toFinset.exists_max_image id
    (List.toFinset_nonempty_iff xs |>.2 hne)
  have hmem : m ∈ xs := List.mem_toFinset.1 hm
  have hle : Scalar.maxOf xs ≤ m :=
    maxOf_le_iff.2 ⟨hnonneg m hmem, fun x hx => hmax x (List.mem_toFinset.2 hx)⟩
  change Scalar.maxOf xs ∈ xs
  rw [le_antisymm hle (le_maxOf hmem)]
  exact hmem

/-- The sum of a list. -/
theorem sum_eq (xs : List ℝ) : Scalar.sum xs = xs.sum := by
  rw [List.sum_eq_foldl]
  rfl

/-- A length is not negative. -/
theorem norm_nonneg (xs : List ℝ) : 0 ≤ Scalar.norm xs := Real.sqrt_nonneg _

/-- No component of a vector is larger than its length. -/
theorem abs_le_norm_of_mem {xs : List ℝ} {x : ℝ} (hmem : x ∈ xs) : |x| ≤ Scalar.norm xs := by
  rw [Scalar.norm, sum_eq, ← Real.sqrt_mul_self_eq_abs]
  refine Real.sqrt_le_sqrt (List.single_le_sum ?_ _ (List.mem_map_of_mem hmem))
  intro y hy
  obtain ⟨z, -, rfl⟩ := List.mem_map.1 hy
  exact mul_self_nonneg z

/-- A vector with a component other than zero has a length. -/
theorem norm_pos_of_mem {xs : List ℝ} {x : ℝ} (hmem : x ∈ xs) (hx : x ≠ 0) :
    0 < Scalar.norm xs :=
  (abs_pos.2 hx).trans_le (abs_le_norm_of_mem hmem)

/-- Nothing is wrong with the standard configuration in exact numbers but what is wrong with its
start state. -/
theorem fault?_standard (start : Option (StartState ℝ)) :
    { (Config.standard : Config ℝ) with start }.fault? = start.bind (·.fault? 3) := by
  have hlabels : Config.labelFault? [] ['x', 'y', 'z'] = none := by decide
  simp [Config.fault?, Config.standard, Config.axesFault?, hlabels, Limit.fault?,
    Limit.valueFault?, Limit.isPositive, Config.minMoveTimeFault?, Config.axisCount]

/-- The standard configuration is accepted in exact numbers. -/
theorem standard_validate : (Config.standard : Config ℝ).validate = .ok () := by
  have hfault : (Config.standard : Config ℝ).fault? = none := fault?_standard none
  rw [Config.validate, hfault]

end Exact

/-- An inch has 25.4 millimetres. -/
theorem Units.mmPerInch_eq : (mmPerInch : ℝ) * Scalar.ofNat 10 = Scalar.ofNat 254 := by
  change (if false then (-1 : ℝ) else 1) * (254 : Nat) * (10 : ℝ) ^ (-1 : Int) *
    Scalar.ofNat 10 = _
  norm_num

theorem Units.mmPerInch_pos : 0 < (mmPerInch : ℝ) := by
  have h := Units.mmPerInch_eq
  rw [Exact.ofNat_eq, Exact.ofNat_eq] at h
  norm_num at h
  linarith

end DryRun
