import DryRun.Proofs.Number.Packing

/-!
# Rounding to the nearest double

The numbers that a double is nearest to form an interval around it, `Double.interval`, in which
the shortest decimal of the double is searched. This module shows that the arithmetic of
doubles rounds by the same interval: a product or a quotient whose exact value lies in the
interval of a double is that double.

Rounding is done on a fraction `num / den · 2 ^ e`. It is cut off to an integer, and all that is
kept of the rest is how it compares to one half (`Double.fraction`); shifting the integer to the
right then only multiplies the denominator (`shiftRight_fraction`), and what is rounded in the
end is again a quotient of natural numbers, by `Double.roundDiv` (`roundedMantissa_fraction`).
What is left to show is where the shift ends: at the exponent of the nearest double, or, just
below a power of two, at the one before, with a carry that makes up for it
(`targetExponent_of_nearest`).

## Main results

* `Double.roundWithAccuracy_of_nearest`: a fraction is rounded to the double nearest to it.
* `Double.isRounding_mul`, `Double.isRounding_div`: products and quotients come from rounding such
  a fraction, so they are the doubles nearest to their exact values (`IsRounding.eq_of_nearest`).
-/

namespace DryRun.Double

open Float.Model (UnpackedFloat Format totalExponent)
open Float.Model.UnpackedFloat

variable {m : Nat} {q : Int} {x : ℚ}

/-! ### The nearest double -/

/-- Whether a number, in quarters of `2 ^ q`, lies in an interval. -/
def Interval.Contains (i : Interval) (x : ℚ) : Prop :=
  if i.closed then i.low ≤ x ∧ x ≤ i.high else i.low < x ∧ x < i.high

/-- What an interval contains lies between its ends. -/
theorem Interval.Contains.le {i : Interval} (h : i.Contains x) : i.low ≤ x ∧ x ≤ i.high := by
  unfold Interval.Contains at h
  split at h
  · exact h
  · exact ⟨h.1.le, h.2.le⟩

/-- An interval that contains one of its ends is closed. -/
theorem Interval.Contains.closed_of_end {i : Interval} (h : i.Contains x)
    (hend : x = i.low ∨ x = i.high) : i.closed := by
  unfold Interval.Contains at h
  split at h
  · assumption
  · rcases hend with rfl | rfl
    · exact absurd h.1 (lt_irrefl _)
    · exact absurd h.2 (lt_irrefl _)

/-- Whether `m · 2 ^ q` is the double nearest to a number. -/
def Nearest (m : Nat) (q : Int) (x : ℚ) : Prop := (interval m q).Contains (x / 2 ^ (q - 2))

/-- A number in quarters of `2 ^ q`. -/
theorem quarters_eq (x : ℚ) (q : Int) : x / 2 ^ (q - 2) = 4 * (x / 2 ^ q) := by
  rw [zpow_sub₀ two_ne_zero]
  field_simp
  norm_num

/-- The lower end of an interval in quarters: half a step below, or a quarter of one where the
doubles below are denser. -/
theorem low_eq (hm : 0 < m) :
    ((interval m q).low : ℚ) =
      if m = 2 ^ 52 ∧ -1074 < q then (4 * m - 1 : ℚ) else (4 * m - 2 : ℚ) := by
  change ((if m = 2 ^ 52 ∧ -1074 < q then 4 * m - 1 else 4 * m - 2 : Nat) : ℚ) = _
  split
  · rw [Nat.cast_sub (by omega)]
    push_cast
    rfl
  · rw [Nat.cast_sub (by omega)]
    push_cast
    rfl

/-- The upper end of an interval in quarters: half a step above. -/
theorem high_eq (m : Nat) (q : Int) : ((interval m q).high : ℚ) = 4 * m + 2 := by
  change ((4 * m + 2 : Nat) : ℚ) = _
  push_cast
  rfl

/-- A double is nearest to itself. -/
theorem nearest_self (hm : 0 < m) : Nearest m q (m * 2 ^ q) := by
  have hquarters : (m * 2 ^ q / 2 ^ (q - 2) : ℚ) = 4 * m := by
    rw [quarters_eq, mul_div_cancel_right₀ _ (by positivity)]
  unfold Nearest Interval.Contains
  rw [hquarters, low_eq hm, high_eq]
  split <;> split <;> constructor <;> linarith

/-- What is nearest to a double is at most half a step below it. -/
theorem Nearest.low_le (hm : 0 < m) (h : Nearest m q x) : m - 1 / 2 ≤ x / 2 ^ q := by
  have hle := h.le.1
  rw [low_eq hm, quarters_eq] at hle
  split at hle <;> linarith

/-- What is nearest to a double is at most half a step above it. -/
theorem Nearest.le_high (h : Nearest m q x) : x / 2 ^ q ≤ m + 1 / 2 := by
  have hle := h.le.2
  rw [high_eq, quarters_eq] at hle
  linarith

/-- Below a power of two the next double is only half as far away. -/
theorem Nearest.low_le_of_power (h : Nearest (2 ^ 52) q x) (hq : -1074 < q) :
    2 ^ 52 - 1 / 4 ≤ x / 2 ^ q := by
  have hle := h.le.1
  rw [low_eq (by norm_num), quarters_eq, if_pos ⟨rfl, hq⟩] at hle
  push_cast at hle
  linarith

/-- Half way between two doubles the even one is the nearest. -/
theorem Nearest.even_of_tie (hm : 0 < m) (h : Nearest m q x)
    (htie : x / 2 ^ q = m - 1 / 2 ∨ x / 2 ^ q = m + 1 / 2) : m % 2 = 0 := by
  refine of_decide_eq_true (h.closed_of_end ?_)
  rw [quarters_eq]
  rcases htie with htie | htie
  · left
    have hle := h.le.1
    rw [quarters_eq, htie, low_eq hm] at hle
    rw [htie, low_eq hm]
    by_cases hpow : m = 2 ^ 52 ∧ -1074 < q
    · rw [if_pos hpow] at hle
      linarith
    · rw [if_neg hpow]
      ring
  · right
    rw [htie, high_eq]
    ring

/-! ### Rounded quotients -/

/-- A quotient is rounded to a natural number that is at most one half away from it, and to the
even one of two such numbers. -/
theorem roundDiv_even_eq {num den n : Nat} (hden : 0 < den)
    (hlow : 2 * n * den ≤ 2 * num + den) (hhigh : 2 * num ≤ (2 * n + 1) * den)
    (htie : 2 * n * den = 2 * num + den ∨ 2 * num = (2 * n + 1) * den → n % 2 = 0) :
    roundDiv num den .even = n := by
  have hdiv := Nat.div_add_mod num den
  have hmod := Nat.mod_lt num hden
  unfold roundDiv
  generalize num / den = c at *
  generalize num % den = r at *
  subst hdiv
  have hle : c ≤ n := by
    by_contra hlt
    have : den * (n + 1) ≤ den * c := Nat.mul_le_mul_left den (by omega)
    nlinarith
  have hge : n ≤ c + 1 := by
    by_contra hlt
    have : den * (c + 2) ≤ den * n := Nat.mul_le_mul_left den (by omega)
    nlinarith
  obtain rfl | rfl : n = c ∨ n = c + 1 := by omega
  · rcases lt_trichotomy (2 * r) den with h | h | h
    · simp only [Nat.compare_eq_lt.mpr h]
    · have := htie (.inr (by rw [← h]; ring))
      simp only [Nat.compare_eq_eq.mpr h]
      omega
    · nlinarith
  · rcases lt_trichotomy (2 * r) den with h | h | h
    · nlinarith
    · have := htie (.inl (by rw [← h]; ring))
      simp only [Nat.compare_eq_eq.mpr h]
      omega
    · simp only [Nat.compare_eq_gt.mpr h]

/-- The same with the quotient as a number. -/
theorem roundDiv_eq_of_near {num den n : Nat} (hden : 0 < den)
    (hlow : n - 1 / 2 ≤ (num / den : ℚ)) (hhigh : (num / den : ℚ) ≤ n + 1 / 2)
    (htie : (num / den : ℚ) = n - 1 / 2 ∨ (num / den : ℚ) = n + 1 / 2 → n % 2 = 0) :
    roundDiv num den .even = n := by
  have hpos : (0 : ℚ) < den := by exact_mod_cast hden
  rw [le_div_iff₀ hpos] at hlow
  rw [div_le_iff₀ hpos] at hhigh
  rw [div_eq_iff hpos.ne', div_eq_iff hpos.ne'] at htie
  refine roundDiv_even_eq hden ?_ ?_ fun h => htie ?_
  · have : (2 * n * den : ℚ) ≤ 2 * num + den := by linarith
    exact_mod_cast this
  · have : (2 * num : ℚ) ≤ (2 * n + 1) * den := by linarith
    exact_mod_cast this
  · rcases h with h | h
    · left
      have : (2 * n * den : ℚ) = 2 * num + den := by exact_mod_cast h
      linarith
    · right
      have : (2 * num : ℚ) = (2 * n + 1) * den := by exact_mod_cast h
      linarith

/-! ### Fractions that are cut off -/

/-- A fraction cut off to a natural number, with what rounding needs to know of the rest. -/
def fraction (num den : Nat) : ExtendedMantissa :=
  .ofMantissaAndAccuracy (num / den) (accuracyOfFraction (num % den) den)

/-- Of the rest it is kept whether it is at least one half, and whether it is anything else than
nothing or one half. -/
theorem fraction_eq (num : Nat) {den : Nat} (hden : 0 < den) :
    fraction num den =
      ⟨num / den, den ≤ 2 * (num % den), 2 * (num % den) ≠ 0 ∧ 2 * (num % den) ≠ den⟩ := by
  unfold fraction accuracyOfFraction
  split
  · exact congrArg₂ (ExtendedMantissa.mk (num / den))
      (decide_eq_false (by omega)).symm (decide_eq_false (by omega)).symm
  · rcases lt_trichotomy (2 * (num % den)) den with h | h | h
    · rw [Nat.compare_eq_lt.mpr h]
      exact congrArg₂ (ExtendedMantissa.mk (num / den))
        (decide_eq_false (by omega)).symm (decide_eq_true (by omega)).symm
    · rw [Nat.compare_eq_eq.mpr h]
      exact congrArg₂ (ExtendedMantissa.mk (num / den))
        (decide_eq_true (by omega)).symm (decide_eq_false (by omega)).symm
    · rw [Nat.compare_eq_gt.mpr h]
      exact congrArg₂ (ExtendedMantissa.mk (num / den))
        (decide_eq_true (by omega)).symm (decide_eq_true (by omega)).symm

/-- What was kept of a fraction is enough to round it. -/
theorem roundedMantissa_fraction (num : Nat) {den : Nat} (hden : 0 < den) :
    (fraction num den).roundedMantissa = roundDiv num den .even := by
  unfold fraction accuracyOfFraction roundDiv
  split
  · next hzero =>
      have hlt : compare (2 * (num % den)) den = .lt := Nat.compare_eq_lt.mpr (by omega)
      simp only [hlt]
      rfl
  · cases h : compare (2 * (num % den)) den <;> simp only [h] <;> rfl

/-- It is also enough to divide it by two. -/
theorem shiftRightOne_fraction (num : Nat) {den : Nat} (hden : 0 < den) :
    (fraction num den).shiftRightOne = fraction num (den * 2) := by
  have hmod : num % (den * 2) = num % den + den * (num / den % 2) := Nat.mod_mul
  have hlt := Nat.mod_lt num hden
  rw [fraction_eq num hden, fraction_eq num (by omega : 0 < den * 2), hmod]
  simp only [ExtendedMantissa.shiftRightOne, Nat.div_div_eq_div_mul, ExtendedMantissa.mk.injEq,
    true_and]
  rcases Nat.mod_two_eq_zero_or_one (num / den) with h | h <;> rw [h] <;> grind

/-- Bits are shifted out of a quotient as if the divisor had been larger. -/
theorem shiftRight_fraction (num : Nat) {den : Nat} (hden : 0 < den) (n : Nat) :
    fraction num den >>> n = fraction num (den * 2 ^ n) := by
  change n.repeat ExtendedMantissa.shiftRightOne (fraction num den) = _
  induction n with
  | zero => rw [Nat.repeat, pow_zero, mul_one]
  | succ n ih =>
      rw [Nat.repeat, ih, shiftRightOne_fraction _ (by positivity), pow_succ, mul_assoc]

/-! ### Exponents -/

/-- The exponent of the last bit that is kept of a number below `2 ^ t`. -/
theorem targetExponent_eq (t : Int) :
    Format.binary64.targetExponent t = max (t - 53) (-1074) := rfl

/-- All bits of a double are kept. -/
theorem targetExponent_of_canonical (h : Canonical m q) :
    Format.binary64.targetExponent (totalExponent m q) = q := by
  have hle := h.le_exponent
  rw [targetExponent_eq, totalExponent]
  rcases h.normal_or_subnormal with hnormal | rfl
  · rw [log2_of_normal hnormal h.lt]
    omega
  · have hlog : m.log2 < 53 := (Nat.log2_lt h.pos.ne').mpr h.lt
    omega

/-- A quotient is below the power of two at its exponent. -/
theorem lt_two_zpow_totalExponent (num : Nat) {den : Nat} (hden : 0 < den) (e : Int) :
    (num / den : ℚ) * 2 ^ e < 2 ^ totalExponent (num / den) e := by
  have hlt : num < 2 ^ ((num / den).log2 + 1) * den :=
    (Nat.div_lt_iff_lt_mul hden).mp Nat.lt_log2_self
  have hpos : (0 : ℚ) < den := by exact_mod_cast hden
  unfold totalExponent
  rw [zpow_add₀ two_ne_zero]
  gcongr
  rw [div_lt_iff₀ hpos]
  exact_mod_cast hlt

/-- A quotient is at least the power of two before its exponent. -/
theorem two_zpow_totalExponent_le {num den : Nat} (hden : 0 < den) (hquot : num / den ≠ 0)
    (e : Int) : (2 : ℚ) ^ (totalExponent (num / den) e - 1) ≤ (num / den : ℚ) * 2 ^ e := by
  have hle : 2 ^ (num / den).log2 * den ≤ num :=
    (Nat.le_div_iff_mul_le hden).mp (Nat.log2_self_le hquot)
  have hpos : (0 : ℚ) < den := by exact_mod_cast hden
  have hexp : totalExponent (num / den) e - 1 = (num / den).log2 + e := by
    unfold totalExponent
    omega
  rw [hexp, zpow_add₀ two_ne_zero]
  gcongr
  rw [le_div_iff₀ hpos]
  exact_mod_cast hle

/-- A mantissa above a power of two bounds the exponent of what is rounded to it from below. -/
theorem lt_totalExponent_of_nearest {num den k : Nat} {e : Int} (hden : 0 < den) (hk : 2 ^ k < m)
    (h : Nearest m q ((num / den : ℚ) * 2 ^ e)) : k + q < totalExponent (num / den) e := by
  have hpos : (0 : ℚ) < 2 ^ q := by positivity
  have hlow := h.low_le (Nat.zero_lt_of_lt hk)
  rw [le_div_iff₀ hpos] at hlow
  have hm : (2 : ℚ) ^ k + 1 ≤ m := by exact_mod_cast hk
  apply (zpow_lt_zpow_iff_right₀ (one_lt_two : (1 : ℚ) < 2)).mp
  calc (2 : ℚ) ^ (k + q)
    _ = 2 ^ k * 2 ^ q := by rw [zpow_add₀ two_ne_zero, zpow_natCast]
    _ < (m - 1 / 2) * 2 ^ q := by gcongr; linarith
    _ ≤ (num / den : ℚ) * 2 ^ e := hlow
    _ < 2 ^ totalExponent (num / den) e := lt_two_zpow_totalExponent num hden e

/-- A mantissa below a power of two bounds it from above. -/
theorem totalExponent_le_of_nearest {num den k : Nat} {e : Int} (hden : 0 < den)
    (hquot : num / den ≠ 0) (hk : m < 2 ^ k) (h : Nearest m q ((num / den : ℚ) * 2 ^ e)) :
    totalExponent (num / den) e ≤ k + q := by
  have hpos : (0 : ℚ) < 2 ^ q := by positivity
  have hhigh := h.le_high
  rw [div_le_iff₀ hpos] at hhigh
  have hm : (m : ℚ) + 1 ≤ 2 ^ k := by exact_mod_cast hk
  apply Int.le_of_sub_one_lt
  apply (zpow_lt_zpow_iff_right₀ (one_lt_two : (1 : ℚ) < 2)).mp
  calc (2 : ℚ) ^ (totalExponent (num / den) e - 1)
    _ ≤ (num / den : ℚ) * 2 ^ e := two_zpow_totalExponent_le hden hquot e
    _ ≤ (m + 1 / 2) * 2 ^ q := hhigh
    _ < 2 ^ k * 2 ^ q := by gcongr; linarith
    _ = 2 ^ (k + q) := by rw [zpow_add₀ two_ne_zero, zpow_natCast]

/-- A number is rounded at the exponent of the double nearest to it, or, just below a power of
two, at the exponent before. -/
theorem targetExponent_of_nearest {num den : Nat} {e : Int} (hden : 0 < den)
    (he : e ≤ Format.binary64.targetExponent (totalExponent (num / den) e))
    (hcanon : Canonical m q) (h : Nearest m q ((num / den : ℚ) * 2 ^ e)) :
    Format.binary64.targetExponent (totalExponent (num / den) e) = q ∨
      Format.binary64.targetExponent (totalExponent (num / den) e) = q - 1 ∧ -1074 < q ∧
        m = 2 ^ 52 := by
  have hmin := hcanon.le_exponent
  rw [targetExponent_eq] at he ⊢
  have hupper : max (totalExponent (num / den) e - 53) (-1074) ≤ q := by
    by_cases hquot : num / den = 0
    · -- nothing is left before the point, so the number is already cut off at the least exponent
      have hzero : totalExponent (num / den) e = 1 + e := by
        rw [hquot, totalExponent]
        rfl
      omega
    · have := totalExponent_le_of_nearest hden hquot hcanon.lt h
      omega
  by_cases hlower : q ≤ max (totalExponent (num / den) e - 53) (-1074)
  · left
    omega
  · -- the number has fewer bits than the double, which must then be a power of two
    have hnormal : 2 ^ 52 ≤ m := hcanon.normal_or_subnormal.resolve_right (by omega)
    have hpower : m = 2 ^ 52 := by
      by_contra hne
      have := lt_totalExponent_of_nearest hden (by omega : 2 ^ 52 < m) h
      omega
    have := lt_totalExponent_of_nearest hden (by omega : 2 ^ 51 < m) h
    exact .inr ⟨by omega, by omega, hpower⟩

/-! ### Rounding -/

/-- Shifting a number to the exponent of its last bit multiplies the denominator. -/
theorem shiftToTargetExponent_fraction {num den : Nat} {e t : Int} (hden : 0 < den) (he : e ≤ t)
    (ht : Format.binary64.targetExponent (totalExponent (num / den) e) = t) :
    shiftToTargetExponent Format.binary64 (num / den) e (accuracyOfFraction (num % den) den) =
      (fraction num (den * 2 ^ (t - e).toNat), t) := by
  subst ht
  change (fraction num den >>> _, e + (Int.toNat (_ - e) : Int)) = _
  rw [shiftRight_fraction _ hden]
  congr 1
  omega

/-- A double is not shifted. -/
theorem shiftToTargetExponent_of_canonical (h : Canonical m q) :
    shiftToTargetExponent Format.binary64 m q .exact = (⟨m, false, false⟩, q) := by
  unfold shiftToTargetExponent shiftToExponent
  simp only [targetExponent_of_canonical h, Int.sub_self, Int.toNat_zero, Int.natCast_zero,
    Int.add_zero]
  rfl

/-- A carry into one more bit is shifted out again. -/
theorem shiftToTargetExponent_of_carry (hq : -1074 < q) :
    shiftToTargetExponent Format.binary64 (2 ^ 53) (q - 1) .exact =
      (⟨2 ^ 52, false, false⟩, q) := by
  have ht : Format.binary64.targetExponent (totalExponent (2 ^ 53) (q - 1)) = q := by
    rw [targetExponent_eq, totalExponent, Nat.log2_two_pow]
    omega
  have hone : (q - (q - 1)).toNat = 1 := by omega
  unfold shiftToTargetExponent shiftToExponent
  simp only [ht, hone]
  congr 1
  omega

/-- Rounding a fraction, in the two cases of `targetExponent_of_nearest`. -/
theorem roundWithAccuracy_eq (s : Sign) {num den : Nat} {e t : Int} (hden : 0 < den)
    (he : e ≤ t) (ht : Format.binary64.targetExponent (totalExponent (num / den) e) = t)
    (h : Canonical m q)
    (hround : t = q ∧ roundDiv num (den * 2 ^ (t - e).toNat) .even = m ∨
      t = q - 1 ∧ -1074 < q ∧ m = 2 ^ 52 ∧
        roundDiv num (den * 2 ^ (t - e).toNat) .even = 2 ^ 53) :
    roundWithAccuracy Format.binary64 s (num / den) e (accuracyOfFraction (num % den) den) =
      .finite s m q h.pos := by
  have hpos : 0 < den * 2 ^ (t - e).toNat := by positivity
  have hfinal : shiftToTargetExponent Format.binary64
      (roundDiv num (den * 2 ^ (t - e).toNat) .even) t .exact = (⟨m, false, false⟩, q) := by
    rcases hround with ⟨rfl, hround⟩ | ⟨rfl, hq, rfl, hround⟩
    · rw [hround, shiftToTargetExponent_of_canonical h]
    · rw [hround, shiftToTargetExponent_of_carry hq]
  unfold roundWithAccuracy
  simp only [shiftToTargetExponent_fraction hden he ht, roundedMantissa_fraction _ hpos, hfinal]
  rw [dif_neg h.pos.ne']

/-- A quotient in larger steps. -/
theorem div_shifted_eq {num den : Nat} {e t : Int} (he : e ≤ t) :
    (num / (den * 2 ^ (t - e).toNat : Nat) : ℚ) = (num / den : ℚ) * 2 ^ e / 2 ^ t := by
  obtain ⟨n, rfl⟩ : ∃ n : Nat, t = e + n := ⟨(t - e).toNat, by omega⟩
  have hn : (e + n - e).toNat = n := by omega
  rw [hn, zpow_add₀ two_ne_zero, zpow_natCast]
  push_cast
  field_simp

/-- **A fraction is rounded to the double nearest to it.** -/
theorem roundWithAccuracy_of_nearest (s : Sign) (num : Nat) {den : Nat} {e : Int}
    (hden : 0 < den) (he : e ≤ Format.binary64.targetExponent (totalExponent (num / den) e))
    (hcanon : Canonical m q) (h : Nearest m q ((num / den : ℚ) * 2 ^ e)) :
    roundWithAccuracy Format.binary64 s (num / den) e (accuracyOfFraction (num % den) den) =
      .finite s m q hcanon.pos := by
  have hpos (t : Int) : 0 < den * 2 ^ (t - e).toNat := by positivity
  refine roundWithAccuracy_eq s hden he rfl hcanon ?_
  rcases targetExponent_of_nearest hden he hcanon h with ht | ⟨ht, hq, rfl⟩
  · left
    rw [ht] at he ⊢
    refine ⟨rfl, roundDiv_eq_of_near (hpos q) ?_ ?_ ?_⟩
    · rw [div_shifted_eq he]
      exact h.low_le hcanon.pos
    · rw [div_shifted_eq he]
      exact h.le_high
    · rw [div_shifted_eq he]
      exact h.even_of_tie hcanon.pos
  · right
    have hlow := h.low_le_of_power hq
    have hlt := lt_two_zpow_totalExponent num hden e
    have htotal : totalExponent (num / den) e ≤ q - 1 + 53 := by
      rw [targetExponent_eq] at ht
      omega
    rw [ht] at he ⊢
    refine ⟨rfl, hq, rfl, roundDiv_eq_of_near (hpos (q - 1)) ?_ ?_ fun _ => rfl⟩
    · rw [div_shifted_eq he, zpow_sub₀ two_ne_zero]
      push_cast
      field_simp at hlow ⊢
      linarith
    · rw [div_shifted_eq he, div_le_iff₀ (by positivity)]
      calc (num / den : ℚ) * 2 ^ e
        _ ≤ 2 ^ (q - 1 + 53) := hlt.le.trans (zpow_le_zpow_right₀ one_le_two htotal)
        _ = 2 ^ 53 * 2 ^ (q - 1) := by rw [zpow_add₀ two_ne_zero, mul_comm]; rfl
        _ ≤ ((2 ^ 53 : Nat) + 1 / 2) * 2 ^ (q - 1) := by gcongr; norm_num

/-! ### Products and quotients -/

/-- Whether a value comes from rounding a fraction that is a given number, at an exponent that
leaves enough bits. -/
def IsRounding (x : ℚ) (u : UnpackedFloat) : Prop :=
  ∃ (num den : Nat) (e : Int), 0 < den ∧
    e ≤ Format.binary64.targetExponent (totalExponent (num / den) e) ∧
    (num / den : ℚ) * 2 ^ e = x ∧
    u = roundWithAccuracy Format.binary64 .positive (num / den) e
      (accuracyOfFraction (num % den) den)

/-- **What is rounded is the double nearest to it.** -/
theorem IsRounding.eq_of_nearest {u : UnpackedFloat} (hu : IsRounding x u)
    (hcanon : Canonical m q) (h : Nearest m q x) : u = .finite .positive m q hcanon.pos := by
  obtain ⟨num, den, e, hden, he, rfl, rfl⟩ := hu
  exact roundWithAccuracy_of_nearest .positive num hden he hcanon h

/-- A product is rounded from its exact value. The factors need not be doubles, as long as they
have enough bits between them. -/
theorem isRounding_mul {m₁ m₂ : Nat} {e₁ e₂ : Int} (h₁ : 0 < m₁) (h₂ : 0 < m₂)
    (hbits : 2 ^ 52 ≤ m₁ * m₂) :
    IsRounding (m₁ * 2 ^ e₁ * (m₂ * 2 ^ e₂)) (UnpackedFloat.mul Format.binary64
      (.finite .positive m₁ e₁ h₁) (.finite .positive m₂ e₂ h₂)) := by
  have hlog : 52 ≤ (m₁ * m₂).log2 := (Nat.le_log2 (by omega)).mpr hbits
  have hvalue : ((m₁ * m₂ : Nat) / (1 : Nat) : ℚ) * 2 ^ (e₁ + e₂) =
      m₁ * 2 ^ e₁ * (m₂ * 2 ^ e₂) := by
    rw [zpow_add₀ two_ne_zero]
    push_cast
    ring
  refine ⟨m₁ * m₂, 1, e₁ + e₂, Nat.one_pos, ?_, hvalue, ?_⟩
  · rw [Nat.div_one, targetExponent_eq, totalExponent]
    omega
  · rw [Nat.div_one, Nat.mod_one]
    rfl

/-- A quotient has no fewer binary places before its point than its parts say. -/
theorem totalExponent_sub_le {m₁ m₂ num : Nat} {e₁ e₂ t : Int} (h₁ : 0 < m₁) (h₂ : 0 < m₂)
    (hvalue : (num / m₂ : ℚ) * 2 ^ t = m₁ * 2 ^ e₁ / (m₂ * 2 ^ e₂)) :
    totalExponent m₁ e₁ - totalExponent m₂ e₂ ≤ totalExponent (num / m₂) t := by
  have hnum : (2 : ℚ) ^ (totalExponent m₁ e₁ - 1) ≤ m₁ * 2 ^ e₁ := by
    simpa using two_zpow_totalExponent_le Nat.one_pos (by rw [Nat.div_one]; omega : m₁ / 1 ≠ 0) e₁
  have hden : m₂ * 2 ^ e₂ < (2 : ℚ) ^ totalExponent m₂ e₂ := by
    simpa using lt_two_zpow_totalExponent m₂ Nat.one_pos e₂
  have hquot := lt_two_zpow_totalExponent num h₂ t
  have hpos : (0 : ℚ) < m₂ * 2 ^ e₂ := by positivity
  have hexp : totalExponent m₁ e₁ - 1 < totalExponent (num / m₂) t + totalExponent m₂ e₂ := by
    apply (zpow_lt_zpow_iff_right₀ (one_lt_two : (1 : ℚ) < 2)).mp
    calc (2 : ℚ) ^ (totalExponent m₁ e₁ - 1)
      _ ≤ m₁ * 2 ^ e₁ := hnum
      _ = (num / m₂ : ℚ) * 2 ^ t * (m₂ * 2 ^ e₂) := by rw [hvalue, div_mul_cancel₀ _ hpos.ne']
      _ < 2 ^ totalExponent (num / m₂) t * 2 ^ totalExponent m₂ e₂ := by gcongr
      _ = _ := (zpow_add₀ two_ne_zero _ _).symm
  omega

/-- A quotient is rounded from its exact value. -/
theorem isRounding_div {m₁ m₂ : Nat} {e₁ e₂ : Int} (h₁ : 0 < m₁) (h₂ : 0 < m₂) :
    IsRounding (m₁ * 2 ^ e₁ / (m₂ * 2 ^ e₂)) (UnpackedFloat.div Format.binary64
      (.finite .positive m₁ e₁ h₁) (.finite .positive m₂ e₂ h₂)) := by
  let t := min (e₁ - e₂)
    (Format.binary64.targetExponent (totalExponent m₁ e₁ - totalExponent m₂ e₂))
  let n := (e₁ - e₂ - t).toNat
  have ht : t ≤ e₁ - e₂ := min_le_left _ _
  have hvalue : ((m₁ <<< n : Nat) / m₂ : ℚ) * 2 ^ t = m₁ * 2 ^ e₁ / (m₂ * 2 ^ e₂) := by
    have he : e₁ = e₂ + (n + t) := by omega
    rw [Nat.shiftLeft_eq, he, zpow_add₀ two_ne_zero, zpow_add₀ two_ne_zero, zpow_natCast]
    push_cast
    field_simp
  refine ⟨m₁ <<< n, m₂, t, h₂, ?_, hvalue, rfl⟩
  calc t
    _ ≤ Format.binary64.targetExponent (totalExponent m₁ e₁ - totalExponent m₂ e₂) :=
      min_le_right _ _
    _ ≤ Format.binary64.targetExponent (totalExponent (m₁ <<< n / m₂) t) := by
      have := totalExponent_sub_le h₁ h₂ hvalue
      rw [targetExponent_eq, targetExponent_eq]
      omega

end DryRun.Double
