import DryRun.Proofs.Number.Rounded
import DryRun.Proofs.Number.Shortest
import DryRun.Word

/-!
# Numbers with one decimal

Commands are told apart by their number in tenths: the number is multiplied by ten and rounded to an
integer. Most numbers with one decimal are no doubles. The double that such a number is read as is
off by a small part of it, and so is its product with ten. But each of the two roundings is off by
less than a part in `2 ^ 52`, and codes are far too small for that to matter: what comes out is the
number of tenths that was written.

## Main results

* `Double.Rounds.exists_near`: how far a double is from what it was rounded from.
* `Double.toCode_of_rounds`: the code of a number with one decimal is its number of tenths.
-/

namespace DryRun.Double

open Float.Model (UnpackedFloat Format totalExponent)
open Float.Model.UnpackedFloat

variable {s : Sign} {x : ℚ} {u : UnpackedFloat}

/-! ### One rounding -/

/-- What is neither small nor large is nearest to a normal double. -/
theorem Nearest.normal {m : Nat} {q : Int} (hcanon : Canonical m q) (h : Nearest m q x)
    (hlow : 1 / 16 ≤ x) : 2 ^ 52 ≤ m := by
  refine hcanon.normal_or_subnormal.resolve_right ?_
  rintro rfl
  have hm : (m : ℚ) + 1 / 2 ≤ 2 ^ 53 := by
    have : (m : ℚ) + 1 ≤ 2 ^ 53 := by exact_mod_cast hcanon.lt
    linarith
  have hsmall : x < 1 / 16 :=
    calc x
      _ ≤ (m + 1 / 2) * 2 ^ (-1074 : Int) := (div_le_iff₀ (by positivity)).1 h.le_high
      _ ≤ 2 ^ (53 : Int) * 2 ^ (-1074 : Int) := by gcongr; exact_mod_cast hm
      _ = 2 ^ (-1021 : Int) := (zpow_add₀ two_ne_zero _ _).symm
      _ < 2 ^ (-4 : Int) := zpow_lt_zpow_right₀ one_lt_two (by norm_num)
      _ = 1 / 16 := by norm_num
  linarith

/-- Codes are far below the numbers at which doubles overflow. -/
theorem two_pow_lt_overflow : (2 : ℚ) ^ 32 < overflow :=
  calc (2 : ℚ) ^ 32
    _ < 2 ^ 53 - 1 / 2 := by norm_num
    _ ≤ (2 ^ 53 - 1 / 2) * 2 ^ (971 : Int) :=
      le_mul_of_one_le_right (by norm_num) (one_le_zpow₀ one_le_two (by norm_num))

/-- **What is neither small nor large is rounded to a normal double**, and the double is off by less
than a part in `2 ^ 52`. -/
theorem Rounds.exists_near (h : Rounds s x u) (hlow : 1 / 16 ≤ x) (hhigh : x ≤ 2 ^ 32) :
    ∃ (m : Nat) (q : Int) (hm : 0 < m), u = .finite s m q hm ∧ 2 ^ 52 ≤ m ∧
      x - x / 2 ^ 52 ≤ m * 2 ^ q ∧ m * 2 ^ q ≤ x + x / 2 ^ 52 := by
  cases u with
  | notANumber => exact h.elim
  | zero s' =>
      have hsmall : (2 : ℚ) ^ (-1075 : Int) < 1 / 16 :=
        calc (2 : ℚ) ^ (-1075 : Int)
          _ < 2 ^ (-4 : Int) := zpow_lt_zpow_right₀ one_lt_two (by norm_num)
          _ = 1 / 16 := by norm_num
      exact absurd (hlow.trans h.2) (not_le.2 hsmall)
  | infinity s' => exact absurd (h.2.trans hhigh) (not_le.2 two_pow_lt_overflow)
  | finite s' m q hm =>
      obtain ⟨rfl, hcanon, hnear⟩ := h
      have hnormal := hnear.normal hcanon hlow
      have hbelow := hnear.low_le hm
      have habove := hnear.le_high
      obtain ⟨t, rfl⟩ : ∃ t, x = t * 2 ^ q := ⟨x / 2 ^ q, (div_mul_cancel₀ x (by positivity)).symm⟩
      rw [mul_div_cancel_right₀ t (by positivity)] at hbelow habove
      -- the mantissa is off by one half at most, which is less than a part in `2 ^ 52` of it
      have hhalf : 1 / 2 ≤ t / 2 ^ 52 := by
        have : (2 ^ 52 : ℚ) ≤ m := by exact_mod_cast hnormal
        rw [le_div_iff₀ (by norm_num)]
        linarith
      refine ⟨m, q, hm, rfl, hnormal, ?_, ?_⟩
      · calc t * 2 ^ q - t * 2 ^ q / 2 ^ 52
          _ = (t - t / 2 ^ 52) * 2 ^ q := by ring
          _ ≤ m * 2 ^ q := by gcongr; linarith
      · calc (m : ℚ) * 2 ^ q
          _ ≤ (t + t / 2 ^ 52) * 2 ^ q := by gcongr; linarith
          _ = t * 2 ^ q + t * 2 ^ q / 2 ^ 52 := by ring

/-- Zero is rounded to a zero. -/
theorem Rounds.eq_zero (h : Rounds s 0 u) : u = .zero s := by
  cases u with
  | notANumber => exact h.elim
  | zero s' => rw [h.1]
  | infinity s' =>
      exact absurd h.2 (not_le.2 (two_pow_lt_overflow.trans' (by norm_num)))
  | finite s' m q hm =>
      have hpos : (0 : ℚ) < 2 ^ (-1075 : Int) := by positivity
      exact absurd (h.2.2.ge h.2.1) (not_le.2 hpos)

/-! ### The product with ten -/

/-- Ten is a normal double. -/
theorem isNormal_ten : IsNormal (Scalar.ofNat 10) 10 := by
  have hten : (Scalar.ofNat 10 : Float) = Float.exactlyRepresentablePowersOfTen[1] := by
    decide +kernel
  rw [hten]
  exact pow_one (10 : ℚ) ▸ isNormal_powerOfTen (by norm_num)

/-- The product with ten in the model of doubles. -/
theorem toModel_mul_ten (y : Float) :
    (y * Scalar.ofNat 10).toModel = .pack (UnpackedFloat.mul Format.binary64 y.toModel.unpack
      (Scalar.ofNat 10 : Float).toModel.unpack) := rfl

/-- The product of a normal double with ten is rounded from its exact value. -/
theorem rounds_mul_ten {y : Float} {m : Nat} {q : Int} {hm : 0 < m}
    (h : y.toModel.unpack = .finite s m q hm) (hnormal : 2 ^ 52 ≤ m) :
    Rounds s (m * 2 ^ q * 10) (y * Scalar.ofNat 10).toModel.unpack := by
  obtain ⟨n, e, hn, hten, -, hvalue⟩ := isNormal_ten
  have hbits : 52 ≤ (m * n).log2 := (Nat.le_log2 (by positivity)).2 (by nlinarith)
  have hround := rounds_roundWithAccuracy s (m * n) (e := q + e) Nat.one_pos (by
    rw [Nat.div_one, targetExponent_eq, totalExponent]
    omega)
  have hexact : ((m * n : Nat) / (1 : Nat) : ℚ) * 2 ^ (q + e) = m * 2 ^ q * 10 := by
    rw [← hvalue, zpow_add₀ two_ne_zero]
    push_cast
    ring
  rw [hexact, Nat.div_one, Nat.mod_one] at hround
  rw [toModel_mul_ten, h, hten]
  cases s <;> exact hround

/-- The product of a zero with ten is a zero. -/
theorem unpack_zero_mul_ten {y : Float} (h : y.toModel.unpack = .zero s) :
    (y * Scalar.ofNat 10).toModel.unpack = .zero s := by
  obtain ⟨n, e, hn, hten, -⟩ := isNormal_ten
  rw [toModel_mul_ten, h, hten, UnpackedFloat.mul]
  cases s <;> rfl

/-! ### Rounding to an integer -/

/-- A quotient that is less than one half away from a natural number is rounded to it, whatever is
done with halves. -/
theorem roundDiv_eq_of_lt {num den n : Nat} (hden : 0 < den) (hlow : n - 1 / 2 < (num / den : ℚ))
    (hhigh : (num / den : ℚ) < n + 1 / 2) (tie : Tie) : roundDiv num den tie = n := by
  have heven : roundDiv num den .even = n :=
    roundDiv_eq_of_near hden hlow.le hhigh.le (by rintro (h | h) <;> linarith)
  rw [← heven]
  unfold roundDiv
  rcases lt_trichotomy (2 * (num % den)) den with h | h | h
  · simp only [Nat.compare_eq_lt.mpr h]
  · -- the quotient would be half way between two natural numbers
    have hpos : (0 : ℚ) < den := by exact_mod_cast hden
    have hhalf : (num / den : ℚ) = (num / den : Nat) + 1 / 2 := by
      have hsplit : (den * (num / den : Nat) + (num % den : Nat) : ℚ) = num := by
        exact_mod_cast Nat.div_add_mod num den
      have hrest : (2 * (num % den : Nat) : ℚ) = den := by exact_mod_cast h
      rw [div_eq_iff hpos.ne']
      linarith
    rw [hhalf] at hlow hhigh
    have hle : n < num / den + 1 := by
      have : (n : ℚ) < (num / den : Nat) + 1 := by linarith
      exact_mod_cast this
    have hlt : num / den < n := by
      have : ((num / den : Nat) : ℚ) < n := by linarith
      exact_mod_cast this
    omega
  · simp only [Nat.compare_eq_gt.mpr h]

/-- A double whose magnitude is less than one half away from a natural number is rounded to it. -/
theorem roundBetween_of_near {y : Float} {m n : Nat} {q lo hi : Int} {hm : 0 < m}
    (h : y.toModel.unpack = .finite s m q hm) (hlow : n - 1 / 2 < (m * 2 ^ q : ℚ))
    (hhigh : (m * 2 ^ q : ℚ) < n + 1 / 2) :
    Scalar.roundBetween lo hi y = clamp lo hi (if isNegative s then -(n : Int) else n) := by
  obtain ⟨hden, hvalue⟩ := binaryRatio_value m q
  have hround : roundDiv (binaryRatio m q).1 (binaryRatio m q).2 .up = n :=
    roundDiv_eq_of_lt hden (by rwa [hvalue]) (by rwa [hvalue]) .up
  change toIntBetween _ lo hi y = _
  rw [toIntBetween, h]
  simp only [hround]

/-- A number within the bounds is left as it is. -/
theorem clamp_of_mem {lo hi n : Int} (hlo : lo ≤ n) (hhi : n ≤ hi) : clamp lo hi n = n := by
  rw [clamp, if_neg (by omega), if_neg (by omega)]

/-- **The code of a number with one decimal is its number of tenths**, though neither the number nor
its product with ten need be a double. -/
theorem toCode_of_rounds {v : Float} {c : Nat} {n : Int} (h : Rounds s (c / 10) v.toModel.unpack)
    (hn : n = if isNegative s then -(c : Int) else c) (hmin : minCode ≤ n) (hmax : n ≤ maxCode) :
    toCode v = n := by
  suffices hcode : toCode v = clamp minCode maxCode n by rw [hcode, clamp_of_mem hmin hmax]
  rw [toCode, hn]
  rcases Nat.eq_zero_or_pos c with rfl | hc
  · rw [Nat.cast_zero, zero_div] at h
    change toIntBetween _ minCode maxCode _ = _
    rw [toIntBetween, unpack_zero_mul_ten h.eq_zero]
    simp
  · have hone : (1 : ℚ) ≤ c := by exact_mod_cast hc
    have hsize : (c : ℚ) ≤ 2 ^ 31 := by
      have : c ≤ 2 ^ 31 := by
        rw [minCode] at hmin
        rw [maxCode] at hmax
        split at hn <;> omega
      exact_mod_cast this
    obtain ⟨m, q, hm, hunpack, hnormal, hlow, hhigh⟩ :=
      h.exists_near (by linarith) (by linarith)
    obtain ⟨m', q', hm', hunpack', -, hlow', hhigh'⟩ :=
      (rounds_mul_ten hunpack hnormal).exists_near (by linarith) (by linarith)
    exact roundBetween_of_near hunpack' (by linarith) (by linarith)

end DryRun.Double
