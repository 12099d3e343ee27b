import DryRun.Proofs.Number.Growth
import DryRun.Proofs.Number.OfDecimal

/-!
# Every decimal is read as the nearest double

A decimal that lies in the interval of a double is read as that double (`Double.OfDecimal`). This
module completes the picture: every decimal lies in the interval of a double, or is at most half
of the least double, or is at least half a step above the largest one. It is read as the double,
as a zero or as an infinity (`Double.Rounds`).

The three cases are found where a fraction is rounded: at the exponent that was chosen for it, its
mantissa is rounded to nothing, to at most 53 bits, or to the power of two above them. The rest is
to see that multiplication, division and the reading of large decimals all come down to rounding
one fraction (`Double.IsRounding`).

## Main results

* `Double.IsRounding.rounds`: what rounding a fraction leads to.
* `Double.rounds_ofDecimal`: every decimal is read as what it rounds to.
* `Double.isFinite_ofDecimal`: so it is finite exactly if it is not too large.
-/

namespace DryRun.Double

open Float.Model (UnpackedFloat Format totalExponent)
open Float.Model.UnpackedFloat

variable {m num den : Nat} {q e t : Int} {x : ℚ} {s : Sign}

/-! ### What a magnitude rounds to -/

/-- The least magnitude that is too large for a double: it is half way between the largest double
and the power of two above it. -/
def overflow : ℚ := (2 ^ 53 - 1 / 2) * 2 ^ (971 : Int)

/-- Whether a double is what a magnitude rounds to, with the given sign: the nearest double, of two
such doubles the even one, a zero for what is at most half of the least double, and an infinity for
what is too large. -/
def Rounds (s : Sign) (x : ℚ) : UnpackedFloat → Prop
  | .zero s' => s' = s ∧ x ≤ 2 ^ (-1075 : Int)
  | .finite s' m q _ => s' = s ∧ Canonical m q ∧ Nearest m q x
  | .infinity s' => s' = s ∧ overflow ≤ x
  | .notANumber => False

/-- A number that is at most one half away from a mantissa is nearest to it, with ties going to the
even mantissa, and with half of the distance below a power of two. -/
theorem nearest_of_near (hm : 0 < m) (hlow : m - 1 / 2 ≤ x / 2 ^ q) (hhigh : x / 2 ^ q ≤ m + 1 / 2)
    (htie : x / 2 ^ q = m - 1 / 2 ∨ x / 2 ^ q = m + 1 / 2 → m % 2 = 0)
    (hpower : m = 2 ^ 52 → -1074 < q → (m : ℚ) - 1 / 4 ≤ x / 2 ^ q) : Nearest m q x := by
  unfold Nearest Interval.Contains
  rw [quarters_eq, low_eq hm, high_eq]
  by_cases heven : m % 2 = 0
  · have hclosed : (interval m q).closed = true := decide_eq_true heven
    rw [hclosed, if_pos rfl]
    constructor
    · split
      · next h => linarith [hpower h.1 h.2]
      · linarith
    · linarith
  · have hopen : (interval m q).closed = false := decide_eq_false heven
    have hlt := lt_of_le_of_ne hlow fun h => heven (htie (.inl h.symm))
    have hlt' := lt_of_le_of_ne hhigh fun h => heven (htie (.inr h))
    have hm' : ¬(m = 2 ^ 52 ∧ -1074 < q) := fun h => heven (by rw [h.1]; rfl)
    rw [hopen, if_neg Bool.false_ne_true, if_neg hm']
    constructor <;> linarith

/-- A quotient is rounded to a natural number that is at most one half away from it, and to the
even one of two such numbers. -/
theorem roundDiv_near (num : Nat) (hden : 0 < den) :
    (roundDiv num den .even - 1 / 2 : ℚ) ≤ num / den ∧
      (num / den : ℚ) ≤ roundDiv num den .even + 1 / 2 ∧
      ((num / den : ℚ) = roundDiv num den .even - 1 / 2 ∨
        (num / den : ℚ) = roundDiv num den .even + 1 / 2 → roundDiv num den .even % 2 = 0) := by
  have hpos : (0 : ℚ) < den := by exact_mod_cast hden
  have hsplit : (num / den : ℚ) = (num / den : Nat) + (num % den : Nat) / den := by
    rw [add_div' _ _ _ hpos.ne', div_left_inj' hpos.ne']
    exact_mod_cast (Nat.div_add_mod' num den).symm
  have hrest : (0 : ℚ) ≤ (num % den : Nat) / den := by positivity
  have hrest' : ((num % den : Nat) / den : ℚ) < 1 := by
    rw [div_lt_one hpos]
    exact_mod_cast Nat.mod_lt num hden
  rw [hsplit]
  unfold roundDiv
  rcases lt_trichotomy (2 * (num % den)) den with h | h | h
  · have hhalf : ((num % den : Nat) / den : ℚ) < 1 / 2 := by
      rw [div_lt_div_iff₀ hpos two_pos]
      exact_mod_cast (by omega : num % den * 2 < 1 * den)
    simp only [Nat.compare_eq_lt.mpr h]
    refine ⟨by linarith, by linarith, ?_⟩
    rintro (htie | htie) <;> linarith
  · have hhalf : ((num % den : Nat) / den : ℚ) = 1 / 2 := by
      rw [div_eq_div_iff hpos.ne' two_ne_zero]
      exact_mod_cast (by omega : num % den * 2 = 1 * den)
    simp only [Nat.compare_eq_eq.mpr h, hhalf]
    rcases Nat.mod_two_eq_zero_or_one (num / den) with heven | hodd
    · rw [heven]
      refine ⟨?_, ?_, fun _ => by omega⟩ <;> push_cast <;> linarith
    · rw [hodd]
      refine ⟨?_, ?_, fun _ => by omega⟩ <;> push_cast <;> linarith
  · have hhalf : 1 / 2 < ((num % den : Nat) / den : ℚ) := by
      rw [div_lt_div_iff₀ two_pos hpos]
      exact_mod_cast (by omega : 1 * den < num % den * 2)
    simp only [Nat.compare_eq_gt.mpr h]
    push_cast
    refine ⟨by linarith, by linarith, ?_⟩
    rintro (htie | htie) <;> linarith

/-! ### Rounding a fraction -/

/-- The mantissa of a fraction at the exponent that is chosen for it: it is below `2 ^ 53`, and at
least `2 ^ 52` unless the exponent is the least. -/
theorem mantissa_bounds (hden : 0 < den)
    (ht : Format.binary64.targetExponent (totalExponent (num / den) e) = t) (he : e ≤ t) :
    (num / den : ℚ) * 2 ^ e / 2 ^ t < 2 ^ 53 ∧
      (t = -1074 ∨ -1074 < t ∧ 2 ^ 52 ≤ (num / den : ℚ) * 2 ^ e / 2 ^ t) := by
  have hpos : (0 : ℚ) < 2 ^ t := by positivity
  have hlt := lt_two_zpow_totalExponent num hden e
  rw [targetExponent_eq] at ht
  constructor
  · rw [div_lt_iff₀ hpos]
    calc (num / den : ℚ) * 2 ^ e
      _ < 2 ^ totalExponent (num / den) e := hlt
      _ ≤ 2 ^ (53 + t) := zpow_le_zpow_right₀ one_le_two (by omega)
      _ = 2 ^ 53 * 2 ^ t := by rw [zpow_add₀ two_ne_zero]; rfl
  · by_cases hmin : t = -1074
    · exact .inl hmin
    · -- a fraction that is cut off to nothing would be rounded at the least exponent
      have hquot : num / den ≠ 0 := by
        intro hzero
        have htotal : totalExponent 0 e = 1 + e := by rw [totalExponent]; rfl
        rw [hzero, htotal] at ht
        omega
      have hle := two_zpow_totalExponent_le hden hquot e
      refine .inr ⟨by omega, ?_⟩
      rw [le_div_iff₀ hpos]
      calc (2 : ℚ) ^ 52 * 2 ^ t
        _ = 2 ^ (52 + t) := by rw [zpow_add₀ two_ne_zero]; rfl
        _ ≤ 2 ^ (totalExponent (num / den) e - 1) := zpow_le_zpow_right₀ one_le_two (by omega)
        _ ≤ _ := hle

/-- Rounding a fraction leaves nothing, or a mantissa, or a carry. -/
theorem roundWithAccuracy_cases (s : Sign) (hden : 0 < den) (he : e ≤ t)
    (ht : Format.binary64.targetExponent (totalExponent (num / den) e) = t) {r : Nat}
    (hr : roundDiv num (den * 2 ^ (t - e).toNat) .even = r) (hle : r ≤ 2 ^ 53) :
    roundWithAccuracy Format.binary64 s (num / den) e (accuracyOfFraction (num % den) den) =
      if h : r = 0 then .zero s
      else if r < 2 ^ 53 then .finite s r t (Nat.pos_of_ne_zero h)
      else .finite s (2 ^ 52) (t + 1) (by positivity) := by
  have hpos : 0 < den * 2 ^ (t - e).toNat := by positivity
  have hmin : -1074 ≤ t := by
    rw [targetExponent_eq] at ht
    omega
  unfold roundWithAccuracy
  simp only [shiftToTargetExponent_fraction hden he ht, roundedMantissa_fraction _ hpos, hr]
  by_cases hlt : r < 2 ^ 53
  · simp only [shiftToTargetExponent_of_lt hlt hmin, hlt, if_true]
  · obtain rfl : r = 2 ^ 53 := by omega
    have hcarry := shiftToTargetExponent_of_carry (q := t + 1) (by omega)
    rw [Int.add_sub_cancel] at hcarry
    simp only [hcarry]
    rfl

/-- A double is held without loss, and what has too large an exponent becomes an infinity. -/
theorem rounds_pack (hm : 0 < m) (hcanon : q ≤ 971 → Canonical m q ∧ Nearest m q x)
    (hlarge : 971 < q → overflow ≤ x) :
    Rounds s x (Float.Model.pack (.finite s m q hm)).unpack := by
  by_cases hq : q ≤ 971
  · obtain ⟨hcanon, hnearest⟩ := hcanon hq
    rw [unpack_pack s hcanon]
    exact ⟨rfl, hcanon, hnearest⟩
  · rw [pack_overflow s hm (by omega), unpack_pack_infinity]
    exact ⟨rfl, hlarge (by omega)⟩

/-- A magnitude of at least so many units of a large exponent is too large. -/
theorem overflow_le {a : ℚ} (ha : 2 ^ 53 - 1 / 2 ≤ a * 2 ^ (t - 971)) (h : a ≤ x / 2 ^ t) :
    overflow ≤ x := by
  have hpos : (0 : ℚ) < 2 ^ t := by positivity
  rw [le_div_iff₀ hpos] at h
  calc overflow
    _ ≤ a * 2 ^ (t - 971) * 2 ^ (971 : Int) := by unfold overflow; gcongr
    _ = a * 2 ^ t := by rw [mul_assoc, ← zpow_add₀ two_ne_zero, Int.sub_add_cancel]
    _ ≤ x := h

/-- A magnitude whose mantissa is rounded to nothing is at most half of the least double. -/
theorem le_of_mantissa_zero (hhigh : x / 2 ^ (-1074 : Int) ≤ (0 : Nat) + 1 / 2) :
    x ≤ 2 ^ (-1075 : Int) := by
  rw [Nat.cast_zero, zero_add, div_le_iff₀ (by positivity), one_div, ← zpow_neg_one,
    ← zpow_add₀ two_ne_zero] at hhigh
  exact hhigh

/-- A magnitude whose mantissa is rounded to at most 53 bits. -/
theorem rounds_of_mantissa (hm : 0 < m) (hlt : m < 2 ^ 53) (hlow : m - 1 / 2 ≤ x / 2 ^ t)
    (hhigh : x / 2 ^ t ≤ m + 1 / 2)
    (htie : x / 2 ^ t = m - 1 / 2 ∨ x / 2 ^ t = m + 1 / 2 → m % 2 = 0)
    (hnormal : t = -1074 ∨ -1074 < t ∧ 2 ^ 52 ≤ x / 2 ^ t) :
    Rounds s x (Float.Model.pack (.finite s m t hm)).unpack := by
  have hge : t = -1074 ∨ -1074 < t ∧ 2 ^ 52 ≤ m := by
    refine hnormal.imp_right fun ⟨hmin, hge⟩ => ⟨hmin, ?_⟩
    have : ((2 ^ 52 : Nat) : ℚ) < (m + 1 : Nat) := by push_cast; linarith
    exact Nat.le_of_lt_succ (by exact_mod_cast this)
  refine rounds_pack hm (fun hq => ⟨⟨hm, hlt, by omega, hq, by omega⟩, ?_⟩) fun hq => ?_
  · refine nearest_of_near hm hlow hhigh htie fun hpower hmin => ?_
    rcases hnormal with rfl | ⟨-, hge⟩
    · omega
    · rw [hpower]
      push_cast
      linarith
  · rcases hnormal with rfl | ⟨-, hge⟩
    · omega
    · refine overflow_le ?_ hge
      calc (2 ^ 53 - 1 / 2 : ℚ)
        _ ≤ 2 ^ 52 * 2 ^ (1 : Int) := by norm_num
        _ ≤ 2 ^ 52 * 2 ^ (t - 971) := by
          gcongr
          · exact one_le_two
          · omega

/-- A magnitude whose mantissa is rounded up to a power of two, which carries to the exponent. -/
theorem rounds_of_carry (hmin : -1074 ≤ t) (hlow : 2 ^ 53 - 1 / 2 ≤ x / 2 ^ t)
    (hlt : x / 2 ^ t < 2 ^ 53) :
    Rounds s x (Float.Model.pack (.finite s (2 ^ 52) (t + 1) (by positivity))).unpack := by
  refine rounds_pack _ (fun hq => ⟨⟨by positivity, by omega, by omega, hq, .inl le_rfl⟩, ?_⟩)
    fun hq => ?_
  · have hhalf : x / 2 ^ (t + 1) = x / 2 ^ t / 2 := by
      rw [zpow_add_one₀ two_ne_zero, div_mul_eq_div_div]
    refine nearest_of_near (by positivity) ?_ ?_ (fun _ => by norm_num) fun _ _ => ?_ <;>
      · rw [hhalf]
        push_cast
        linarith
  · refine overflow_le (le_mul_of_one_le_right (by norm_num) ?_) hlow
    exact one_le_zpow₀ one_le_two (by omega)

/-- **Rounding a fraction leads to what it rounds to.** -/
theorem rounds_roundWithAccuracy (s : Sign) (num : Nat) (hden : 0 < den)
    (he : e ≤ Format.binary64.targetExponent (totalExponent (num / den) e)) :
    Rounds s ((num / den : ℚ) * 2 ^ e) (Float.Model.pack (roundWithAccuracy Format.binary64 s
      (num / den) e (accuracyOfFraction (num % den) den))).unpack := by
  obtain ⟨t, ht⟩ : ∃ t, Format.binary64.targetExponent (totalExponent (num / den) e) = t :=
    ⟨_, rfl⟩
  rw [ht] at he
  obtain ⟨r, hr⟩ : ∃ r, roundDiv num (den * 2 ^ (t - e).toNat) .even = r := ⟨_, rfl⟩
  obtain ⟨hlt, hnormal⟩ := mantissa_bounds hden ht he
  have hnear := roundDiv_near num (by positivity : 0 < den * 2 ^ (t - e).toNat)
  rw [div_shifted_eq he, hr] at hnear
  generalize (num / den : ℚ) * 2 ^ e = x at *
  obtain ⟨hlow, hhigh, htie⟩ := hnear
  have hle : r ≤ 2 ^ 53 := by
    have : (r : ℚ) < (2 ^ 53 + 1 : Nat) := by push_cast; linarith
    exact Nat.le_of_lt_succ (by exact_mod_cast this)
  rw [roundWithAccuracy_cases s hden he ht hr hle]
  by_cases hzero : r = 0
  · rw [dif_pos hzero]
    subst hzero
    obtain rfl : t = -1074 := by
      refine hnormal.resolve_right fun ⟨_, hge⟩ => ?_
      norm_num at hhigh hge
      linarith
    cases s <;> exact ⟨rfl, le_of_mantissa_zero hhigh⟩
  · rw [dif_neg hzero]
    split
    · next hsmall =>
        exact rounds_of_mantissa (Nat.pos_of_ne_zero hzero) hsmall hlow hhigh htie hnormal
    · obtain rfl : r = 2 ^ 53 := by omega
      push_cast at hlow
      exact rounds_of_carry (by omega) hlow hlt

theorem IsRounding.rounds {u : UnpackedFloat} (h : IsRounding x u) :
    Rounds .positive x (Float.Model.pack u).unpack := by
  obtain ⟨num, den, e, hden, he, rfl, rfl⟩ := h
  exact rounds_roundWithAccuracy .positive num hden he

/-- A sign does not change what a magnitude rounds to. -/
theorem Rounds.neg {u : UnpackedFloat} (h : Rounds .positive x u) :
    Rounds .negative x (Float.Model.pack u.neg).unpack := by
  cases u with
  | zero s =>
      obtain ⟨rfl, hx⟩ := h
      exact ⟨rfl, hx⟩
  | finite s m q hm =>
      obtain ⟨rfl, hcanon, hx⟩ := h
      change Rounds .negative x (Float.Model.pack (.finite .negative m q hm)).unpack
      rw [unpack_pack .negative hcanon]
      exact ⟨rfl, hcanon, hx⟩
  | infinity s =>
      obtain ⟨rfl, hx⟩ := h
      change Rounds .negative x (Float.Model.pack (.infinity .negative)).unpack
      rw [unpack_pack_infinity]
      exact ⟨rfl, hx⟩
  | notANumber => exact h.elim

/-! ### Reading -/

theorem overflow_lt : overflow < 2 ^ (1024 : Int) :=
  calc overflow
    _ < 2 ^ 53 * 2 ^ (971 : Int) := by unfold overflow; gcongr; norm_num
    _ = 2 ^ (1024 : Int) := (zpow_add₀ two_ne_zero 53 971).symm

theorem two_zpow_lt_overflow : (2 : ℚ) ^ (-1075 : Int) < overflow :=
  calc (2 : ℚ) ^ (-1075 : Int)
    _ ≤ 1 * 2 ^ (971 : Int) := by
      rw [one_mul]
      exact zpow_le_zpow_right₀ one_le_two (by decide)
    _ < overflow := by unfold overflow; gcongr; norm_num

/-- The magnitude of a decimal is read as what it rounds to. -/
theorem rounds_magnitude (c : Nat) (k : Int) :
    Rounds .positive (c * 10 ^ k) (Float.ofScientific c (k < 0) k.natAbs).toModel.unpack := by
  have hpositive : (0 : ℚ) ≤ 2 ^ (-1075 : Int) := by positivity
  -- decimals with a large exponent are not read as products of doubles
  have hlarge (hk : 2048 < k.natAbs) : (Float.ofScientific c (k < 0) k.natAbs).toModel =
      .pack (UnpackedFloat.ofScientific Format.binary64 c k) := by
    unfold Float.ofScientific
    simp only [decide_eq_true_eq]
    rw [dif_neg (by omega), exponent_eq, Float.Model.ofScientific]
  by_cases hc : c = 0
  · rw [hc, magnitude_of_zero, Nat.cast_zero, zero_mul]
    exact ⟨rfl, hpositive⟩
  by_cases hmax : 2048 < k
  · have hinfinite : UnpackedFloat.ofScientific Format.binary64 c k = .infinity .positive := by
      change (if hc : c = 0 then _ else if k > 2048 then _ else _) = _
      rw [dif_neg hc, if_pos hmax]
    rw [hlarge (by omega), hinfinite]
    exact ⟨rfl, overflow_lt.le.trans (two_zpow_le hc (by omega))⟩
  by_cases hmin : k < -(2048 + c.log2 : Int)
  · have hzero : UnpackedFloat.ofScientific Format.binary64 c k = .zero .positive := by
      change (if hc : c = 0 then _ else if k > 2048 then _
        else if k < -(2048 + (c.log2 : Int)) then _ else _) = _
      rw [dif_neg hc, if_neg hmax, if_pos hmin]
    rw [hlarge (by omega), hzero]
    exact ⟨rfl, (lt_two_zpow (by omega)).le⟩
  · obtain ⟨u, hu, hround⟩ := isRounding_magnitude hc (not_lt.1 hmax) (not_lt.1 hmin)
    rw [hu]
    exact hround.rounds

/-- **Every decimal is read as what it rounds to.** -/
theorem rounds_ofDecimal (d : Decimal) :
    Rounds (if d.negative then .negative else .positive) d.absValue
      (ofDecimal d).toModel.unpack := by
  have hmagnitude := rounds_magnitude d.significand d.exponent
  unfold ofDecimal
  cases d.negative with
  | false => exact hmagnitude
  | true => exact hmagnitude.neg

/-- What rounds to a double is not too large. -/
theorem Nearest.lt_overflow (hcanon : Canonical m q) (h : Nearest m q x) : x < overflow := by
  have hpos : (0 : ℚ) < 2 ^ q := by positivity
  have hnonneg : (0 : ℚ) ≤ m + 1 / 2 := by positivity
  have htop_pos : (0 : ℚ) < 2 ^ (971 : Int) := by positivity
  have hhigh : x ≤ (m + 1 / 2) * 2 ^ q := (div_le_iff₀ hpos).1 h.le_high
  have hm : (m : ℚ) + 1 / 2 ≤ 2 ^ 53 - 1 / 2 := by
    have : ((m + 1 : Nat) : ℚ) ≤ (2 ^ 53 : Nat) := by exact_mod_cast hcanon.lt
    push_cast at this
    linarith
  have hscale : (2 : ℚ) ^ q ≤ 2 ^ (971 : Int) :=
    zpow_le_zpow_right₀ one_le_two hcanon.exponent_le
  refine lt_of_le_of_ne (hhigh.trans (mul_le_mul hm hscale hpos.le (by norm_num))) ?_
  -- the largest double is odd, so half a step above it is not rounded to it
  intro htop
  rw [htop, overflow] at hhigh
  have hmantissa : (2 ^ 53 - 1 / 2 : ℚ) ≤ m + 1 / 2 := by
    refine le_of_mul_le_mul_right (hhigh.trans ?_) htop_pos
    exact mul_le_mul_of_nonneg_left hscale hnonneg
  have hexponent : (971 : Int) ≤ q := by
    refine (zpow_le_zpow_iff_right₀ one_lt_two).1 (?_ : (2 : ℚ) ^ (971 : Int) ≤ 2 ^ q)
    refine le_of_mul_le_mul_left (hhigh.trans ?_) (by norm_num : (0 : ℚ) < 2 ^ 53 - 1 / 2)
    exact mul_le_mul_of_nonneg_right hm hpos.le
  obtain rfl : q = 971 := le_antisymm hcanon.exponent_le hexponent
  obtain rfl : m = 2 ^ 53 - 1 := by
    have hge : ((2 ^ 53 : Nat) : ℚ) ≤ (m + 1 : Nat) := by push_cast; linarith
    have : 2 ^ 53 ≤ m + 1 := by exact_mod_cast hge
    have := hcanon.lt
    omega
  have heven := h.even_of_tie hcanon.pos (.inr ?_)
  · exact absurd heven (by decide)
  · rw [htop, overflow, mul_div_cancel_right₀ _ htop_pos.ne']
    norm_num

/-- A magnitude that is not too large is read as a finite double, and no other is. -/
theorem Rounds.isFinite_iff {u : UnpackedFloat} (h : Rounds s x u) :
    u.isFinite = true ↔ x < overflow := by
  cases u with
  | zero s' =>
      exact iff_of_true rfl (h.2.trans_lt two_zpow_lt_overflow)
  | finite s' m q hm => exact iff_of_true rfl (h.2.2.lt_overflow h.2.1)
  | infinity s' => exact iff_of_false Bool.false_ne_true (not_lt.2 h.2)
  | notANumber => exact h.elim

/-- **A decimal is read as a finite double exactly if it is not too large.** -/
theorem isFinite_ofDecimal (d : Decimal) :
    (ofDecimal d).isFinite = true ↔ d.absValue < overflow :=
  (rounds_ofDecimal d).isFinite_iff

end DryRun.Double
