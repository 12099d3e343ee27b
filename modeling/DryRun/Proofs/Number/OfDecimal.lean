import DryRun.Proofs.Number.Rounding

/-!
# Reading decimals as doubles

`Double.ofDecimal` reads a decimal in one of two ways. A small significand and a small power of
ten are both doubles, so one multiplication or division of doubles is rounded once; all other
decimals are rounded from their exact value, after those that are far too large or far too small
were set apart. Either way one product or quotient is rounded, and it is rounded to the nearest
double.

## Main results

* `Double.ofDecimal_of_nearest`: a decimal is read as the double that is nearest to it.
* `Double.ofDecimal_of_zero`: a decimal without a significand is read as the zero of its sign.
-/

namespace DryRun

/-- The value of a decimal without its sign. -/
def Decimal.absValue (d : Decimal) : ℚ := d.significand * 10 ^ d.exponent

namespace Double

open Float.Model (UnpackedFloat Format totalExponent)
open Float.Model.UnpackedFloat

variable {m : Nat} {q : Int} {x : ℚ}

/-! ### Numbers that are doubles -/

/-- Whether a double is positive and normal and has the given value. -/
def IsNormal (y : Float) (v : ℚ) : Prop :=
  ∃ (m : Nat) (q : Int) (hm : 0 < m),
    y.toModel.unpack = .finite .positive m q hm ∧ 2 ^ 52 ≤ m ∧ m * 2 ^ q = v

/-- A natural number below `2 ^ 53`, shifted to 53 bits, is the mantissa of a double. -/
theorem canonical_shiftLeft {n : Nat} (hpos : 0 < n) (hlt : n < 2 ^ 53) :
    2 ^ 52 ≤ n <<< (52 - n.log2) ∧ Canonical (n <<< (52 - n.log2)) (-(52 - n.log2 : Nat)) := by
  have hlog : n.log2 < 53 := (Nat.log2_lt hpos.ne').mpr hlt
  have hsplit : 2 ^ n.log2 * 2 ^ (52 - n.log2) = 2 ^ 52 := by
    rw [← pow_add]
    congr 1
    omega
  have hle : 2 ^ 52 ≤ n <<< (52 - n.log2) := by
    rw [Nat.shiftLeft_eq, ← hsplit]
    exact Nat.mul_le_mul_right _ (Nat.log2_self_le hpos.ne')
  have hlt : n <<< (52 - n.log2) < 2 ^ 53 := by
    rw [Nat.shiftLeft_eq, pow_succ, ← hsplit, mul_right_comm, ← pow_succ]
    exact Nat.mul_lt_mul_of_pos_right Nat.lt_log2_self (by positivity)
  exact ⟨hle, by omega, hlt, by omega, by omega, .inl hle⟩

/-- Shifting changes the mantissa and the exponent but not the number. -/
theorem shiftLeft_mul_zpow (n k : Nat) : ((n <<< k : Nat) * 2 ^ (-(k : Int)) : ℚ) = n := by
  rw [Nat.shiftLeft_eq, zpow_neg, zpow_natCast]
  push_cast
  field_simp

/-- A natural number below `2 ^ 53` is a double. -/
theorem isNormal_toFloat {n : Nat} (hpos : 0 < n) (hlt : n < 2 ^ 53) :
    IsNormal n.toUInt64.toFloat n := by
  obtain ⟨hle, hcanon⟩ := canonical_shiftLeft hpos hlt
  refine ⟨_, _, hcanon.pos, ?_, hle, shiftLeft_mul_zpow n _⟩
  have hlog : n.log2 < 53 := (Nat.log2_lt hpos.ne').mpr hlt
  have hnat : n.toUInt64.toNat = n := Nat.mod_eq_of_lt (by omega)
  have hshift : (0 - Format.binary64.targetExponent (totalExponent n 0)).toNat = 52 - n.log2 := by
    rw [targetExponent_eq, totalExponent]
    omega
  have hround : UnpackedFloat.ofInt Format.binary64 n =
      roundWithAccuracy Format.binary64 .positive (n <<< (52 - n.log2)) (0 - (52 - n.log2 : Nat))
        .exact := by
    have hcompare : compare (n : Int) 0 = .gt := Int.compare_eq_gt.mpr (by omega)
    unfold UnpackedFloat.ofInt UnpackedFloat.normalize
    simp only [hcompare, UnpackedFloat.round, decreaseExponent, Int.toNat_natCast, hshift]
  have hself := roundWithAccuracy_of_nearest .positive (n <<< (52 - n.log2)) Nat.one_pos
    (by rw [Nat.div_one, targetExponent_of_canonical hcanon]) hcanon
    (by rw [Nat.cast_one, div_one]; exact nearest_self hcanon.pos)
  rw [Nat.div_one, Nat.mod_one] at hself
  change (Float.Model.pack (UnpackedFloat.ofInt Format.binary64 n.toUInt64.toNat)).unpack = _
  rw [hnat, hround, Int.zero_sub]
  exact (congrArg (fun u => (Float.Model.pack u).unpack) hself).trans
    (unpack_pack .positive hcanon)

/-- Whether an unpacked double is positive, normal and a power of ten. -/
def isPowerOfTen (k : Nat) : UnpackedFloat → Bool
  | .finite .positive m q _ =>
    2 ^ 52 ≤ m && -52 ≤ q && m * 2 ^ (q + 52).toNat = 10 ^ k * 2 ^ 52
  | _ => false

theorem isPowerOfTen_unpack : ∀ k : Fin 23,
    isPowerOfTen k Float.exactlyRepresentablePowersOfTen[k].toModel.unpack := by
  decide +kernel

/-- The powers of ten up to the 22nd are doubles. -/
theorem isNormal_powerOfTen {k : Nat} (hk : k < 23) :
    IsNormal Float.exactlyRepresentablePowersOfTen[k] (10 ^ k) := by
  have hpower := isPowerOfTen_unpack ⟨k, hk⟩
  change isPowerOfTen k Float.exactlyRepresentablePowersOfTen[k].toModel.unpack at hpower
  unfold isPowerOfTen at hpower
  split at hpower
  · next m q hm hunpack =>
      simp only [Bool.and_eq_true, decide_eq_true_eq] at hpower
      obtain ⟨⟨hnormal, hq⟩, hvalue⟩ := hpower
      refine ⟨m, q, hm, hunpack, hnormal, ?_⟩
      have hvalue : (m : ℚ) * 2 ^ (q + 52).toNat = 10 ^ k * 2 ^ 52 := by exact_mod_cast hvalue
      have hshift : (2 : ℚ) ^ (q + 52).toNat = 2 ^ q * 2 ^ 52 := by
        rw [← zpow_natCast, Int.toNat_of_nonneg (by omega), zpow_add₀ two_ne_zero]
        rfl
      rw [hshift, ← mul_assoc] at hvalue
      exact mul_right_cancel₀ (by positivity) hvalue
  · exact absurd hpower Bool.false_ne_true

/-- A product of normal doubles is rounded from its exact value. -/
theorem IsNormal.mul {y z : Float} {v w : ℚ} (hy : IsNormal y v) (hz : IsNormal z w) :
    ∃ u, y * z = .ofModel (.pack u) ∧ IsRounding (v * w) u := by
  obtain ⟨m₁, e₁, h₁, hunpack₁, hnormal₁, rfl⟩ := hy
  obtain ⟨m₂, e₂, h₂, hunpack₂, hnormal₂, rfl⟩ := hz
  refine ⟨_, ?_, isRounding_mul h₁ h₂ (by nlinarith)⟩
  rw [← hunpack₁, ← hunpack₂]
  rfl

/-- A quotient of normal doubles is rounded from its exact value. -/
theorem IsNormal.div {y z : Float} {v w : ℚ} (hy : IsNormal y v) (hz : IsNormal z w) :
    ∃ u, y / z = .ofModel (.pack u) ∧ IsRounding (v / w) u := by
  obtain ⟨m₁, e₁, h₁, hunpack₁, hnormal₁, rfl⟩ := hy
  obtain ⟨m₂, e₂, h₂, hunpack₂, hnormal₂, rfl⟩ := hz
  refine ⟨_, ?_, isRounding_div h₁ h₂⟩
  rw [← hunpack₁, ← hunpack₂]
  rfl

/-- Nothing times a normal double is nothing. -/
theorem IsNormal.zero_mul {z : Float} {w : ℚ} (hz : IsNormal z w) :
    (Nat.toUInt64 0).toFloat * z = .ofModel (.pack (.zero .positive)) := by
  obtain ⟨m, e, hm, hunpack, -, -⟩ := hz
  change Float.ofModel (.pack (UnpackedFloat.mul Format.binary64 _ z.toModel.unpack)) = _
  rw [hunpack]
  rfl

/-- Nothing divided by a normal double is nothing. -/
theorem IsNormal.zero_div {z : Float} {w : ℚ} (hz : IsNormal z w) :
    (Nat.toUInt64 0).toFloat / z = .ofModel (.pack (.zero .positive)) := by
  obtain ⟨m, e, hm, hunpack, -, -⟩ := hz
  change Float.ofModel (.pack (UnpackedFloat.div Format.binary64 _ z.toModel.unpack)) = _
  rw [hunpack]
  rfl

/-! ### Decimals that are not set apart -/

/-- The numbers that round to a double lie below the power of two above all doubles. -/
theorem Nearest.lt (hcanon : Canonical m q) (h : Nearest m q x) : x < 2 ^ (1024 : Int) := by
  have hhigh := h.le_high
  have hm : (m : ℚ) + 1 ≤ 2 ^ 53 := by exact_mod_cast hcanon.lt
  rw [div_le_iff₀ (by positivity)] at hhigh
  calc x
    _ ≤ (m + 1 / 2) * 2 ^ q := hhigh
    _ < 2 ^ 53 * 2 ^ q := by gcongr; linarith
    _ ≤ 2 ^ 53 * 2 ^ (971 : Int) := by
      gcongr
      · exact one_le_two
      · exact hcanon.exponent_le
    _ = 2 ^ (1024 : Int) := (zpow_add₀ two_ne_zero 53 971).symm

/-- The numbers that round to a double are at least half of the least double. -/
theorem Nearest.ge (hcanon : Canonical m q) (h : Nearest m q x) : 2 ^ (-1075 : Int) ≤ x := by
  have hlow := h.low_le hcanon.pos
  have hm : (1 : ℚ) ≤ m := by exact_mod_cast hcanon.pos
  rw [le_div_iff₀ (by positivity)] at hlow
  calc (2 : ℚ) ^ (-1075 : Int)
    _ = 2 ^ (-1 : Int) * 2 ^ (-1074 : Int) := zpow_add₀ two_ne_zero (-1) (-1074)
    _ = 1 / 2 * 2 ^ (-1074 : Int) := by rw [zpow_neg_one, one_div]
    _ ≤ 1 / 2 * 2 ^ q := by
      gcongr
      · exact one_le_two
      · exact hcanon.le_exponent
    _ ≤ (m - 1 / 2) * 2 ^ q := by gcongr; linarith
    _ ≤ x := hlow

variable {c : Nat} {k : Int}

theorem Nearest.significand_ne_zero (hcanon : Canonical m q) (h : Nearest m q (c * 10 ^ k)) :
    c ≠ 0 := by
  rintro rfl
  have hpos : (0 : ℚ) < 2 ^ (-1075 : Int) := by positivity
  have hge := h.ge hcanon
  rw [Nat.cast_zero, zero_mul] at hge
  exact absurd hpos (not_lt.mpr hge)

/-- A power of ten is at least the power of two. -/
theorem two_zpow_le (hc : c ≠ 0) (hk : 1024 ≤ k) : (2 : ℚ) ^ (1024 : Int) ≤ c * 10 ^ k := by
  have hone : (1 : ℚ) ≤ c := by exact_mod_cast Nat.one_le_iff_ne_zero.mpr hc
  calc (2 : ℚ) ^ (1024 : Int)
    _ ≤ 2 ^ k := zpow_le_zpow_right₀ one_le_two hk
    _ ≤ 10 ^ k := zpow_le_zpow_left₀ (by omega) (by norm_num) (by norm_num)
    _ ≤ c * 10 ^ k := le_mul_of_one_le_left (by positivity) hone

/-- A negative power of ten is at most the power of two. -/
theorem lt_two_zpow (hk : k ≤ -1076 - c.log2) : (c * 10 ^ k : ℚ) < 2 ^ (-1075 : Int) := by
  have hlt : (c : ℚ) < 2 ^ (c.log2 + 1) := by exact_mod_cast Nat.lt_log2_self
  have hten : (10 : ℚ) ^ k ≤ 2 ^ k := by
    obtain ⟨n, rfl⟩ : ∃ n : Nat, k = -n := ⟨(-k).toNat, by omega⟩
    rw [zpow_neg, zpow_neg, zpow_natCast, zpow_natCast]
    gcongr
    norm_num
  calc c * (10 : ℚ) ^ k
    _ ≤ c * 2 ^ k := by gcongr
    _ < 2 ^ (c.log2 + 1) * 2 ^ k := by gcongr
    _ = 2 ^ ((c.log2 + 1 : Nat) + k) := by rw [zpow_add₀ two_ne_zero, zpow_natCast]
    _ ≤ 2 ^ (-1075 : Int) := zpow_le_zpow_right₀ one_le_two (by omega)

theorem Nearest.exponent_lt (hcanon : Canonical m q) (h : Nearest m q (c * 10 ^ k)) :
    k < 1024 := by
  by_contra hk
  exact absurd (h.lt hcanon) (not_lt.mpr (two_zpow_le (h.significand_ne_zero hcanon) (by omega)))

theorem Nearest.lt_exponent (hcanon : Canonical m q) (h : Nearest m q (c * 10 ^ k)) :
    -1076 - c.log2 < k := by
  by_contra hk
  exact absurd (h.ge hcanon) (not_le.mpr (lt_two_zpow (by omega)))

/-! ### Reading -/

/-- A decimal that is not set apart is rounded from its exact value. -/
theorem isRounding_ofScientific (hc : c ≠ 0) (hmax : k ≤ 2048) (hmin : -(2048 + c.log2 : Int) ≤ k) :
    IsRounding (c * 10 ^ k) (UnpackedFloat.ofScientific Format.binary64 c k) := by
  have hten (n : Nat) : 0 < 10 ^ n := by positivity
  change IsRounding _ (if hc : c = 0 then _ else if k > 2048 then _
    else if k < -(2048 + (c.log2 : Int)) then _ else if 0 ≤ k then _ else _)
  rw [dif_neg hc, if_neg (by omega), if_neg (by omega)]
  split
  · next hk =>
      have hleft : 0 < c <<< 53 := by rw [Nat.shiftLeft_eq]; positivity
      have hbits : 2 ^ 52 ≤ c <<< 53 * 10 ^ k.toNat := by
        rw [Nat.shiftLeft_eq]
        nlinarith [hten k.toNat, Nat.pos_of_ne_zero hc]
      have hvalue : ((c <<< 53 : Nat) * 2 ^ (-(53 : Nat) : Int) *
          ((10 ^ k.toNat : Nat) * 2 ^ (0 : Int)) : ℚ) = c * 10 ^ k := by
        rw [shiftLeft_mul_zpow, zpow_zero, mul_one, Nat.cast_pow, ← zpow_natCast,
          Int.toNat_of_nonneg hk, Nat.cast_ofNat]
      rw [← hvalue]
      exact isRounding_mul hleft (hten _) hbits
  · next hk =>
      obtain ⟨n, rfl⟩ : ∃ n : Nat, k = -n := ⟨(-k).toNat, by omega⟩
      have hvalue : (c * 2 ^ (0 : Int) / ((10 ^ n : Nat) * 2 ^ (0 : Int)) : ℚ) =
          c * 10 ^ (-n : Int) := by
        rw [zpow_zero, mul_one, mul_one, zpow_neg, zpow_natCast, Nat.cast_pow, Nat.cast_ofNat,
          div_eq_mul_inv]
      have hn : (- -(n : Int)).toNat = n := by omega
      rw [← hvalue]
      simpa only [hn] using isRounding_div (Nat.pos_of_ne_zero hc) (hten n)

/-- The exponent of a decimal from its sign and its size. -/
theorem exponent_eq (k : Int) :
    (if k < 0 then Int.negOfNat k.natAbs else Int.ofNat k.natAbs) = k := by
  split
  · rw [Int.negOfNat_eq, Int.ofNat_eq_natCast]
    omega
  · rw [Int.ofNat_eq_natCast]
    omega

/-- The magnitude of a decimal that is not set apart is rounded from its exact value. -/
theorem isRounding_magnitude (hc : c ≠ 0) (hmax : k ≤ 2048) (hmin : -(2048 + c.log2 : Int) ≤ k) :
    ∃ u, Float.ofScientific c (k < 0) k.natAbs = .ofModel (.pack u) ∧
      IsRounding (c * 10 ^ k) u := by
  unfold Float.ofScientific
  simp only [decide_eq_true_eq]
  split
  · -- the significand and the power of ten are doubles
    next hsmall =>
      have hleft := isNormal_toFloat (Nat.pos_of_ne_zero hc) hsmall.1
      have hright := isNormal_powerOfTen (Nat.lt_succ_of_le hsmall.2)
      split
      · next hk =>
          have hvalue : (c / 10 ^ k.natAbs : ℚ) = c * 10 ^ k := by
            rw [div_eq_mul_inv, ← zpow_natCast, ← zpow_neg, Int.ofNat_natAbs_of_nonpos hk.le,
              neg_neg]
          exact hvalue ▸ hleft.div hright
      · next hk =>
          have hvalue : (c * 10 ^ k.natAbs : ℚ) = c * 10 ^ k := by
            rw [← zpow_natCast, Int.natAbs_of_nonneg (by omega)]
          exact hvalue ▸ hleft.mul hright
  · refine ⟨_, ?_, isRounding_ofScientific hc hmax hmin⟩
    rw [exponent_eq, Float.Model.ofScientific]

/-- The magnitude of a decimal is read as the double nearest to it. -/
theorem magnitude_of_nearest (hcanon : Canonical m q) (h : Nearest m q (c * 10 ^ k)) :
    Float.ofScientific c (k < 0) k.natAbs =
      .ofModel (.pack (.finite .positive m q hcanon.pos)) := by
  have hmax := h.exponent_lt hcanon
  have hmin := h.lt_exponent hcanon
  obtain ⟨u, hu, hround⟩ := isRounding_magnitude (h.significand_ne_zero hcanon)
    (by omega : k ≤ 2048) (by omega)
  rw [hu, hround.eq_of_nearest hcanon h]

/-- **A decimal is read as the double that is nearest to it.** -/
theorem ofDecimal_of_nearest {y : Float} {s : Sign} {hm : 0 < m} {d : Decimal}
    (hy : y.toModel.unpack = .finite s m q hm) (hsign : d.negative = isNegative s)
    (h : Nearest m q d.absValue) : ofDecimal d = y := by
  have hcanon := canonical_of_unpack hy
  have hpack : Float.ofModel (.pack (.finite s m q hm)) = y := by
    rw [← hy, pack_unpack]
  unfold ofDecimal
  simp only [hsign, magnitude_of_nearest hcanon h]
  cases s with
  | positive => exact hpack
  | negative =>
      refine Eq.trans ?_ hpack
      change Float.ofModel (.pack
        (UnpackedFloat.neg (Float.Model.pack (.finite .positive m q _)).unpack)) = _
      rw [unpack_pack .positive hcanon]
      rfl

/-- The magnitude of a decimal without a significand is read as zero. -/
theorem magnitude_of_zero (k : Int) :
    Float.ofScientific 0 (k < 0) k.natAbs = .ofModel (.pack (.zero .positive)) := by
  unfold Float.ofScientific
  simp only [decide_eq_true_eq]
  split
  · next hsmall =>
      have hpower := isNormal_powerOfTen (Nat.lt_succ_of_le hsmall.2)
      split
      · exact hpower.zero_div
      · exact hpower.zero_mul
  · rfl

/-- **A decimal without a significand is read as the zero of its sign.** -/
theorem ofDecimal_of_zero {y : Float} {s : Sign} {d : Decimal}
    (hy : y.toModel.unpack = .zero s) (hsign : d.negative = isNegative s)
    (hd : d.significand = 0) : ofDecimal d = y := by
  have hpack : Float.ofModel (.pack (.zero s)) = y := by
    rw [← hy, pack_unpack]
  unfold ofDecimal
  simp only [hsign, hd, magnitude_of_zero]
  cases s with
  | positive => exact hpack
  | negative =>
      refine Eq.trans ?_ hpack
      rfl

end Double

end DryRun
