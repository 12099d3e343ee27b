import DryRun.Proofs.Number.Laws
import DryRun.Proofs.Number.Real
import DryRun.Proofs.Number.Rounding

/-!
# Sums that do not shrink

A total that only ever grows is kept by adding amounts that are not negative. For numbers that
round, and that may be infinite or no numbers at all, it is a law of its own that such a sum is
a number again and no smaller than its parts: `Scalar.GrowingSums`. Nothing else of addition is
asked for, neither that it is associative nor that a positive amount makes a total larger,
which is false of doubles.

That doubles satisfy the law is read off the model of their addition. The exact sum of two
finite doubles is one mantissa at the smaller of their exponents, and a double that is at most
the exact sum is at most the rounded one (`Double.le_round`): its exponent is at most the
exponent at which the sum is rounded, and if the two are the same, its mantissa is a natural
number that is at most a quotient, so it is at most the rounded quotient.

## Main results

* `Double.le_add`: the sum of two doubles that are not negative is at least each of them.
-/

namespace DryRun

/-! ### The law -/

namespace Scalar

variable (α : Type) [Scalar α]

/-- Only numbers compare, and the sum of two numbers that are not negative is at least each of
them. -/
class GrowingSums : Prop extends OrderedNumbers α where
  isNaN_zero : isNaN (0 : α) = false
  isNaN_of_isFinite : ∀ {a : α}, isFinite a = true → isNaN a = false
  isNaN_of_lt : ∀ {a b : α}, a < b → isNaN a = false ∧ isNaN b = false
  isNaN_of_le : ∀ {a b : α}, a ≤ b → isNaN a = false ∧ isNaN b = false
  le_trans : ∀ {a b c : α}, a ≤ b → b ≤ c → a ≤ c
  le_add : ∀ {a b : α}, 0 ≤ a → 0 ≤ b → a ≤ a + b ∧ b ≤ a + b

variable {α}

theorem OrderedNumbers.le_refl [OrderedNumbers α] {a : α} (ha : isNaN a = false) : a ≤ a :=
  (OrderedNumbers.le_iff_not_lt ha ha).mpr (OrderedNumbers.lt_irrefl a)

/-- The larger of two values is at least the second, whatever the first is. -/
theorem OrderedNumbers.le_max_right [OrderedNumbers α] (a : α) {b : α} (hb : isNaN b = false) :
    b ≤ max a b := by
  unfold max
  cases ha : isNaN a with
  | true => exact le_refl hb
  | false =>
      rw [if_neg Bool.false_ne_true, if_neg (Bool.not_eq_true _ ▸ hb)]
      by_cases hlt : a < b
      · rw [if_pos hlt]
        exact le_refl hb
      · rw [if_neg hlt]
        exact (OrderedNumbers.le_iff_not_lt hb ha).mpr hlt

theorem GrowingSums.le_of_lt [GrowingSums α] {a b : α} (h : a < b) : a ≤ b := by
  obtain ⟨ha, hb⟩ := GrowingSums.isNaN_of_lt h
  exact (OrderedNumbers.le_iff_not_lt ha hb).mpr fun h' =>
    OrderedNumbers.lt_irrefl a (OrderedNumbers.lt_trans h h')

/-- A total to which amounts that are not negative are added does not become smaller. -/
theorem GrowingSums.le_foldl_add [GrowingSums α] {xs : List α} (hxs : ∀ x ∈ xs, 0 ≤ x) {a : α}
    (ha : 0 ≤ a) : a ≤ xs.foldl (· + ·) a := by
  induction xs generalizing a with
  | nil => exact OrderedNumbers.le_refl (GrowingSums.isNaN_of_le ha).2
  | cons x xs ih =>
      obtain ⟨hx, hxs⟩ := List.forall_mem_cons.mp hxs
      have hsum : a ≤ a + x := (GrowingSums.le_add ha hx).1
      exact GrowingSums.le_trans hsum (ih hxs (GrowingSums.le_trans ha hsum))

end Scalar

namespace Exact

instance : Scalar.GrowingSums ℝ where
  isNaN_zero := isNaN_eq_false _
  isNaN_of_isFinite _ := isNaN_eq_false _
  isNaN_of_lt _ := ⟨isNaN_eq_false _, isNaN_eq_false _⟩
  isNaN_of_le _ := ⟨isNaN_eq_false _, isNaN_eq_false _⟩
  le_trans hab hbc := hab.trans hbc
  le_add ha hb := ⟨le_add_of_nonneg_right hb, le_add_of_nonneg_left ha⟩

end Exact

namespace Double

open Float.Model (UnpackedFloat Format totalExponent)
open Float.Model.UnpackedFloat

variable {m n : Nat} {q e t : Int}

/-! ### Rounded mantissas -/

/-- A rounded quotient is at least the quotient cut off, and at most one more. -/
theorem div_le_roundDiv (num den : Nat) :
    num / den ≤ roundDiv num den .even ∧ roundDiv num den .even ≤ num / den + 1 := by
  unfold roundDiv
  cases h : compare (2 * (num % den)) den <;> simp only [h] <;> omega

/-- A mantissa that has no bit too many is not shifted. -/
theorem shiftToTargetExponent_of_lt (hn : n < 2 ^ 53) (ht : -1074 ≤ t) :
    shiftToTargetExponent Format.binary64 n t .exact = (⟨n, false, false⟩, t) := by
  have hlog : n.log2 ≤ 52 := by
    rcases Nat.eq_zero_or_pos n with rfl | hpos
    · decide
    · exact Nat.le_of_lt_succ ((Nat.log2_lt hpos.ne').mpr hn)
  have htarget : Format.binary64.targetExponent (totalExponent n t) ≤ t := by
    rw [targetExponent_eq, totalExponent]
    omega
  have hzero : (Format.binary64.targetExponent (totalExponent n t) - t).toNat = 0 := by omega
  unfold shiftToTargetExponent shiftToExponent
  simp only [hzero, Int.natCast_zero, Int.add_zero]
  rfl

/-- What is rounded to `n` at the exponent `t` is that number, with its carry moved into the
exponent. -/
theorem roundWithAccuracy_eq_or_carry (s : Sign) {num : Nat} (he : e ≤ t) (hmin : -1074 ≤ t)
    (ht : Format.binary64.targetExponent (totalExponent num e) = t)
    (hn : roundDiv num (2 ^ (t - e).toNat) .even = n) (hpos : 0 < n) (hle : n ≤ 2 ^ 53) :
    ∃ (m' : Nat) (q' : Int) (hm : 0 < m'),
      roundWithAccuracy Format.binary64 s num e .exact = .finite s m' q' hm ∧
        (n < 2 ^ 53 ∧ m' = n ∧ q' = t ∨ m' = 2 ^ 52 ∧ q' = t + 1) := by
  have hshift := shiftToTargetExponent_fraction Nat.one_pos he
    (by rwa [Nat.div_one] : Format.binary64.targetExponent (totalExponent (num / 1) e) = t)
  rw [Nat.div_one, Nat.mod_one, one_mul] at hshift
  have hexact : accuracyOfFraction 0 1 = .exact := rfl
  rw [hexact] at hshift
  have hround : (fraction num (2 ^ (t - e).toNat)).roundedMantissa = n := by
    rw [roundedMantissa_fraction _ (by positivity), hn]
  by_cases hlt : n < 2 ^ 53
  · refine ⟨n, t, hpos, ?_, .inl ⟨hlt, rfl, rfl⟩⟩
    unfold roundWithAccuracy
    simp only [hshift, hround, shiftToTargetExponent_of_lt hlt hmin]
    rw [dif_neg hpos.ne']
  · obtain rfl : n = 2 ^ 53 := by omega
    have hcarry : shiftToTargetExponent Format.binary64 (2 ^ 53) t .exact =
        (⟨2 ^ 52, false, false⟩, t + 1) := by
      simpa using shiftToTargetExponent_of_carry (q := t + 1) (by omega)
    refine ⟨2 ^ 52, t + 1, by positivity, ?_, .inr ⟨rfl, rfl⟩⟩
    unfold roundWithAccuracy
    simp only [hshift, hround, hcarry]
    rw [dif_neg (by positivity)]

/-! ### Rounding is monotone -/

theorem log2_shiftLeft (hn : 0 < n) (k : Nat) : (n <<< k).log2 = n.log2 + k := by
  have hle := Nat.log2_self_le hn.ne'
  have hlt : n < 2 ^ (n.log2 + 1) := Nat.lt_log2_self
  rw [Nat.shiftLeft_eq, Nat.log2_eq_iff (by positivity)]
  constructor
  · rw [pow_add]
    exact Nat.mul_le_mul_right _ hle
  · calc n * 2 ^ k
      _ < 2 ^ (n.log2 + 1) * 2 ^ k := by gcongr
      _ = 2 ^ (n.log2 + k + 1) := by rw [← pow_add]; congr 1; omega

/-- A double that is at most a number has an exponent that is kept when the number is rounded. -/
theorem exponent_le_targetExponent (h : Canonical m q) (hn : (m * 2 ^ q : ℚ) ≤ n * 2 ^ e) :
    q ≤ Format.binary64.targetExponent (totalExponent n e) := by
  have hlow : (2 : ℚ) ^ (totalExponent m q - 1) ≤ m * 2 ^ q := by
    simpa using two_zpow_totalExponent_le Nat.one_pos (by rw [Nat.div_one]; exact h.pos.ne') q
  have hhigh : (n * 2 ^ e : ℚ) < 2 ^ totalExponent n e := by
    simpa using lt_two_zpow_totalExponent n Nat.one_pos e
  have hexp : totalExponent m q - 1 < totalExponent n e :=
    (zpow_lt_zpow_iff_right₀ (one_lt_two : (1 : ℚ) < 2)).mp ((hlow.trans hn).trans_lt hhigh)
  have hq := targetExponent_of_canonical h
  rw [targetExponent_eq] at hq ⊢
  omega

/-- The number `n · 2 ^ e` in units of `2 ^ t`, cut off. -/
def cutOff (n : Nat) (e t : Int) : Nat := (n <<< (e - t).toNat) / 2 ^ (t - e).toNat

theorem le_cutOff_iff {a : Nat} : a ≤ cutOff n e t ↔ (a * 2 ^ t : ℚ) ≤ n * 2 ^ e := by
  have hscale : (2 : ℚ) ^ t * 2 ^ (e - t).toNat = 2 ^ e * 2 ^ (t - e).toNat := by
    rw [← zpow_natCast, ← zpow_natCast, ← zpow_add₀ two_ne_zero, ← zpow_add₀ two_ne_zero]
    congr 1
    omega
  have hpos : (0 : ℚ) < 2 ^ (t - e).toNat := by positivity
  have hpos' : (0 : ℚ) < 2 ^ t := by positivity
  rw [cutOff, Nat.le_div_iff_mul_le (by positivity), Nat.shiftLeft_eq]
  calc a * 2 ^ (t - e).toNat ≤ n * 2 ^ (e - t).toNat
    _ ↔ (a * 2 ^ (t - e).toNat : ℚ) ≤ n * 2 ^ (e - t).toNat := by exact_mod_cast Iff.rfl
    _ ↔ (a * 2 ^ (t - e).toNat : ℚ) * 2 ^ t ≤ n * 2 ^ (e - t).toNat * 2 ^ t :=
      (mul_le_mul_iff_left₀ hpos').symm
    _ ↔ (a * 2 ^ t : ℚ) * 2 ^ (t - e).toNat ≤ n * 2 ^ e * 2 ^ (t - e).toNat := by
      rw [mul_right_comm, mul_assoc (n : ℚ), mul_comm ((2 : ℚ) ^ (e - t).toNat), hscale,
        mul_assoc (n : ℚ)]
    _ ↔ (a * 2 ^ t : ℚ) ≤ n * 2 ^ e := mul_le_mul_iff_left₀ hpos

/-- What is kept of a number has at most 53 bits. -/
theorem cutOff_lt (ht : Format.binary64.targetExponent (totalExponent n e) = t) :
    cutOff n e t < 2 ^ 53 := by
  have hhigh : (n * 2 ^ e : ℚ) < 2 ^ totalExponent n e := by
    simpa using lt_two_zpow_totalExponent n Nat.one_pos e
  rw [targetExponent_eq] at ht
  rw [← not_le, le_cutOff_iff, not_le]
  calc (n * 2 ^ e : ℚ)
    _ < 2 ^ totalExponent n e := hhigh
    _ ≤ 2 ^ (53 + t) := zpow_le_zpow_right₀ one_le_two (by omega)
    _ = (2 ^ 53 : Nat) * 2 ^ t := by rw [zpow_add₀ two_ne_zero]; norm_num

/-- It has exactly 53 bits, unless it is cut off at the least exponent. -/
theorem le_cutOff (hn : 0 < n) (ht : Format.binary64.targetExponent (totalExponent n e) = t) :
    2 ^ 52 ≤ cutOff n e t ∨ t = -1074 := by
  by_cases hmin : t = -1074
  · exact .inr hmin
  · left
    have hlow : (2 : ℚ) ^ (totalExponent n e - 1) ≤ n * 2 ^ e := by
      simpa using two_zpow_totalExponent_le Nat.one_pos (by rw [Nat.div_one]; exact hn.ne') e
    rw [targetExponent_eq] at ht
    rw [le_cutOff_iff]
    calc ((2 ^ 52 : Nat) * 2 ^ t : ℚ)
      _ = 2 ^ (52 + t) := by rw [zpow_add₀ two_ne_zero]; norm_num
      _ ≤ 2 ^ (totalExponent n e - 1) := zpow_le_zpow_right₀ one_le_two (by omega)
      _ ≤ n * 2 ^ e := hlow

/-- Rounding keeps what is cut off, or adds one to it. -/
theorem round_eq (hn : 0 < n) (ht : Format.binary64.targetExponent (totalExponent n e) = t)
    (hpos : 0 < cutOff n e t) :
    ∃ (m' : Nat) (q' : Int) (hm : 0 < m'),
      UnpackedFloat.round Format.binary64 .positive n e = .finite .positive m' q' hm ∧
        (cutOff n e t ≤ m' ∧ m' < 2 ^ 53 ∧ q' = t ∨ m' = 2 ^ 52 ∧ q' = t + 1) := by
  obtain ⟨k, hk⟩ : ∃ k, (e - t).toNat = k := ⟨_, rfl⟩
  have htotal : totalExponent (n <<< k) (e - k) = totalExponent n e := by
    rw [totalExponent, totalExponent, log2_shiftLeft hn]
    omega
  have hmin : -1074 ≤ t := by
    rw [targetExponent_eq] at ht
    omega
  have hexp : (t - (e - k)).toNat = (t - e).toNat := by omega
  have hcut : cutOff n e t = (n <<< k) / 2 ^ (t - e).toNat := by rw [cutOff, hk]
  have hlt := cutOff_lt ht
  obtain ⟨hround, hround'⟩ := div_le_roundDiv (n <<< k) (2 ^ (t - e).toNat)
  obtain ⟨m', q', hm, heq, hcases⟩ := roundWithAccuracy_eq_or_carry .positive (e := e - k)
    (by omega) hmin (htotal ▸ ht) (by rw [hexp]) (by omega) (by omega)
  refine ⟨m', q', hm, ?_, by omega⟩
  change roundWithAccuracy Format.binary64 .positive
    (n <<< (e - Format.binary64.targetExponent (totalExponent n e)).toNat)
    (e - (e - Format.binary64.targetExponent (totalExponent n e)).toNat) .exact = _
  rw [ht, hk, heq]

/-- **A double that is at most a number is at most what the number is rounded to**, which is a
double or too large for one. -/
theorem le_round (h : Canonical m q) (hn : (m * 2 ^ q : ℚ) ≤ n * 2 ^ e) :
    ∃ (m' : Nat) (q' : Int) (hm : 0 < m'),
      UnpackedFloat.round Format.binary64 .positive n e = .finite .positive m' q' hm ∧
        (Canonical m' q' ∨ 971 < q') ∧ (q < q' ∨ q = q' ∧ m ≤ m') := by
  have hpos : 0 < n := by
    rcases Nat.eq_zero_or_pos n with rfl | hpos
    · have hm : (0 : ℚ) < m := by exact_mod_cast h.pos
      have : (0 : ℚ) < m * 2 ^ q := by positivity
      simp only [Nat.cast_zero, zero_mul] at hn
      linarith
    · exact hpos
  obtain ⟨t, ht⟩ : ∃ t, Format.binary64.targetExponent (totalExponent n e) = t := ⟨_, rfl⟩
  have hqt : q ≤ t := ht ▸ exponent_le_targetExponent h hn
  have hqmin := h.le_exponent
  have hmpos := h.pos
  have hmantissa : q = t → m ≤ cutOff n e t := by
    rintro rfl
    exact le_cutOff_iff.mpr hn
  have hnormal := le_cutOff hpos ht
  obtain ⟨m', q', hm, heq, hcases⟩ := round_eq hpos ht (by omega)
  refine ⟨m', q', hm, heq, ?_, by omega⟩
  by_cases hmax : 971 < q'
  · exact .inr hmax
  · exact .inl ⟨hm, by omega, by omega, by omega, by omega⟩

/-! ### Sums -/

/-- Two mantissas are added at the smaller of their exponents. -/
theorem add_finite {m₁ m₂ : Nat} (q₁ q₂ : Int) (h₁ : 0 < m₁) (h₂ : 0 < m₂) :
    ∃ n : Nat, (n * 2 ^ min q₁ q₂ : ℚ) = m₁ * 2 ^ q₁ + m₂ * 2 ^ q₂ ∧
      UnpackedFloat.add Format.binary64 (.finite .positive m₁ q₁ h₁) (.finite .positive m₂ q₂ h₂) =
        UnpackedFloat.round Format.binary64 .positive n (min q₁ q₂) := by
  have hvalue (m : Nat) {q e : Int} (he : e ≤ q) :
      ((m <<< (q - e).toNat : Nat) * 2 ^ e : ℚ) = m * 2 ^ q := by
    rw [Nat.shiftLeft_eq, Nat.cast_mul, Nat.cast_pow, Nat.cast_two, mul_assoc, ← zpow_natCast,
      ← zpow_add₀ two_ne_zero]
    congr 2
    omega
  have hpos : 0 < m₁ <<< (q₁ - min q₁ q₂).toNat := by
    rw [Nat.shiftLeft_eq]
    positivity
  refine ⟨m₁ <<< (q₁ - min q₁ q₂).toNat + m₂ <<< (q₂ - min q₁ q₂).toNat, ?_, ?_⟩
  · rw [Nat.cast_add, add_mul, hvalue m₁ (min_le_left _ _), hvalue m₂ (min_le_right _ _)]
  · change UnpackedFloat.normalize Format.binary64 ((m₁ <<< (q₁ - min q₁ q₂).toNat : Nat) +
      (m₂ <<< (q₂ - min q₁ q₂).toNat : Nat)) (min q₁ q₂) .positive = _
    generalize m₁ <<< (q₁ - min q₁ q₂).toNat = n₁ at hpos ⊢
    generalize m₂ <<< (q₂ - min q₁ q₂).toNat = n₂
    have hcompare : compare ((n₁ : Int) + n₂) 0 = .gt := by
      rw [compare_gt_iff_gt]
      omega
    unfold UnpackedFloat.normalize
    simp only [hcompare]
    rfl

/-- What is too large for a double is infinite. -/
theorem pack_overflow (s : Sign) (hm : 0 < m) (hq : 971 < q) :
    Float.Model.pack (.finite s m q hm) = Float.Model.pack (.infinity s) := by
  have hbits : UnpackedFloat.pack Format.binary64 (.finite s m q hm) =
      UnpackedFloat.pack Format.binary64 (.infinity s) := by
    have hlarge : 2 ^ 11 ≤ (q + (1023 : Nat) + (52 : Nat)).toNat + 1 := by omega
    exact if_pos hlarge
  simp only [Float.Model.pack, hbits]

/-- An infinite value is held without loss. -/
theorem unpack_pack_infinity (s : Sign) :
    (Float.Model.pack (.infinity s)).unpack = .infinity s := by
  cases s <;> rfl

/-- A double that is at most a number is at most the double that the number is rounded to. -/
theorem rank_le_pack_round (h : Canonical m q) (hn : (m * 2 ^ q : ℚ) ≤ n * 2 ^ e) :
    (Float.Model.pack (UnpackedFloat.round Format.binary64 .positive n e)).unpack.isNaN = false ∧
      rank (.finite .positive m q h.pos) ≤
        rank (Float.Model.pack (UnpackedFloat.round Format.binary64 .positive n e)).unpack := by
  obtain ⟨m', q', hm, hround, hheld, hle⟩ := le_round h hn
  rw [hround]
  rcases hheld with hcanon | hlarge
  · rw [unpack_pack .positive hcanon]
    refine ⟨rfl, Prod.Lex.toLex_le_toLex.mpr (.inr ⟨rfl, Prod.Lex.toLex_le_toLex.mpr ?_⟩)⟩
    rcases hle with hlt | ⟨heq, hle⟩
    · exact .inl hlt
    · exact .inr ⟨heq, Int.ofNat_le.mpr hle⟩
  · rw [pack_overflow .positive hm hlarge, unpack_pack_infinity]
    exact ⟨rfl, Prod.Lex.toLex_le_toLex.mpr (.inl (by decide : (1 : Int) < 2))⟩

/-- A double that is not negative is a zero, or infinite, or finite with a positive sign. -/
theorem unpack_of_nonneg {x : Float} (h : 0 ≤ x) :
    (∃ s, x.toModel.unpack = .zero s) ∨ x.toModel.unpack = .infinity .positive ∨
      ∃ m q, ∃ hm : 0 < m, x.toModel.unpack = .finite .positive m q hm := by
  obtain ⟨-, hnum, hrank⟩ := (le_iff 0 x).mp h
  rw [isNaN_eq] at hnum
  have hzero : rank (0 : Float).toModel.unpack = toLex (0, toLex (0, 0)) := rfl
  rw [hzero] at hrank
  generalize x.toModel.unpack = u at hnum hrank ⊢
  rcases u with (_ | _) | _ | s | ⟨_ | _, m, q, hm⟩
  · exact absurd hrank (by simp [rank, Prod.Lex.toLex_le_toLex])
  · exact .inr (.inl rfl)
  · exact absurd hnum (by decide)
  · exact .inl ⟨s, rfl⟩
  · exact absurd hrank (by simp [rank, Prod.Lex.toLex_le_toLex])
  · exact .inr (.inr ⟨m, q, hm, rfl⟩)

/-- Nothing is larger than the infinite value with a positive sign. -/
theorem rank_le_infinity (u : UnpackedFloat) : rank u ≤ rank (.infinity .positive) := by
  rcases u with (_ | _) | _ | s | ⟨_ | _, m, q, hm⟩ <;>
    simp [rank, Prod.Lex.toLex_le_toLex]

/-- A value is a number that is at least each of two others. -/
def IsAbove (w u v : UnpackedFloat) : Prop :=
  w.isNaN = false ∧ rank u ≤ rank w ∧ rank v ≤ rank w

theorem isAbove_pack_infinity (u v : UnpackedFloat) :
    IsAbove (Float.Model.pack (.infinity .positive)).unpack u v := by
  rw [unpack_pack_infinity]
  exact ⟨rfl, rank_le_infinity u, rank_le_infinity v⟩

/-- The sum of two doubles that are not negative is above both. -/
theorem isAbove_add {x y : Float} (hx : 0 ≤ x) (hy : 0 ≤ y) :
    IsAbove (x + y).toModel.unpack x.toModel.unpack y.toModel.unpack := by
  change IsAbove (Float.Model.pack
    (UnpackedFloat.add Format.binary64 x.toModel.unpack y.toModel.unpack)).unpack _ _
  obtain ⟨-, -, hxrank⟩ := (le_iff 0 x).mp hx
  obtain ⟨-, -, hyrank⟩ := (le_iff 0 y).mp hy
  have hxpack := congrArg Float.Model.unpack (pack_unpack x.toModel)
  have hypack := congrArg Float.Model.unpack (pack_unpack y.toModel)
  rcases unpack_of_nonneg hx with ⟨s, hu⟩ | hu | ⟨m₁, q₁, hm₁, hu⟩
  · rcases unpack_of_nonneg hy with ⟨s', hv⟩ | hv | ⟨m₂, q₂, hm₂, hv⟩
    · rw [hu, hv]
      cases s <;> cases s' <;> exact ⟨rfl, le_rfl, le_rfl⟩
    · rw [hu, hv]
      exact isAbove_pack_infinity _ _
    · have hadd : UnpackedFloat.add Format.binary64 (.zero s) (.finite .positive m₂ q₂ hm₂) =
          .finite .positive m₂ q₂ hm₂ := rfl
      rw [hv] at hypack hyrank
      rw [hu, hv, hadd, hypack]
      exact ⟨rfl, hyrank, le_rfl⟩
  · rw [hu]
    rcases unpack_of_nonneg hy with ⟨s', hv⟩ | hv | ⟨m₂, q₂, hm₂, hv⟩ <;> rw [hv] <;>
      exact isAbove_pack_infinity _ _
  · rcases unpack_of_nonneg hy with ⟨s', hv⟩ | hv | ⟨m₂, q₂, hm₂, hv⟩
    · have hadd : UnpackedFloat.add Format.binary64 (.finite .positive m₁ q₁ hm₁) (.zero s') =
          .finite .positive m₁ q₁ hm₁ := rfl
      rw [hu] at hxpack hxrank
      rw [hu, hv, hadd, hxpack]
      exact ⟨rfl, le_rfl, hxrank⟩
    · rw [hu, hv]
      exact isAbove_pack_infinity _ _
    · obtain ⟨n, hvalue, hadd⟩ := add_finite q₁ q₂ hm₁ hm₂
      have hpos₁ : (0 : ℚ) ≤ m₁ * 2 ^ q₁ := by positivity
      have hpos₂ : (0 : ℚ) ≤ m₂ * 2 ^ q₂ := by positivity
      obtain ⟨hnum, hrank₁⟩ := rank_le_pack_round (n := n) (e := min q₁ q₂)
        (canonical_of_unpack hu) (by linarith)
      obtain ⟨-, hrank₂⟩ := rank_le_pack_round (n := n) (e := min q₁ q₂)
        (canonical_of_unpack hv) (by linarith)
      rw [hu, hv, hadd]
      exact ⟨hnum, hrank₁, hrank₂⟩

/-- **The sum of two doubles that are not negative is at least each of them.** -/
theorem le_add {x y : Float} (hx : 0 ≤ x) (hy : 0 ≤ y) : x ≤ x + y ∧ y ≤ x + y := by
  obtain ⟨hnum, hrankx, hranky⟩ := isAbove_add hx hy
  rw [← isNaN_eq] at hnum
  exact ⟨(le_iff _ _).mpr ⟨((le_iff _ _).mp hx).2.1, hnum, hrankx⟩,
    (le_iff _ _).mpr ⟨((le_iff _ _).mp hy).2.1, hnum, hranky⟩⟩

instance : Scalar.GrowingSums Float where
  isNaN_zero := rfl
  isNaN_of_isFinite {x} h := by
    rw [isNaN_eq]
    change x.toModel.unpack.isFinite = true at h
    cases hu : x.toModel.unpack with
    | notANumber => rw [hu] at h; exact absurd h (by decide)
    | infinity _ | zero _ | finite _ _ _ _ => rfl
  isNaN_of_lt h := ⟨((lt_iff _ _).mp h).1, ((lt_iff _ _).mp h).2.1⟩
  isNaN_of_le h := ⟨((le_iff _ _).mp h).1, ((le_iff _ _).mp h).2.1⟩
  le_trans hxy hyz := by
    rw [le_iff] at hxy hyz ⊢
    exact ⟨hxy.1, hyz.2.1, hxy.2.2.trans hyz.2.2⟩
  le_add := le_add

end Double

end DryRun
