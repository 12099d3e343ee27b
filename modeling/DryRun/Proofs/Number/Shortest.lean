import DryRun.Proofs.Number.OfDecimal

/-!
# Shortest decimals name their doubles

The shortest decimal of a double is searched on the grids of multiples of `10 ^ k`, from the
coarsest down, and the search is cut off after a fixed number of grids. A point that it takes
lies in the interval of the double (`Interval.contains_of_gridPoint?`), so the double is the one
nearest to it. The search always ends with such a point: a grid that has none is not finer than
half the interval (`Interval.le_of_gridPoint?_eq_none`), and the last of the grids is finer, since
it lies twenty-one powers of ten below the first and doubles have no more than 53 bits.

## Main results

* `Double.nearest_shortest`: a double is the nearest one to its shortest decimal.
* `Double.ofDecimal_of_numeral`: reading the decimal that names a double, or any other decimal
  of the same sign and value, gives the double back.
-/

namespace DryRun

namespace Double

open Float.Model.UnpackedFloat

variable {m : Nat} {q : Int}

/-! ### One grid -/

/-- The two points of a grid that are tried are tested for lying in the interval. -/
theorem Interval.contains_iff {i : Interval} {num den c : Nat} (hnum : 0 < num) :
    i.Contains (c * den / num : ℚ) ↔
      (if i.closed then decide (i.low * num ≤ c * den ∧ c * den ≤ i.high * num)
        else decide (i.low * num < c * den ∧ c * den < i.high * num)) = true := by
  have hpos : (0 : ℚ) < num := by exact_mod_cast hnum
  unfold Interval.Contains
  split
  · rw [le_div_iff₀ hpos, div_le_iff₀ hpos, decide_eq_true_iff]
    norm_cast
  · rw [lt_div_iff₀ hpos, div_lt_iff₀ hpos, decide_eq_true_iff]
    norm_cast

/-- Rounding takes one of the two points next to a quotient. -/
theorem roundDiv_eq_or (num den : Nat) (tie : Tie) :
    roundDiv num den tie = num / den ∨ roundDiv num den tie = num / den + 1 := by
  unfold roundDiv
  simp only
  split
  · exact .inl rfl
  · exact .inr rfl
  · cases tie with
    | up => exact .inr rfl
    | even => simp only; omega

/-- The point that is taken from a grid lies in the interval. -/
theorem Interval.contains_of_gridPoint? {i : Interval} {num den c : Nat} {tie : Tie}
    (hnum : 0 < num) (h : i.gridPoint? num den tie = some c) : i.Contains (c * den / num) := by
  rw [Interval.contains_iff hnum]
  unfold Interval.gridPoint? at h
  simp only at h
  split at h
  · next hbelow habove =>
      rcases roundDiv_eq_or (i.mid * num) den tie with hc | hc <;> grind
  · grind
  · grind
  · grind

/-- A grid without a point in the interval is not finer than the part of the interval above the
double. -/
theorem Interval.le_of_gridPoint?_eq_none {i : Interval} {num den : Nat} {tie : Tie}
    (hden : 0 < den) (hlow : i.low ≤ i.mid) (h : i.gridPoint? num den tie = none) :
    i.high * num ≤ i.mid * num + den := by
  have hlt : i.mid * num < (i.mid * num / den + 1) * den :=
    Nat.lt_mul_of_div_lt (Nat.lt_succ_self _) hden
  have hle : i.mid * num / den * den ≤ i.mid * num := Nat.div_mul_le_self _ _
  have hlow : i.low * num ≤ i.mid * num := Nat.mul_le_mul_right _ hlow
  unfold Interval.gridPoint? at h
  simp only at h
  split at h <;> grind

/-! ### The search -/

/-- The value of `n · 2 ^ e` as a fraction. -/
theorem binaryRatio_value (n : Nat) (e : Int) :
    0 < (binaryRatio n e).2 ∧ ((binaryRatio n e).1 / (binaryRatio n e).2 : ℚ) = n * 2 ^ e := by
  unfold binaryRatio
  split
  · next he =>
      obtain ⟨k, rfl⟩ := Int.eq_ofNat_of_zero_le he
      refine ⟨Nat.one_pos, ?_⟩
      change ((n * 2 ^ k : Nat) / (1 : Nat) : ℚ) = _
      rw [zpow_natCast]
      push_cast
      rw [div_one]
  · next he =>
      obtain ⟨k, rfl⟩ : ∃ k : Nat, e = -k := ⟨(-e).toNat, by omega⟩
      rw [neg_neg, Int.toNat_natCast]
      refine ⟨Nat.pow_pos Nat.two_pos, ?_⟩
      change (n / (2 ^ k : Nat) : ℚ) = _
      rw [zpow_neg, zpow_natCast, div_eq_mul_inv]
      push_cast
      rfl

/-- The value of a fraction divided by `10 ^ k`. -/
theorem overPowerOfTen_value {r : Nat × Nat} (hr : 0 < r.2) (k : Int) :
    0 < (overPowerOfTen r k).2 ∧
      ((overPowerOfTen r k).1 / (overPowerOfTen r k).2 : ℚ) = r.1 / r.2 / 10 ^ k := by
  unfold overPowerOfTen
  split
  · next hk =>
      obtain ⟨k, rfl⟩ := Int.eq_ofNat_of_zero_le hk
      refine ⟨Nat.mul_pos hr (Nat.pow_pos (by norm_num)), ?_⟩
      change (r.1 / (r.2 * 10 ^ k : Nat) : ℚ) = _
      rw [zpow_natCast, div_div]
      push_cast
      rfl
  · next hk =>
      obtain ⟨k, rfl⟩ : ∃ n : Nat, k = -n := ⟨(-k).toNat, by omega⟩
      rw [neg_neg, Int.toNat_natCast]
      refine ⟨hr, ?_⟩
      change ((r.1 * 10 ^ k : Nat) / r.2 : ℚ) = _
      rw [zpow_neg, zpow_natCast, div_inv_eq_mul, div_mul_eq_mul_div]
      push_cast
      rfl

/-- The grid of multiples of `10 ^ k`, in quarters of `2 ^ q`. -/
theorem grid_value (q k : Int) {num den : Nat}
    (h : overPowerOfTen (binaryRatio 1 (q - 2)) k = (num, den)) :
    0 < num ∧ 0 < den ∧ (num / den : ℚ) = 2 ^ (q - 2) / 10 ^ k := by
  obtain ⟨hratio, hvalue⟩ := binaryRatio_value 1 (q - 2)
  obtain ⟨hden, hgrid⟩ := overPowerOfTen_value hratio k
  rw [hvalue, Nat.cast_one, one_mul, h] at hgrid
  rw [h] at hden
  refine ⟨Nat.pos_of_ne_zero ?_, hden, hgrid⟩
  rintro rfl
  have hpos : (0 : ℚ) < 2 ^ (q - 2) / 10 ^ k := by positivity
  rw [← hgrid, Nat.cast_zero, zero_div] at hpos
  exact lt_irrefl 0 hpos

theorem low_le_mid (m : Nat) (q : Int) : (interval m q).low ≤ (interval m q).mid := by
  simp only [interval]
  split <;> omega

/-- One step of the search: it ends with a decimal that the double is nearest to, or it goes on
to the next grid, and then this one was not finer than half the interval. -/
theorem searchGrids_succ (m : Nat) (q : Int) (tie : Tie) (fuel : Nat) (k : Int) :
    (∃ c : Nat, searchGrids (interval m q) q tie (fuel + 1) k = (c, k) ∧
      Nearest m q (c * 10 ^ k)) ∨
    ((2 : ℚ) ^ (q - 1) ≤ 10 ^ k ∧ searchGrids (interval m q) q tie (fuel + 1) k =
      searchGrids (interval m q) q tie fuel (k - 1)) := by
  obtain ⟨⟨num, den⟩, hgrid⟩ : ∃ r, overPowerOfTen (binaryRatio 1 (q - 2)) k = r := ⟨_, rfl⟩
  obtain ⟨hnum, hden, hvalue⟩ := grid_value q k hgrid
  have hnum' : (0 : ℚ) < num := by exact_mod_cast hnum
  have hden' : (0 : ℚ) < den := by exact_mod_cast hden
  rw [searchGrids, hgrid]
  simp only
  cases hpoint : (interval m q).gridPoint? num den tie with
  | some c =>
      left
      refine ⟨c, rfl, ?_⟩
      have hcontains := Interval.contains_of_gridPoint? hnum hpoint
      have hquarters : (c * den / num : ℚ) = c * 10 ^ k / 2 ^ (q - 2) := by
        rw [mul_div_assoc, mul_div_assoc, ← inv_div (num : ℚ), hvalue, inv_div]
      rwa [hquarters] at hcontains
  | none =>
      right
      refine ⟨?_, rfl⟩
      have hle := Interval.le_of_gridPoint?_eq_none hden (low_le_mid m q) hpoint
      have hle : 2 * num ≤ den := by
        simp only [interval] at hle
        linarith
      have hle : (2 * (num / den) : ℚ) ≤ 1 := by
        rw [← mul_div_assoc, div_le_one hden']
        exact_mod_cast hle
      rw [hvalue, ← mul_div_assoc, div_le_one (by positivity)] at hle
      have hexp : q - 1 = 1 + (q - 2) := by omega
      rw [hexp, zpow_add₀ two_ne_zero, zpow_one]
      exact hle

/-- A search that reaches a grid finer than half the interval ends with a decimal that the double
is nearest to. -/
theorem nearest_searchGrids (m : Nat) (tie : Tie) (fuel : Nat) (k : Int)
    (hfine : (10 : ℚ) ^ (k - fuel) < 2 ^ (q - 1)) :
    Nearest m q ((searchGrids (interval m q) q tie (fuel + 1) k).1 *
      10 ^ (searchGrids (interval m q) q tie (fuel + 1) k).2) := by
  induction fuel generalizing k with
  | zero =>
      rcases searchGrids_succ m q tie 0 k with ⟨c, hend, hnearest⟩ | ⟨hcoarse, -⟩
      · rwa [hend]
      · rw [Nat.cast_zero, sub_zero] at hfine
        exact absurd hfine (not_lt.mpr hcoarse)
  | succ fuel ih =>
      rcases searchGrids_succ m q tie (fuel + 1) k with ⟨c, hend, hnearest⟩ | ⟨-, hnext⟩
      · rwa [hend]
      · rw [hnext]
        apply ih
        rwa [show k - 1 - (fuel : Int) = k - (fuel + 1 : Nat) by omega]

/-! ### The last grid -/

/-- Powers of ten and of two compared by the fractions `196 / 59` above and `93 / 28` below the
binary logarithm of ten. -/
theorem ten_zpow_lt_two_zpow {k j : Int} (hpos : 0 ≤ k → 196 * k < 59 * j)
    (hneg : k ≤ 0 → 93 * k < 28 * j) : (10 : ℚ) ^ k < 2 ^ j := by
  rcases le_total 0 k with hk | hk
  · refine lt_of_pow_lt_pow_left₀ 59 (by positivity) ?_
    calc ((10 : ℚ) ^ k) ^ 59
      _ = ((10 : ℚ) ^ 59) ^ k := by rw [← zpow_natCast, ← zpow_natCast, zpow_comm]
      _ ≤ ((2 : ℚ) ^ 196) ^ k := zpow_le_zpow_left₀ hk (by norm_num) (by norm_num)
      _ = 2 ^ (196 * k) := by rw [zpow_mul]; rfl
      _ < 2 ^ (j * 59) := zpow_lt_zpow_right₀ one_lt_two (by have := hpos hk; omega)
      _ = (2 ^ j) ^ 59 := by rw [zpow_mul]; rfl
  · obtain ⟨n, rfl⟩ : ∃ n : Nat, k = -n := ⟨(-k).toNat, by omega⟩
    refine lt_of_pow_lt_pow_left₀ 28 (by positivity) ?_
    calc ((10 : ℚ) ^ (-n : Int)) ^ 28
      _ = (((10 : ℚ) ^ 28) ^ n)⁻¹ := by rw [zpow_neg, zpow_natCast, inv_pow, pow_right_comm]
      _ ≤ (((2 : ℚ) ^ 93) ^ n)⁻¹ := by gcongr ?_⁻¹; gcongr; norm_num
      _ = 2 ^ (93 * (-n : Int)) := by rw [zpow_mul, zpow_neg, zpow_natCast]; rfl
      _ < 2 ^ (j * 28) := zpow_lt_zpow_right₀ one_lt_two (by have := hneg hk; omega)
      _ = (2 ^ j) ^ 28 := by rw [zpow_mul]; rfl

/-- The last grid of the search is finer than half the interval. -/
theorem last_grid_fine (h : Canonical m q) :
    (10 : ℚ) ^ ((m.log2 + 1 + q) * 30103 / 100000 + 2 - (21 : Nat)) < 2 ^ (q - 1) := by
  have hlog : m.log2 < 53 := (Nat.log2_lt h.pos.ne').mpr h.lt
  have hmin := h.le_exponent
  have hmax := h.exponent_le
  apply ten_zpow_lt_two_zpow <;> omega

end Double

/-! ### Trailing zeros -/

namespace Decimal

theorem dropZeros_value (fuel n : Nat) (e : Int) :
    ((dropZeros fuel n e).1 * 10 ^ (dropZeros fuel n e).2 : ℚ) = n * 10 ^ e := by
  induction fuel generalizing n e with
  | zero => rfl
  | succ fuel ih =>
      unfold dropZeros
      split
      · next hzero =>
          have hn : n = 10 * (n / 10) := by omega
          have hcast : (n : ℚ) = 10 * (n / 10 : Nat) := by exact_mod_cast hn
          rw [ih, hcast, zpow_add₀ (by norm_num), zpow_one]
          ring
      · rfl

/-- Taking the trailing zeros of a significand into the exponent keeps the value. -/
theorem absValue_normalize (d : Decimal) : d.normalize.absValue = d.absValue := by
  unfold normalize
  split
  · next hzero => rw [absValue, absValue, hzero, Nat.cast_zero, zero_mul, zero_mul]
  · exact dropZeros_value _ _ _

theorem negative_normalize (d : Decimal) : d.normalize.negative = d.negative := by
  unfold normalize
  split <;> rfl

end Decimal

namespace Double

open Float.Model.UnpackedFloat

/-! ### The round trip -/

/-- **A double is the nearest one to its shortest decimal.** -/
theorem nearest_shortest {m : Nat} {q : Int} (h : Canonical m q) (negative : Bool) (tie : Tie) :
    Nearest m q (shortest negative m q tie).absValue := by
  rw [shortest, Decimal.absValue_normalize]
  exact nearest_searchGrids m tie 21 _ (last_grid_fine h)

/-- **The decimal that names a double is read back as the double**, and so is every other decimal
of the same sign and value. -/
theorem ofDecimal_of_numeral {x : Float} {tie : Tie} {d d' : Decimal}
    (h : numeral tie x = .finite d) (hsign : d'.negative = d.negative)
    (hvalue : d'.absValue = d.absValue) : ofDecimal d' = x := by
  unfold numeral at h
  split at h
  · cases h
  · cases h
  · next s hx =>
      cases h
      refine ofDecimal_of_zero hx hsign ?_
      rw [Decimal.absValue, Decimal.absValue, Nat.cast_zero, zero_mul] at hvalue
      exact_mod_cast (mul_eq_zero_iff_right (by positivity)).mp hvalue
  · next s m q hm hx =>
      cases h
      refine ofDecimal_of_nearest hx (hsign.trans (Decimal.negative_normalize _)) ?_
      rw [hvalue]
      exact nearest_shortest (canonical_of_unpack hx) _ tie

/-- A finite double is named by a decimal. -/
theorem exists_numeral_eq {x : Float} (h : Scalar.isFinite x) (tie : Tie) :
    ∃ d, numeral tie x = .finite d := by
  change x.toModel.unpack.isFinite = true at h
  unfold numeral
  split
  · next hx => rw [hx] at h; cases h
  · next s hx => rw [hx] at h; cases h
  · exact ⟨_, rfl⟩
  · exact ⟨_, rfl⟩

end Double

end DryRun
