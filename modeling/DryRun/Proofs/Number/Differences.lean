import DryRun.Proofs.Number.Growth

/-!
# What is left of a total

The difference of two readings of a total that only grows is what was added in between, as long as
the earlier reading is finite. An infinite total stays as it is whatever is added, and its
difference with itself is no number. `Scalar.OrderedDifferences` is this law; doubles satisfy it,
although their differences round.

For doubles it is read off the model of their subtraction. Two finite doubles are brought to the
smaller of their exponents, where the larger double has the larger mantissa
(`Double.shiftLeft_le_of_rank_le`). If anything is left, it is at least the least double, so what
it is rounded to is positive (`Double.rank_le_pack_round`).

## Main results

* `Double.nonneg_sub`: a double that is not negative and finite can be taken away from a larger one.
* `Double.isNaN_sub`: an infinite one cannot.
-/

namespace DryRun

namespace Scalar

variable (α : Type) [Scalar α]

/-- Taking a number that is not negative away from one that is not smaller leaves a number that is
not negative if it is finite, and no number if it is infinite; what is at most a finite number is
finite. -/
class OrderedDifferences : Prop extends GrowingSums α where
  isFinite_of_le : ∀ {a b : α}, 0 ≤ a → a ≤ b → isFinite b = true → isFinite a = true
  nonneg_sub : ∀ {a b : α}, 0 ≤ a → a ≤ b → isFinite a = true → 0 ≤ b - a
  isNaN_sub : ∀ {a b : α}, 0 ≤ a → a ≤ b → isFinite a = false → isNaN (b - a) = true

variable {α}

/-- What is left is a number exactly if what is taken away is finite. -/
theorem OrderedDifferences.isNaN_sub_eq [OrderedDifferences α] {a b : α} (ha : 0 ≤ a)
    (hab : a ≤ b) : isNaN (b - a) = !isFinite a := by
  cases hfinite : isFinite a with
  | true => exact (GrowingSums.isNaN_of_le (nonneg_sub ha hab hfinite)).2
  | false => exact isNaN_sub ha hab hfinite

/-- What is left is at least zero exactly if what is taken away is finite. -/
theorem OrderedDifferences.nonneg_sub_iff [OrderedDifferences α] {a b : α} (ha : 0 ≤ a)
    (hab : a ≤ b) : 0 ≤ b - a ↔ isFinite a = true := by
  refine ⟨fun h => ?_, nonneg_sub ha hab⟩
  have hnumber := (GrowingSums.isNaN_of_le h).2
  rwa [isNaN_sub_eq ha hab, Bool.not_eq_false'] at hnumber

end Scalar

namespace Exact

instance : Scalar.OrderedDifferences ℝ where
  isFinite_of_le _ _ _ := isFinite_eq_true _
  nonneg_sub _ hab _ := sub_nonneg.mpr hab
  isNaN_sub _ _ hinfinite := absurd hinfinite (by simp)

end Exact

namespace Double

open Float.Model (UnpackedFloat Format)
open Float.Model.UnpackedFloat

variable {m m' : Nat} {q q' : Int}

/-- At the smaller of their exponents the larger of two doubles has the larger mantissa. -/
theorem shiftLeft_le_of_rank_le (h : Canonical m q) (h' : Canonical m' q')
    (hle : rank (.finite .positive m q h.pos) ≤ rank (.finite .positive m' q' h'.pos)) :
    m <<< (q - min q q').toNat ≤ m' <<< (q' - min q q').toNat := by
  have hlex : q < q' ∨ q = q' ∧ m ≤ m' := by
    simpa [rank, Prod.Lex.toLex_le_toLex] using hle
  rw [Nat.shiftLeft_eq, Nat.shiftLeft_eq]
  rcases hlex with hlt | ⟨rfl, hm⟩
  · have hnormal : 2 ^ 52 ≤ m' := by
      have := h.le_exponent
      have := h'.normal_or_subnormal
      omega
    obtain ⟨k, hk⟩ : ∃ k, (q' - min q q').toNat = k + 1 := ⟨(q' - min q q').toNat - 1, by omega⟩
    have hzero : (q - min q q').toNat = 0 := by omega
    rw [hzero, hk, pow_zero, mul_one, pow_succ]
    calc m
      _ ≤ 2 ^ 53 := h.lt.le
      _ = 2 ^ 52 * (1 * 2) := by norm_num
      _ ≤ m' * (2 ^ k * 2) := by gcongr; exact Nat.one_le_two_pow
  · exact Nat.mul_le_mul_right _ hm

/-- The difference of two mantissas at the smaller of their exponents is rounded. -/
theorem sub_finite (hm : 0 < m) (hm' : 0 < m')
    (hle : m <<< (q - min q q').toNat ≤ m' <<< (q' - min q q').toNat) :
    UnpackedFloat.sub Format.binary64 (.finite .positive m' q' hm') (.finite .positive m q hm) =
        .zero .positive ∨
      ∃ n : Nat, 0 < n ∧
        UnpackedFloat.sub Format.binary64 (.finite .positive m' q' hm')
          (.finite .positive m q hm) =
            UnpackedFloat.round Format.binary64 .positive n (min q q') := by
  have hsub : UnpackedFloat.sub Format.binary64 (.finite .positive m' q' hm')
      (.finite .positive m q hm) = UnpackedFloat.normalize Format.binary64
        ((m' <<< (q' - min q q').toNat : Nat) - (m <<< (q - min q q').toNat : Nat)) (min q q')
        .positive := by
    rw [min_comm q q']
    rfl
  rw [hsub]
  obtain ⟨n, hn⟩ := Nat.exists_eq_add_of_le hle
  rw [hn, Nat.cast_add, add_sub_cancel_left]
  rcases Nat.eq_zero_or_pos n with rfl | hpos
  · exact .inl rfl
  · have hcompare : compare (n : Int) 0 = .gt := by
      rw [compare_gt_iff_gt]
      omega
    refine .inr ⟨n, hpos, ?_⟩
    unfold UnpackedFloat.normalize
    simp only [hcompare]
    rfl

/-- A value is a number that is not negative. -/
def IsNonneg (u : UnpackedFloat) : Prop := u.isNaN = false ∧ rank (.zero .positive) ≤ rank u

theorem nonneg_iff {x : Float} : 0 ≤ x ↔ IsNonneg x.toModel.unpack := by
  rw [le_iff, isNaN_eq x]
  exact and_iff_right rfl

theorem isNonneg_pack_infinity : IsNonneg (Float.Model.pack (.infinity .positive)).unpack := by
  rw [unpack_pack_infinity]
  exact ⟨rfl, rank_le_infinity _⟩

/-- The difference of two finite doubles is not negative if the first is not smaller. -/
theorem isNonneg_pack_sub (h : Canonical m q) (h' : Canonical m' q')
    (hle : rank (.finite .positive m q h.pos) ≤ rank (.finite .positive m' q' h'.pos)) :
    IsNonneg (Float.Model.pack (UnpackedFloat.sub Format.binary64 (.finite .positive m' q' h'.pos)
      (.finite .positive m q h.pos))).unpack := by
  rcases sub_finite h.pos h'.pos (shiftLeft_le_of_rank_le h h' hle) with hzero | ⟨n, hn, hround⟩
  · rw [hzero]
    exact ⟨rfl, le_rfl⟩
  · -- what is left is a multiple of the least double
    have hleast : Canonical 1 (-1074) := ⟨by decide, by decide, by decide, by decide, .inr rfl⟩
    have hexp : (-1074 : Int) ≤ min q q' := le_min h.le_exponent h'.le_exponent
    have hvalue : ((1 : Nat) * 2 ^ (-1074 : Int) : ℚ) ≤ n * 2 ^ min q q' := by
      have hone : ((1 : Nat) : ℚ) ≤ n := by exact_mod_cast hn
      have htwo : (2 : ℚ) ^ (-1074 : Int) ≤ 2 ^ min q q' := zpow_le_zpow_right₀ one_le_two hexp
      gcongr
    obtain ⟨hnum, hrank⟩ := rank_le_pack_round hleast hvalue
    rw [hround]
    refine ⟨hnum, le_trans ?_ hrank⟩
    exact Prod.Lex.toLex_le_toLex.mpr (.inl (by decide : (0 : Int) < 1))

/-- **Taking a finite double that is not negative away from one that is not smaller** leaves a
number that is not negative. -/
theorem nonneg_sub {x y : Float} (hx : 0 ≤ x) (hxy : x ≤ y) (hfinite : x.isFinite = true) :
    0 ≤ y - x := by
  change x.toModel.unpack.isFinite = true at hfinite
  have hy : 0 ≤ y := Scalar.GrowingSums.le_trans hx hxy
  have hnonneg := nonneg_iff.mp hy
  have hypack := congrArg Float.Model.unpack (pack_unpack y.toModel)
  obtain ⟨-, -, hrank⟩ := (le_iff x y).mp hxy
  rw [nonneg_iff]
  change IsNonneg (Float.Model.pack (UnpackedFloat.sub Format.binary64 y.toModel.unpack
    x.toModel.unpack)).unpack
  rcases unpack_of_nonneg hx with ⟨s, hu⟩ | hu | ⟨m, q, hm, hu⟩
  · rcases unpack_of_nonneg hy with ⟨s', hv⟩ | hv | ⟨m', q', hm', hv⟩
    · rw [hu, hv]
      cases s <;> cases s' <;> exact ⟨rfl, le_rfl⟩
    · rw [hu, hv]
      exact isNonneg_pack_infinity
    · have hsub : UnpackedFloat.sub Format.binary64 (.finite .positive m' q' hm') (.zero s) =
          .finite .positive m' q' hm' := rfl
      rw [hv] at hypack hnonneg
      rw [hu, hv, hsub, hypack]
      exact hnonneg
  · rw [hu] at hfinite
    exact absurd hfinite (by decide)
  · rcases unpack_of_nonneg hy with ⟨s', hv⟩ | hv | ⟨m', q', hm', hv⟩
    · rw [hu, hv] at hrank
      exact absurd hrank (by simp [rank, Prod.Lex.toLex_le_toLex])
    · rw [hu, hv]
      exact isNonneg_pack_infinity
    · rw [hu, hv] at hrank
      rw [hu, hv]
      exact isNonneg_pack_sub (canonical_of_unpack hu) (canonical_of_unpack hv) hrank

/-- Nothing but an infinite double is at least an infinite one. -/
theorem unpack_of_le_infinite {x y : Float} (hx : 0 ≤ x) (hxy : x ≤ y)
    (hinfinite : x.isFinite = false) :
    x.toModel.unpack = .infinity .positive ∧ y.toModel.unpack = .infinity .positive := by
  change x.toModel.unpack.isFinite = false at hinfinite
  have hu : x.toModel.unpack = .infinity .positive := by
    rcases unpack_of_nonneg hx with ⟨s, hu⟩ | hu | ⟨m, q, hm, hu⟩
    · rw [hu] at hinfinite
      cases hinfinite
    · exact hu
    · rw [hu] at hinfinite
      cases hinfinite
  refine ⟨hu, ?_⟩
  obtain ⟨-, -, hrank⟩ := (le_iff x y).mp hxy
  rcases unpack_of_nonneg (Scalar.GrowingSums.le_trans hx hxy) with ⟨s, hv⟩ | hv | ⟨m, q, hm, hv⟩
  · rw [hu, hv] at hrank
    exact absurd hrank (by simp [rank, Prod.Lex.toLex_le_toLex])
  · exact hv
  · rw [hu, hv] at hrank
    exact absurd hrank (by simp [rank, Prod.Lex.toLex_le_toLex])

/-- **An infinite double cannot be taken away** from one that is not smaller. -/
theorem isNaN_sub {x y : Float} (hx : 0 ≤ x) (hxy : x ≤ y) (hinfinite : x.isFinite = false) :
    Scalar.isNaN (y - x) = true := by
  obtain ⟨hu, hv⟩ := unpack_of_le_infinite hx hxy hinfinite
  rw [isNaN_eq]
  change (Float.Model.pack (UnpackedFloat.sub Format.binary64 y.toModel.unpack
    x.toModel.unpack)).unpack.isNaN = true
  rw [hu, hv]
  rfl

instance : Scalar.OrderedDifferences Float where
  isFinite_of_le {x y} hx hxy hfinite := by
    change y.toModel.unpack.isFinite = true at hfinite
    cases h : x.isFinite with
    | true => exact h
    | false =>
        rw [(unpack_of_le_infinite hx hxy h).2] at hfinite
        cases hfinite
  nonneg_sub := nonneg_sub
  isNaN_sub := isNaN_sub

end Double

end DryRun
