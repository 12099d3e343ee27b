import DryRun.Proofs.Number.Angles
import DryRun.Arc

/-!
# The angle that an arc sweeps

An arc turns from its start to its finish by the difference of their angles, and by a full turn
more if that is no turn in its own sense. The difference of two angles is anything between a full
turn backwards and a full turn forwards, and the two ends are possible exactly where the angle
jumps: one end of the arc has to be half a turn in the negative sense, and the other half a turn in
the positive one (`PlaneArc.CrossesCut`). A full turn backwards and a full turn more is no turn at
all. So an arc that starts above the cut and finishes below it sweeps nothing, although the two
points may be the same but for the sign of a zero, and has no length.

With one zero this cannot happen, and every arc sweeps an angle that is positive and at most a full
turn (`PlaneArc.sweep_pos`).

## Main results

* `PlaneArc.value_sweep_eq_zero_iff`: which arcs sweep nothing.
* `PlaneArc.sweep_pos`: none does, if there is one zero.
* `PlaneArc.swept_angle`: the angle that an arc sweeps, and when it has no length.
-/

namespace DryRun.PlaneArc

open Scalar.ExactAngles (value)
open Real (pi)

variable {α : Type} [Scalar α] [Scalar.ExactAngles α]

/-- Whether the start and the finish of an arc are at the two ends of the angles, so that the
difference from one to the other is a full turn against its sense of rotation. -/
def CrossesCut (a : PlaneArc α) : Prop :=
  if a.clockwise then value (a.angleOf a.start) = -pi ∧ value (a.angleOf a.finish) = pi
  else value (a.angleOf a.start) = pi ∧ value (a.angleOf a.finish) = -pi

/-! ### The difference of the angles -/

/-- Angles are at most half a turn in either sense. -/
theorem angleOf_bounds (a : PlaneArc α) (p : Point α) :
    -pi ≤ value (a.angleOf p) ∧ value (a.angleOf p) ≤ pi :=
  abs_le.1 (Scalar.ExactAngles.abs_value_atan2_le _ _)

theorem value_rawSweep (a : PlaneArc α) :
    value a.rawSweep = if a.clockwise then value (a.angleOf a.start) - value (a.angleOf a.finish)
      else value (a.angleOf a.finish) - value (a.angleOf a.start) := by
  unfold rawSweep
  split <;> exact Scalar.ExactAngles.value_sub _ _

/-- The difference of two angles is at most a full turn in either sense. -/
theorem rawSweep_bounds (a : PlaneArc α) :
    -(2 * pi) ≤ value a.rawSweep ∧ value a.rawSweep ≤ 2 * pi := by
  obtain ⟨hlow, hhigh⟩ := a.angleOf_bounds a.start
  obtain ⟨hlow', hhigh'⟩ := a.angleOf_bounds a.finish
  rw [value_rawSweep]
  split <;> constructor <;> linarith

/-- It is a full turn backwards if the arc crosses the cut, and only then. -/
theorem rawSweep_eq_iff (a : PlaneArc α) : value a.rawSweep = -(2 * pi) ↔ a.CrossesCut := by
  obtain ⟨hlow, hhigh⟩ := a.angleOf_bounds a.start
  obtain ⟨hlow', hhigh'⟩ := a.angleOf_bounds a.finish
  rw [value_rawSweep, CrossesCut]
  split
  · constructor
    · intro h
      constructor <;> linarith
    · rintro ⟨hstart, hfinish⟩
      linarith
  · constructor
    · intro h
      constructor <;> linarith
    · rintro ⟨hstart, hfinish⟩
      linarith

/-! ### The swept angle -/

/-- Angles up to this size count as none. -/
theorem value_smallestSweep : value (smallestSweep : α) = 1 / 10 ^ 9 := by
  rw [smallestSweep, Scalar.ExactAngles.value_ofDecimal, Decimal.value]
  norm_num

theorem value_sweep (a : PlaneArc α) :
    value a.sweep = min (if value a.rawSweep ≤ 1 / 10 ^ 9 then value a.rawSweep + 2 * pi
      else value a.rawSweep) (2 * pi) := by
  have hle : a.rawSweep ≤ smallestSweep ↔ value a.rawSweep ≤ 1 / 10 ^ 9 := by
    rw [Scalar.ExactAngles.le_iff, value_smallestSweep]
  rw [sweep, Scalar.ExactAngles.value_min, Scalar.ExactAngles.value_turn]
  by_cases h : a.rawSweep ≤ smallestSweep
  · rw [if_pos h, if_pos (hle.1 h), Scalar.ExactAngles.value_add, Scalar.ExactAngles.value_turn]
  · rw [if_neg h, if_neg fun h' => h (hle.2 h')]

/-- No arc sweeps less than nothing or more than a full turn. -/
theorem sweep_bounds (a : PlaneArc α) : 0 ≤ value a.sweep ∧ value a.sweep ≤ 2 * pi := by
  obtain ⟨hlow, -⟩ := a.rawSweep_bounds
  have hpi := Real.pi_pos
  rw [value_sweep]
  refine ⟨le_min ?_ (by linarith), min_le_right _ _⟩
  split
  · linarith
  · next h => linarith [not_le.1 h, (by positivity : (0 : ℝ) ≤ 1 / 10 ^ 9)]

/-- **An arc sweeps nothing exactly if it crosses the cut.** -/
theorem value_sweep_eq_zero_iff (a : PlaneArc α) : value a.sweep = 0 ↔ a.CrossesCut := by
  have hpi := Real.pi_pos
  have htiny : (0 : ℝ) < 1 / 10 ^ 9 := by positivity
  rw [← rawSweep_eq_iff, value_sweep]
  constructor
  · intro h
    rcases min_choice (if value a.rawSweep ≤ 1 / 10 ^ 9 then value a.rawSweep + 2 * pi
      else value a.rawSweep) (2 * pi) with hmin | hmin <;> rw [h] at hmin
    · split at hmin
      · linarith
      · next hlarge => linarith [not_le.1 hlarge]
    · linarith
  · intro h
    rw [if_pos (by linarith), h, neg_add_cancel, min_eq_left (by linarith)]

/-- An arc between points in the same direction is a full circle. -/
theorem value_sweep_of_angle_eq {a : PlaneArc α}
    (h : value (a.angleOf a.start) = value (a.angleOf a.finish)) : value a.sweep = 2 * pi := by
  have hraw : value a.rawSweep = 0 := by
    rw [value_rawSweep, h, sub_self, ite_self]
  rw [value_sweep, hraw, if_pos (by positivity), zero_add, min_self]

/-- **With one zero every arc sweeps an angle.** -/
theorem sweep_pos (a : PlaneArc ℝ) : 0 < a.sweep := by
  refine lt_of_le_of_ne a.sweep_bounds.1 fun h => ?_
  have hcut := a.value_sweep_eq_zero_iff.1 h.symm
  have hangle (p : Point ℝ) : -pi < value (a.angleOf p) := Exact.neg_pi_lt_atan2 _ _
  unfold CrossesCut at hcut
  split at hcut
  · exact (hangle a.start).ne' hcut.1
  · exact (hangle a.finish).ne' hcut.2

/-! ### The length of an arc -/

/-- An arc has no length if it moves neither in its plane nor along the normal. -/
theorem value_length_eq_zero_iff (a : PlaneArc α) (helical : α) :
    value (a.length helical) = 0 ↔
      (value a.radius = 0 ∨ a.CrossesCut) ∧ value helical = 0 := by
  rw [length, Scalar.ExactAngles.value_hypot, Scalar.ExactAngles.value_mul,
    Real.sqrt_eq_zero (by positivity), ← value_sweep_eq_zero_iff,
    add_eq_zero_iff_of_nonneg (sq_nonneg _) (sq_nonneg _), sq_eq_zero_iff, sq_eq_zero_iff,
    mul_eq_zero]

/-- **The angle that an arc sweeps.** It is at least zero and at most a full turn, and it is a full
turn if the arc finishes where it starts. It is zero exactly if the angles of the start and of the
finish, as seen from the centre, are the two ends of the angles, with a full turn against the sense
of rotation between them; and an arc has no length exactly if it does not move along the normal and
has no radius or such ends. -/
theorem swept_angle (a : PlaneArc α) :
    (0 ≤ value a.sweep ∧ value a.sweep ≤ 2 * pi) ∧
    (a.start = a.finish → value a.sweep = 2 * pi) ∧
    (value a.sweep = 0 ↔ a.CrossesCut) ∧
    ∀ helical, value (a.length helical) = 0 ↔
      (value a.radius = 0 ∨ a.CrossesCut) ∧ value helical = 0 := by
  refine ⟨a.sweep_bounds, fun h => ?_, a.value_sweep_eq_zero_iff, a.value_length_eq_zero_iff⟩
  exact value_sweep_of_angle_eq (by rw [h])

/-- A counter-clockwise arc around the origin, from the point behind it to the same point with a
zero of the given sign. -/
noncomputable def around (negative : Bool) : PlaneArc SignedReal where
  start := ⟨.of (-1) true, .of 0 false⟩
  finish := ⟨.of (-1) true, .of 0 negative⟩
  centre := ⟨.of 0 false, .of 0 false⟩
  clockwise := false

/-- The angle of the point behind the origin is told by the sign of its zero. -/
theorem angleOf_around (negative sign : Bool) :
    value ((around negative).angleOf ⟨.of (-1) true, .of 0 sign⟩) = if sign then -pi else pi := by
  have hy : ((.of 0 sign : SignedReal) - .of 0 false).value = 0 := sub_self 0
  have hx : ((.of (-1) true : SignedReal) - .of 0 false).negative = true :=
    SignedReal.negative_of_neg (by norm_num) _
  have hsign : ((.of 0 sign : SignedReal) - .of 0 false).negative = sign := by
    change (SignedReal.of (0 - 0) ((SignedReal.of 0 sign).negative &&
      !(SignedReal.of 0 false).negative)).negative = sign
    rw [sub_self, SignedReal.negative_of_zero, SignedReal.negative_of_zero,
      SignedReal.negative_of_zero, Bool.not_false, Bool.and_true]
  have hangle := SignedReal.value_angle_of_back hy hx
  rw [hsign] at hangle
  exact hangle

/-- A full circle from the point behind the origin sweeps a full turn. If the zero of its finish
has the other sign, it is an arc between equal points with a radius of one that sweeps nothing and
has no length. -/
theorem swept_angle_around :
    value (around false).sweep = 2 * pi ∧
      ((around true).finish.x == (around true).start.x) = true ∧
      ((around true).finish.y == (around true).start.y) = true ∧
      value (around true).radius = 1 ∧ value (around true).sweep = 0 ∧
      value ((around true).length 0) = 0 := by
  obtain ⟨-, hcircle, -, -⟩ := swept_angle (around false)
  obtain ⟨-, -, hsweep, hlength⟩ := swept_angle (around true)
  have hcut : (around true).CrossesCut := ⟨angleOf_around true false, angleOf_around true true⟩
  have hradius : value (around true).radius = 1 := by
    change Real.sqrt ((-1 - 0) ^ 2 + (0 - 0) ^ 2) = 1
    norm_num
  exact ⟨hcircle rfl, decide_eq_true rfl, decide_eq_true rfl, hradius, hsweep.2 hcut,
    (hlength 0).2 ⟨.inr hcut, rfl⟩⟩

end DryRun.PlaneArc
