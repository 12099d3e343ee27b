import DryRun.Proofs.Number.Real
import DryRun.Arc

/-!
# The centre of an arc with a radius

Two points and a radius leave two circles, and each of them two arcs between the points. Which
one is meant is said by the sense of rotation and by the sign of the radius, where a negative
one asks for the arc that is longer than a semicircle. All of this ends up in the sign of one
number, the distance of the centre from the chord, and a wrong sign still gives a point with the
right distance from both ends.

So the centre is described without that number (`PlaneArc.Centred`): it has the given distance
from both ends, and it is on the side of the chord that the arc asks for. In exact numbers there
is just one such point (`PlaneArc.Centred.unique`), if the radius can span the chord at all.

Sides are told apart by the oriented area of a triangle (`Point.orientation`). The proofs compare
a point with the chord by its coordinates along and across it (`Point.along`,
`Point.orientation`), in which the two distances become one equation for each coordinate.

## Main results

* `PlaneArc.centred_besideMiddle`: the point beside the middle of the chord is the right one.
* `PlaneArc.centre_resolve_reverse`: an arc that is run backwards has the same centre.
* `PlaneArc.radius_centre`: what the centre of an arc with a radius is.
-/

namespace DryRun

namespace Point

variable {α : Type} [Scalar α]

/-- The distance of two points. -/
def distance (p q : Point α) : α := Scalar.hypot (q.x - p.x) (q.y - p.y)

/-- The point half way between two others. -/
def middle (p q : Point α) : Point α := ⟨Scalar.half * (p.x + q.x), Scalar.half * (p.y + q.y)⟩

/-- Twice the oriented area of the triangle of three points. Seen on the way from `p` to `q`, the
point `z` is on the left if it is positive, on the right if it is negative, and straight ahead or
behind if it is zero. -/
def orientation (p q z : Point α) : α :=
  (q.x - p.x) * (z.y - p.y) - (q.y - p.y) * (z.x - p.x)

/-- How far the point `z` is on the way from `p` to `q`, times the length of the way. -/
def along (p q z : Point α) : α := (q.x - p.x) * (z.x - p.x) + (q.y - p.y) * (z.y - p.y)

/-! ### Distances in exact numbers -/

/-- The square of a distance. -/
theorem distance_sq (p q : Point ℝ) : p.distance q ^ 2 = (q.x - p.x) ^ 2 + (q.y - p.y) ^ 2 :=
  Real.sq_sqrt (by positivity)

theorem distance_nonneg (p q : Point ℝ) : 0 ≤ p.distance q := Real.sqrt_nonneg _

/-- A distance is told by its square. -/
theorem distance_eq_abs_iff {p q : Point ℝ} {r : ℝ} :
    p.distance q = |r| ↔ (q.x - p.x) ^ 2 + (q.y - p.y) ^ 2 = r ^ 2 := by
  rw [← distance_sq, sq_eq_sq_iff_abs_eq_abs, abs_of_nonneg (distance_nonneg p q)]

theorem distance_comm (p q : Point ℝ) : p.distance q = q.distance p := by
  refine (sq_eq_sq₀ (distance_nonneg p q) (distance_nonneg q p)).1 ?_
  rw [distance_sq, distance_sq]
  ring

theorem middle_comm (p q : Point ℝ) : p.middle q = q.middle p := by
  simp only [middle, add_comm]

/-- A point is told by its coordinates along and across a way that leads somewhere. -/
theorem eq_of_along_of_orientation {p q z z' : Point ℝ} (hpq : 0 < p.distance q)
    (halong : along p q z = along p q z') (hacross : orientation p q z = orientation p q z') :
    z = z' := by
  have hlength : 0 < (q.x - p.x) ^ 2 + (q.y - p.y) ^ 2 := by
    rw [← distance_sq]
    positivity
  simp only [along, orientation] at halong hacross
  have hx : ((q.x - p.x) ^ 2 + (q.y - p.y) ^ 2) * (z.x - z'.x) = 0 := by
    linear_combination (q.x - p.x) * halong - (q.y - p.y) * hacross
  have hy : ((q.x - p.x) ^ 2 + (q.y - p.y) ^ 2) * (z.y - z'.y) = 0 := by
    linear_combination (q.y - p.y) * halong + (q.x - p.x) * hacross
  obtain ⟨x, y⟩ := z
  obtain ⟨x', y'⟩ := z'
  obtain rfl : x = x' := sub_eq_zero.1 ((mul_eq_zero.1 hx).resolve_left hlength.ne')
  obtain rfl : y = y' := sub_eq_zero.1 ((mul_eq_zero.1 hy).resolve_left hlength.ne')
  rfl

end Point

namespace PlaneArc

open Point (distance middle orientation)

/-- Whether the centre of an arc with a radius is on the left of the chord from start to end: on
the left of a counter-clockwise arc, and on the right of a clockwise one, but for arcs that are
longer than a semicircle it is the other way round. -/
def CentreOnLeft (r : ℝ) (clockwise : Bool) : Prop :=
  clockwise = false ∧ 0 ≤ r ∨ clockwise = true ∧ r < 0

/-- **The centre that a radius asks for**: it has the radius as its distance from both ends, and it
is on the right side of the chord, or on the chord itself. -/
structure Centred (start finish : Point ℝ) (r : ℝ) (clockwise : Bool) (z : Point ℝ) : Prop where
  distance_start : z.distance start = |r|
  distance_finish : z.distance finish = |r|
  left : CentreOnLeft r clockwise → 0 ≤ orientation start finish z
  right : ¬CentreOnLeft r clockwise → orientation start finish z ≤ 0

/-! ### There is one such centre -/

/-- A centre is half way along the chord. -/
theorem Centred.along {start finish z : Point ℝ} {r : ℝ} {clockwise : Bool}
    (h : Centred start finish r clockwise z) :
    2 * Point.along start finish z = distance start finish ^ 2 := by
  have hstart := Point.distance_eq_abs_iff.1 h.distance_start
  have hfinish := Point.distance_eq_abs_iff.1 h.distance_finish
  rw [Point.distance_sq, Point.along]
  linear_combination hstart - hfinish

/-- The distance of a centre from the chord is the third side of a right triangle. -/
theorem Centred.orientation_sq {start finish z : Point ℝ} {r : ℝ} {clockwise : Bool}
    (h : Centred start finish r clockwise z) :
    orientation start finish z ^ 2 = distance start finish ^ 2 * r ^ 2 -
      Point.along start finish z ^ 2 := by
  have hstart := Point.distance_eq_abs_iff.1 h.distance_start
  rw [Point.distance_sq, Point.along, Point.orientation]
  linear_combination ((finish.x - start.x) ^ 2 + (finish.y - start.y) ^ 2) * hstart

/-- **There is only one centre that a radius asks for.** -/
theorem Centred.unique {start finish z z' : Point ℝ} {r : ℝ} {clockwise : Bool}
    (hchord : 0 < distance start finish) (h : Centred start finish r clockwise z)
    (h' : Centred start finish r clockwise z') : z = z' := by
  have halong : Point.along start finish z = Point.along start finish z' := by
    linarith [h.along, h'.along]
  refine Point.eq_of_along_of_orientation hchord halong ?_
  have hsquares : orientation start finish z ^ 2 = orientation start finish z' ^ 2 := by
    rw [h.orientation_sq, h'.orientation_sq, halong]
  -- two numbers with the same square are the same if they are on the same side of zero
  by_cases hside : CentreOnLeft r clockwise
  · exact (sq_eq_sq₀ (h.left hside) (h'.left hside)).1 hsquares
  · refine neg_injective ((sq_eq_sq₀ ?_ ?_).1 (by rw [neg_sq, neg_sq, hsquares]))
    · exact neg_nonneg.2 (h.right hside)
    · exact neg_nonneg.2 (h'.right hside)

/-- The centre of an arc is also that of the arc which is run backwards: the sides of the chord are
exchanged with its ends. -/
theorem Centred.reverse {start finish z : Point ℝ} {r : ℝ} {clockwise : Bool}
    (h : Centred start finish r clockwise z) : Centred finish start r (!clockwise) z := by
  have hside : CentreOnLeft r (!clockwise) ↔ ¬CentreOnLeft r clockwise := by
    cases clockwise <;> simp [CentreOnLeft]
  have horientation : orientation finish start z = -orientation start finish z := by
    simp only [Point.orientation]
    ring
  refine ⟨h.distance_finish, h.distance_start, ?_, ?_⟩
  · intro hleft
    rw [horientation]
    exact neg_nonneg.2 (h.right (hside.1 hleft))
  · intro hright
    rw [horientation]
    exact neg_nonpos.2 (h.left (not_not.1 fun hleft => hright (hside.2 hleft)))

/-! ### The height of the centre -/

/-- The height of the centre over the chord, relative to half the chord. A radius that does not
span the chord has its centre on it. -/
def height {α : Type} [Scalar α] (start finish : Point α) (r : α) : α :=
  let square := heightSquare (chordOf start finish) r
  Scalar.sqrt (if square < 0 then 0 else square) / distance start finish

/-- Four times the square of the height. -/
theorem heightSquare_eq (start finish : Point ℝ) (r : ℝ) :
    heightSquare (chordOf start finish) r = 4 * r ^ 2 - distance start finish ^ 2 := by
  rw [Point.distance_sq]
  change Scalar.ofNat 4 * r * r - (finish.x - start.x) * (finish.x - start.x) -
    (finish.y - start.y) * (finish.y - start.y) = _
  rw [Exact.ofNat_eq]
  push_cast
  ring

theorem height_nonneg (start finish : Point ℝ) (r : ℝ) : 0 ≤ height start finish r :=
  div_nonneg (Real.sqrt_nonneg _) (Point.distance_nonneg _ _)

/-- A radius that spans the chord is the long side of a right triangle with half the chord and the
height. -/
theorem height_sq {start finish : Point ℝ} {r : ℝ} (hchord : 0 < distance start finish)
    (hspans : distance start finish ^ 2 ≤ 4 * r ^ 2) :
    distance start finish ^ 2 * height start finish r ^ 2 =
      4 * r ^ 2 - distance start finish ^ 2 := by
  have hsquare : 0 ≤ 4 * r ^ 2 - distance start finish ^ 2 := sub_nonneg.2 hspans
  have hheight : height start finish r =
      Real.sqrt (4 * r ^ 2 - distance start finish ^ 2) / distance start finish := by
    simp only [height, heightSquare_eq, if_neg hsquare.not_gt]
    rfl
  rw [hheight, div_pow, Real.sq_sqrt hsquare, mul_div_cancel₀ _ (pow_pos hchord 2).ne']

/-- A radius that does not span the chord leaves no height. -/
theorem height_of_short {start finish : Point ℝ} {r : ℝ}
    (hshort : 4 * r ^ 2 < distance start finish ^ 2) : height start finish r = 0 := by
  simp only [height, heightSquare_eq, if_pos (sub_neg.2 hshort)]
  exact (congrArg (· / _) Real.sqrt_zero).trans (zero_div _)

/-! ### The point beside the middle of the chord -/

/-- The constant that a half is taken with. -/
theorem half_eq : (Scalar.half : ℝ) = 2⁻¹ := by
  change (if false then (-1 : ℝ) else 1) * (5 : Nat) * (10 : ℝ) ^ (-1 : Int) = _
  norm_num

/-- A point beside the middle of the chord is on the left of it by its height. -/
theorem orientation_besideMiddle (start finish : Point ℝ) (h : ℝ) :
    2 * orientation start finish (besideMiddle start (chordOf start finish) h) =
      distance start finish ^ 2 * h := by
  rw [Point.distance_sq]
  simp only [Point.orientation, besideMiddle, chordOf, half_eq]
  ring

/-- A point beside the middle of the chord is equally far from both ends. -/
theorem distance_besideMiddle {start finish : Point ℝ} {r h : ℝ}
    (hheight : distance start finish ^ 2 * h ^ 2 = 4 * r ^ 2 - distance start finish ^ 2) :
    distance (besideMiddle start (chordOf start finish) h) start = |r| ∧
      distance (besideMiddle start (chordOf start finish) h) finish = |r| := by
  rw [Point.distance_sq] at hheight
  simp only [Point.distance_eq_abs_iff, besideMiddle, chordOf, half_eq]
  constructor <;> linear_combination hheight / 4

/-- The height is negated for each reason to change the side; what is left of it is its size, with
the sign of the side. -/
theorem negateIf_negateIf (r h : ℝ) (clockwise : Bool) :
    (CentreOnLeft r clockwise ∧ negateIf (r < 0) (negateIf (!clockwise) (-h)) = h) ∨
      (¬CentreOnLeft r clockwise ∧ negateIf (r < 0) (negateIf (!clockwise) (-h)) = -h) := by
  by_cases hr : r < 0
  · cases clockwise <;> simp [CentreOnLeft, negateIf, hr]
  · cases clockwise <;> simp [CentreOnLeft, negateIf, hr, not_lt.1 hr]

/-- **The point beside the middle of the chord is the one that the radius asks for.** -/
theorem centred_besideMiddle {start finish : Point ℝ} {r : ℝ} (clockwise : Bool)
    (hchord : 0 < distance start finish) (hspans : distance start finish ^ 2 ≤ 4 * r ^ 2) :
    Centred start finish r clockwise (besideMiddle start (chordOf start finish)
      (negateIf (r < 0) (negateIf (!clockwise) (-height start finish r)))) := by
  have hsq := height_sq hchord hspans
  have hside := mul_nonneg (sq_nonneg (distance start finish)) (height_nonneg start finish r)
  rcases negateIf_negateIf r (height start finish r) clockwise with ⟨hleft, hh⟩ | ⟨hright, hh⟩
  · rw [hh]
    obtain ⟨hstart, hfinish⟩ := distance_besideMiddle hsq
    refine ⟨hstart, hfinish, fun _ => ?_, fun hright => absurd hleft hright⟩
    linarith [orientation_besideMiddle start finish (height start finish r)]
  · rw [hh]
    have hneg : distance start finish ^ 2 * (-height start finish r) ^ 2 =
        4 * r ^ 2 - distance start finish ^ 2 := by rw [neg_sq, hsq]
    obtain ⟨hstart, hfinish⟩ := distance_besideMiddle hneg
    refine ⟨hstart, hfinish, fun hleft => absurd hleft hright, fun _ => ?_⟩
    linarith [orientation_besideMiddle start finish (-height start finish r)]

/-- Without a height the point beside the middle of the chord is its middle. -/
theorem besideMiddle_zero (start finish : Point ℝ) :
    besideMiddle start (chordOf start finish) 0 = middle start finish := by
  simp only [besideMiddle, chordOf, Point.middle, half_eq, Point.mk.injEq]
  constructor <;> ring

/-! ### The centre of an arc with a radius -/

/-- The shortest chord is longer than nothing. -/
theorem shortestChord_pos : (0 : ℝ) < shortestChord := by
  change 0 < (if false then (-1 : ℝ) else 1) * (1 : Nat) * (10 : ℝ) ^ (-12 : Int)
  norm_num

section LongChord

variable {start finish : Point ℝ} (hchord : shortestChord ≤ distance start finish) (r : ℝ)
  (clockwise : Bool) (line : Nat)

include hchord

/-- The centre is beside the middle of a chord that is long enough. -/
theorem centre_resolve_radius : (resolve start finish (.radius r) clockwise line).1.centre =
    besideMiddle start (chordOf start finish)
      (negateIf (r < 0) (negateIf (!clockwise) (-height start finish r))) := by
  have hlong : ¬Scalar.hypot (chordOf start finish).x (chordOf start finish).y < shortestChord :=
    hchord.not_gt
  simp only [resolve, radiusCentre, if_neg hlong, decide_eq_true_eq]
  rw [height, ← neg_div]
  rfl

/-- The centre is the one that a radius asks for, if it spans the chord. -/
theorem centred_resolve (hspans : distance start finish ^ 2 ≤ 4 * r ^ 2) :
    Centred start finish r clockwise
      (resolve start finish (.radius r) clockwise line).1.centre := by
  rw [centre_resolve_radius hchord]
  exact centred_besideMiddle clockwise (shortestChord_pos.trans_le hchord) hspans

/-- The centre is the middle of the chord, if the radius does not span it. -/
theorem centre_resolve_of_short (hshort : 4 * r ^ 2 < distance start finish ^ 2) :
    (resolve start finish (.radius r) clockwise line).1.centre = middle start finish := by
  have hheight : negateIf (r < 0) (negateIf (!clockwise) (-height start finish r)) = 0 := by
    rw [height_of_short hshort]
    rcases negateIf_negateIf r 0 clockwise with ⟨-, h⟩ | ⟨-, h⟩
    · exact h
    · exact h.trans neg_zero
  rw [centre_resolve_radius hchord, hheight, besideMiddle_zero]

/-- **An arc that is run backwards has the same centre.** -/
theorem centre_resolve_reverse (line' : Nat) :
    (resolve finish start (.radius r) (!clockwise) line').1.centre =
      (resolve start finish (.radius r) clockwise line).1.centre := by
  have hcomm := Point.distance_comm start finish
  have hback : shortestChord ≤ distance finish start := hcomm ▸ hchord
  rcases le_or_gt (distance start finish ^ 2) (4 * r ^ 2) with hspans | hshort
  · have hcentre := centred_resolve hback r (!clockwise) line' (hcomm ▸ hspans)
    exact hcentre.unique (shortestChord_pos.trans_le hback)
      (centred_resolve hchord r clockwise line hspans).reverse
  · rw [centre_resolve_of_short hchord r clockwise line hshort,
      centre_resolve_of_short hback r (!clockwise) line' (hcomm ▸ hshort), Point.middle_comm]

end LongChord

/-- **An arc with a radius has the centre that the radius asks for.** If the radius spans the
chord, the centre has just this distance from both ends and is on the side of the chord that the
sense of rotation and the sign of the radius ask for, and no other point is so. If it does not, the
centre is the middle of the chord. An arc that is run backwards has the same centre. -/
theorem radius_centre {start finish : Point ℝ}
    (hchord : shortestChord ≤ distance start finish) (r : ℝ) (clockwise : Bool) (line : Nat) :
    (distance start finish ^ 2 ≤ 4 * r ^ 2 →
      Centred start finish r clockwise
          (resolve start finish (.radius r) clockwise line).1.centre ∧
        ∀ z, Centred start finish r clockwise z →
          z = (resolve start finish (.radius r) clockwise line).1.centre) ∧
    (4 * r ^ 2 < distance start finish ^ 2 →
      (resolve start finish (.radius r) clockwise line).1.centre = middle start finish) ∧
    (resolve finish start (.radius r) (!clockwise) line).1.centre =
      (resolve start finish (.radius r) clockwise line).1.centre := by
  refine ⟨fun hspans => ?_, ?_, ?_⟩
  · have hcentre := centred_resolve hchord r clockwise line hspans
    exact ⟨hcentre, fun z hz => hz.unique (shortestChord_pos.trans_le hchord) hcentre⟩
  · exact centre_resolve_of_short hchord r clockwise line
  · exact centre_resolve_reverse hchord r clockwise line line

/-- The long way round, counter-clockwise over a chord of six with a radius of five: the centre is
four on the right of the chord, and so it is for the arc that is run backwards. A radius of two does
not span the chord. -/
theorem radius_centre_longWay :
    ∃ p q : Point ℝ, p = ⟨0, 0⟩ ∧ q = ⟨6, 0⟩ ∧ shortestChord ≤ distance p q ∧
      distance p q ^ 2 ≤ 4 * (-5) ^ 2 ∧ 4 * 2 ^ 2 < distance p q ^ 2 ∧
      (resolve p q (.radius (-5)) false 1).1.centre = ⟨3, -4⟩ ∧
      (resolve q p (.radius (-5)) true 1).1.centre = ⟨3, -4⟩ ∧
      (resolve p q (.radius 2) false 1).1.centre = middle p q := by
  have hsix : distance (⟨0, 0⟩ : Point ℝ) ⟨6, 0⟩ = 6 := by
    rw [← abs_of_nonneg (by norm_num : (0 : ℝ) ≤ 6), Point.distance_eq_abs_iff]
    norm_num
  have hchord : shortestChord ≤ distance (⟨0, 0⟩ : Point ℝ) ⟨6, 0⟩ := by
    rw [hsix]
    change (if false then (-1 : ℝ) else 1) * (1 : Nat) * (10 : ℝ) ^ (-12 : Int) ≤ 6
    norm_num
  have hspans : distance (⟨0, 0⟩ : Point ℝ) ⟨6, 0⟩ ^ 2 ≤ 4 * (-5) ^ 2 := by
    rw [hsix]
    norm_num
  have hshort : 4 * 2 ^ 2 < distance (⟨0, 0⟩ : Point ℝ) ⟨6, 0⟩ ^ 2 := by
    rw [hsix]
    norm_num
  obtain ⟨hcentre, -, hback⟩ := radius_centre hchord (-5) false 1
  have hfour : Centred ⟨0, 0⟩ ⟨6, 0⟩ (-5) false ⟨3, -4⟩ := by
    have hright : ¬CentreOnLeft (-5) false := by norm_num [CentreOnLeft]
    refine ⟨?_, ?_, fun hleft => absurd hleft hright, fun _ => ?_⟩
    · rw [Point.distance_eq_abs_iff]
      norm_num
    · rw [Point.distance_eq_abs_iff]
      norm_num
    · norm_num [Point.orientation]
  have heq := (hcentre hspans).2 _ hfour
  exact ⟨_, _, rfl, rfl, hchord, hspans, hshort, heq.symm, hback.trans heq.symm,
    (radius_centre hchord 2 false 1).2.1 hshort⟩

end PlaneArc

end DryRun
