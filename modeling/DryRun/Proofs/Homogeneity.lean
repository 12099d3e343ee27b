import DryRun.Move
import DryRun.Proofs.Number.Real

/-!
# Lengths in other units

If lengths are measured in units that are `k` times smaller, their numbers are `k` times
larger. This module follows such a factor through everything that is computed from lengths, in
exact numbers: positions in other frames, bounds and the region of a motion are multiplied by
it, and times do not depend on it at all, if the limits of the axes are measured in the same
units as the positions and the feeds.

## Main results

* `Frame.toWork_scale`, `Frame.toMachine_scale`: a position in another frame.
* `Envelope.addMove_scale`: the region that a move adds to.
* `Timing.duration_scale`: a move takes the same time, and ends with the same feeds in the
  other units.
-/

namespace DryRun

variable {k : ℝ}

/-! ### Lists of lengths -/

namespace Lengths

/-- Lengths multiplied by a factor. -/
noncomputable def scale (k : ℝ) (xs : List ℝ) : List ℝ := xs.map (k * ·)

/-- Lengths multiplied by a factor, where they are given. -/
noncomputable def scale? (k : ℝ) (xs : List (Option ℝ)) : List (Option ℝ) :=
  xs.map (Option.map (k * ·))

/-- The entries of a scaled list. -/
theorem getElem?_scale (xs : List ℝ) (i : Nat) : (scale k xs)[i]? = (xs[i]?).map (k * ·) := by
  rw [scale, List.getElem?_map]

/-- The entries of a scaled list with gaps. -/
theorem getElem?_scale? (xs : List (Option ℝ)) (i : Nat) :
    (scale? k xs)[i]? = (xs[i]?).map (Option.map (k * ·)) := by
  rw [scale?, List.getElem?_map]

/-- The number at an index, or zero. -/
theorem getD_getElem?_scale (xs : List ℝ) (i : Nat) :
    ((scale k xs)[i]?).getD 0 = k * (xs[i]?).getD 0 := by
  rw [getElem?_scale]
  cases xs[i]? with
  | none => exact (mul_zero k).symm
  | some x => rfl

/-- The value that is given at an index. -/
theorem join_getElem?_scale? (xs : List (Option ℝ)) (i : Nat) :
    (scale? k xs)[i]?.join = (xs[i]?.join).map (k * ·) := by
  rw [getElem?_scale?]
  cases xs[i]? <;> rfl

/-- Zeros stay zeros. -/
theorem scale_replicate_zero (n : Nat) : scale k (List.replicate n 0) = List.replicate n 0 := by
  rw [scale, List.map_replicate, mul_zero]

/-- The lengths that are given, and for the others those that were there before. -/
theorem zipWith_getD_scale (given : List (Option ℝ)) (xs : List ℝ) :
    List.zipWith (fun x here => x.getD here) (scale? k given) (scale k xs) =
      scale k (List.zipWith (fun x here => x.getD here) given xs) := by
  apply List.ext_getElem?
  intro i
  simp only [getElem?_scale, getElem?_scale?, List.getElem?_zipWith]
  rcases given[i]? with _ | _ | x <;> rcases xs[i]? with _ | here <;> rfl

/-- A sum is scaled with its terms. -/
theorem sum_scale (xs : List ℝ) : Scalar.sum (scale k xs) = k * Scalar.sum xs := by
  have hfold (a : ℝ) : (scale k xs).foldl (· + ·) (k * a) = k * xs.foldl (· + ·) a := by
    induction xs generalizing a with
    | nil => rfl
    | cons x xs ih =>
        rw [scale, List.map_cons, List.foldl_cons, List.foldl_cons, ← mul_add]
        exact ih (a + x)
  have hzero := hfold 0
  rwa [mul_zero] at hzero

/-- The length of a vector. -/
theorem norm_scale (hk : 0 < k) (xs : List ℝ) : Scalar.norm (scale k xs) = k * Scalar.norm xs := by
  have hsquares : (scale k xs).map (fun x => x * x) = scale (k * k) (xs.map fun x => x * x) := by
    rw [scale, scale, List.map_map, List.map_map]
    refine List.map_congr_left fun x _ => ?_
    exact mul_mul_mul_comm k x k x
  have hsqrt (x : ℝ) : Real.sqrt (k * k * x) = k * Real.sqrt x := by
    rw [Real.sqrt_mul (mul_self_nonneg k), Real.sqrt_mul_self hk.le]
  rw [Scalar.norm, hsquares, sum_scale]
  exact hsqrt _

end Lengths

open Lengths

/-- A positive factor keeps the sign. -/
theorem scale_nonpos_iff (hk : 0 < k) {x : ℝ} : k * x ≤ 0 ↔ x ≤ 0 := by
  rw [← not_lt, ← not_lt, mul_pos_iff_of_pos_left hk]

/-- The smaller of two lengths. -/
theorem min_scale (hk : 0 < k) (a b : ℝ) : Scalar.min (k * a) (k * b) = k * Scalar.min a b := by
  rw [Exact.min_eq, Exact.min_eq, mul_min_of_nonneg _ _ hk.le]

/-! ### Frames -/

namespace Frame

/-- A frame with its offsets multiplied by a factor. -/
noncomputable def scale (k : ℝ) (f : Frame ℝ) : Frame ℝ :=
  { f with systems := f.systems.map (Lengths.scale k), offset := Lengths.scale k f.offset }

/-- The offset of an axis is scaled with the offsets. -/
theorem component_scale (offsets : Option (List ℝ)) (axis : Nat) :
    component (offsets.map (Lengths.scale k)) axis = k * component offsets axis := by
  cases offsets with
  | none => exact (mul_zero k).symm
  | some xs => exact getD_getElem?_scale xs axis

/-- How far the origin of the machine's frame and of the work frame are shifted. -/
theorem shift_scale (f : Frame ℝ) (axis : Nat) :
    (f.scale k).shift .machine axis = k * f.shift .machine axis ∧
      (f.scale k).shift (f.scale k).work axis = k * f.shift f.work axis := by
  have hsystem : (f.scale k).systemOf (f.scale k).work =
      (f.systemOf f.work).map (Lengths.scale k) := by
    change (f.systems.map (Lengths.scale k))[f.active]? = (f.systems[f.active]?).map _
    rw [List.getElem?_map]
  have hoverride : (f.scale k).work.override = f.work.override.map (Lengths.scale k) := by
    change (if f.offsetEnabled then some (Lengths.scale k f.offset) else none) =
      (if f.offsetEnabled then some f.offset else none).map _
    split <;> rfl
  constructor
  · change (0 + 0 : ℝ) = k * (0 + 0)
    rw [add_zero, mul_zero]
  · rw [shift, shift, hsystem, hoverride, component_scale, component_scale, mul_add]

/-- Positions are converted from axis to axis. -/
theorem convert_scale {f f' : Frame ℝ} {source target source' target' : FrameRef ℝ}
    (hsource : ∀ axis, f'.shift source' axis = k * f.shift source axis)
    (htarget : ∀ axis, f'.shift target' axis = k * f.shift target axis) (position : List ℝ) :
    f'.convert source' target' (Lengths.scale k position) =
      Lengths.scale k (f.convert source target position) := by
  apply List.ext_getElem?
  intro i
  simp only [convert, List.getElem?_mapIdx, getElem?_scale, hsource, htarget]
  cases position[i]? with
  | none => rfl
  | some x =>
      simp only [Option.map_some]
      rw [← mul_add, ← mul_sub]

/-- **A machine position in work coordinates.** -/
theorem toWork_scale (f : Frame ℝ) (position : List ℝ) :
    (f.scale k).toWork (Lengths.scale k position) = Lengths.scale k (f.toWork position) :=
  convert_scale (fun axis => (f.shift_scale axis).1) (fun axis => (f.shift_scale axis).2) position

/-- **A work position in machine coordinates.** -/
theorem toMachine_scale (f : Frame ℝ) (position : List ℝ) :
    (f.scale k).toMachine (Lengths.scale k position) = Lengths.scale k (f.toMachine position) :=
  convert_scale (fun axis => (f.shift_scale axis).2) (fun axis => (f.shift_scale axis).1) position

/-- The override offset in force on an axis is scaled with the frame. -/
theorem overrideAt_scale (f : Frame ℝ) (axis : Nat) :
    (f.scale k).overrideAt axis = k * f.overrideAt axis := by
  change (if f.offsetEnabled then ((Lengths.scale k f.offset)[axis]?).getD 0 else 0) = _
  rw [overrideAt]
  split
  · exact getD_getElem?_scale _ _
  · exact (mul_zero k).symm

/-- A cleared offset is zero in every scale. -/
theorem clearOffset_scale (f : Frame ℝ) : (f.scale k).clearOffset = f.clearOffset.scale k := by
  have hzero : (Lengths.scale k f.offset).map (fun _ => (0 : ℝ)) =
      Lengths.scale k (f.offset.map fun _ => 0) := by
    rw [Lengths.scale, Lengths.scale, List.map_map, List.map_map]
    exact List.map_congr_left fun _ _ => (mul_zero k).symm
  simp only [clearOffset, scale, hzero]

end Frame

/-! ### Bounds -/

namespace Bounds

/-- Bounds multiplied by a factor. -/
noncomputable def scale (k : ℝ) (b : Bounds ℝ) : Bounds ℝ := ⟨scale? k b.min, scale? k b.max⟩

/-- A lower bound is scaled with what it bounds. -/
theorem lower_scale (hk : 0 < k) (bound : Option ℝ) (x : ℝ) :
    lower (bound.map (k * ·)) (k * x) = (lower bound x).map (k * ·) := by
  cases bound with
  | none => rfl
  | some m =>
      simp only [lower, Option.map_some]
      rw [if_congr (mul_lt_mul_iff_right₀ hk) rfl rfl]
      split <;> rfl

/-- An upper bound is scaled with what it bounds. -/
theorem upper_scale (hk : 0 < k) (bound : Option ℝ) (x : ℝ) :
    upper (bound.map (k * ·)) (k * x) = (upper bound x).map (k * ·) := by
  cases bound with
  | none => rfl
  | some m =>
      simp only [upper, Option.map_some]
      rw [if_congr (mul_lt_mul_iff_right₀ hk) rfl rfl]
      split <;> rfl

/-- What commutes with a factor for one value does so for a list of values. -/
theorem foldl_scale {f : Option ℝ → ℝ → Option ℝ}
    (hf : ∀ bound x, f (bound.map (k * ·)) (k * x) = (f bound x).map (k * ·)) (xs : List ℝ)
    (bound : Option ℝ) :
    (Lengths.scale k xs).foldl f (bound.map (k * ·)) = (xs.foldl f bound).map (k * ·) := by
  induction xs generalizing bound with
  | nil => rfl
  | cons x xs ih =>
      rw [Lengths.scale, List.map_cons, List.foldl_cons, List.foldl_cons, hf]
      exact ih (f bound x)

/-- **Observing lengths that are multiplied by a factor.** -/
theorem observe_scale (hk : 0 < k) (b : Bounds ℝ) {values values' : Nat → List ℝ}
    (h : ∀ axis, values' axis = Lengths.scale k (values axis)) :
    (b.scale k).observe values' = (b.observe values).scale k := by
  have hside {f : Option ℝ → ℝ → Option ℝ}
      (hf : ∀ bound x, f (bound.map (k * ·)) (k * x) = (f bound x).map (k * ·))
      (bounds : List (Option ℝ)) :
      (scale? k bounds).mapIdx (fun axis bound => (values' axis).foldl f bound) =
        scale? k (bounds.mapIdx fun axis bound => (values axis).foldl f bound) := by
    apply List.ext_getElem?
    intro i
    simp only [List.getElem?_mapIdx, getElem?_scale?, Option.map_map, Function.comp_def, h,
      foldl_scale hf]
  simp only [observe, scale, hside (lower_scale hk), hside (upper_scale hk)]

end Bounds

/-- A region with its bounds multiplied by a factor. -/
noncomputable def Envelope.scale (k : ℝ) (e : Envelope ℝ) : Envelope ℝ :=
  { e with work := e.work.scale k, machine := e.machine.scale k }

/-- A region that nothing has been added to is the same in every scale. -/
theorem Envelope.scale_empty (n : Nat) : (Envelope.empty n).scale k = Envelope.empty n := by
  simp only [Envelope.scale, Envelope.empty, Bounds.scale, Bounds.empty, scale?,
    List.map_replicate, Option.map_none]

/-- The points of a move that count for the bounds of an axis are scaled with the move. -/
theorem movePoints_scale (targets : List (Option ℝ)) (start finish : List ℝ) (axis : Nat) :
    movePoints (scale? k targets) (scale k start) (scale k finish) axis =
      scale k (movePoints targets start finish axis) := by
  simp only [movePoints, getElem?_scale, getElem?_scale?]
  rcases targets[axis]? with _ | _ | target <;> rcases start[axis]? with _ | a <;>
    rcases finish[axis]? with _ | b <;> rfl

/-- **The region that a move adds to.** -/
theorem Envelope.addMove_scale (hk : 0 < k) (e : Envelope ℝ) (targets : List (Option ℝ))
    (work work' machine machine' : List ℝ) :
    (e.scale k).addMove (scale? k targets) (Lengths.scale k work) (Lengths.scale k work')
        (Lengths.scale k machine) (Lengths.scale k machine') =
      (e.addMove targets work work' machine machine').scale k := by
  have hmoved : e.moved.zipWith (fun moved target => moved || target.isSome) (scale? k targets) =
      e.moved.zipWith (fun moved target => moved || target.isSome) targets := by
    rw [scale?, List.zipWith_map_right]
    simp only [Option.isSome_map]
  simp only [addMove, scale, hmoved,
    Bounds.observe_scale hk _ (movePoints_scale targets work work'),
    Bounds.observe_scale hk _ (movePoints_scale targets machine machine')]

/-! ### Times -/

namespace Timing

/-- The feed of an axis is scaled with the feeds. -/
theorem feedAt_scale (feeds : List ℝ) (axis : Nat) :
    feedAt (scale k feeds) axis = k * feedAt feeds axis :=
  getD_getElem?_scale feeds axis

/-- A feed changes in the same time. -/
theorem rampTime_scale (hk : 0 < k) (old new acceleration : ℝ) :
    rampTime (k * old) (k * new) (k * acceleration) = rampTime old new acceleration := by
  have habs : Scalar.abs (k * new - k * old) = k * Scalar.abs (new - old) := by
    change |k * new - k * old| = k * |new - old|
    rw [← mul_sub, abs_mul, abs_of_pos hk]
  rw [rampTime, rampTime, habs, mul_div_assoc, mul_div_mul_left _ _ hk.ne']

/-- The way of a ramp is scaled with the speeds and the way that there is. -/
theorem rampDistance_scale (hk : 0 < k) (entry speed time travel : ℝ) :
    rampDistance (k * entry) (k * speed) time (k * travel) =
      k * rampDistance entry speed time travel := by
  rw [rampDistance, rampDistance, ← mul_add, mul_div_assoc, mul_assoc, min_scale hk]

/-- A way takes the same time. -/
theorem rampedTime_scale (hk : 0 < k) (entry speed ramp travel : ℝ) :
    rampedTime (k * entry) (k * speed) ramp (k * travel) = rampedTime entry speed ramp travel := by
  rw [rampedTime, rampedTime, rampDistance_scale hk, ← mul_sub, mul_div_mul_left _ _ hk.ne']

/-- The feeds of the axes on a straight way. -/
theorem shares_scale (hk : 0 < k) (travels : List ℝ) (travel feed : ℝ) :
    shares (scale k travels) (k * travel) (k * feed) = scale k (shares travels travel feed) := by
  rw [shares, shares, scale, scale, List.map_map, List.map_map]
  refine List.map_congr_left fun d _ => ?_
  change k * feed * (k * d) / (k * travel) = k * (feed * d / travel)
  rw [mul_assoc k feed, mul_div_mul_left _ _ hk.ne', mul_left_comm feed, mul_div_assoc]

/-- What is computed from the lengths of each axis, and does not depend on the units. -/
theorem mapIdx_scale {f f' : Nat → ℝ → ℝ} (h : ∀ axis x, f' axis (k * x) = f axis x)
    (xs : List ℝ) : (scale k xs).mapIdx f' = xs.mapIdx f := by
  apply List.ext_getElem?
  intro i
  simp only [List.getElem?_mapIdx, getElem?_scale, Option.map_map, Function.comp_def, h]

section Limits

variable {c : Config ℝ} {u u' : Units}
  (hfeed : ∀ axis, c.maxFeedIn u' axis = k * c.maxFeedIn u axis)
  (hacceleration : ∀ axis, c.accelerationIn u' axis = k * c.accelerationIn u axis)

include hacceleration in
/-- The longest ramp takes as long as before: feeds and accelerations are scaled alike. -/
theorem longestRamp_scale (hk : 0 < k) (last feeds : List ℝ) :
    longestRamp c u' (scale k last) (scale k feeds) = longestRamp c u last feeds := by
  rw [longestRamp, longestRamp]
  congr 1
  refine mapIdx_scale (fun axis new => ?_) feeds
  rw [feedAt_scale, hacceleration, rampTime_scale hk]

include hacceleration in
/-- **A move at a programmed feed takes the same time.** -/
theorem feedTime_scale (hk : 0 < k) (last travels : List ℝ) (travel feed : ℝ) :
    feedTime c u' (scale k last) (scale k travels) (k * travel) (k * feed) =
      feedTime c u last travels travel feed := by
  rw [feedTime, feedTime, norm_scale hk, shares_scale hk, longestRamp_scale hacceleration hk,
    mul_div_assoc, mul_div_assoc, rampedTime_scale hk]

include hfeed in
/-- The feeds of the axes in a rapid move. -/
theorem rapidFeeds_scale (hk : 0 < k) (travels : List ℝ) :
    rapidFeeds c u' (scale k travels) = scale k (rapidFeeds c u travels) := by
  apply List.ext_getElem?
  intro i
  simp only [rapidFeeds, List.getElem?_mapIdx, getElem?_scale]
  cases travels[i]? with
  | none => rfl
  | some d =>
      simp only [Option.map_some]
      rw [if_congr (mul_pos_iff_of_pos_left hk) rfl rfl, hfeed]
      split
      · rfl
      · rw [mul_zero]

/-- The time of one axis in a rapid move does not depend on the scale. -/
theorem rapidAxisTime_scale (hk : 0 < k) (last new acceleration travel : ℝ) :
    rapidAxisTime (k * last) (k * new) (k * acceleration) (k * travel) =
      rapidAxisTime last new acceleration travel := by
  have hstop : k * new / Scalar.sixty ≤ 0 ↔ new / Scalar.sixty ≤ 0 := by
    rw [mul_div_assoc]
    exact scale_nonpos_iff hk
  simp only [rapidAxisTime]
  rw [if_congr hstop rfl rfl, rampTime_scale hk, mul_div_assoc, mul_div_assoc, rampedTime_scale hk]

include hfeed hacceleration in
/-- **A rapid move takes the same time.** -/
theorem rapidTime_scale (hk : 0 < k) (last travels : List ℝ) :
    rapidTime c u' (scale k last) (scale k travels) = rapidTime c u last travels := by
  rw [rapidTime, rapidTime, rapidFeeds_scale hfeed hk]
  congr 1
  refine mapIdx_scale (fun axis d => ?_) travels
  rw [feedAt_scale, feedAt_scale, hacceleration, rapidAxisTime_scale hk]

end Limits

/-- A feed that is not positive is none, in all units. -/
theorem filter_pos_scale (hk : 0 < k) (feed : Option ℝ) :
    (feed.map (k * ·)).filter (0 < ·) = (feed.filter (0 < ·)).map (k * ·) := by
  cases feed with
  | none => rfl
  | some f =>
      by_cases hf : 0 < f
      · simp [Option.filter, hf, mul_pos hk hf]
      · simp [Option.filter, hf, mul_pos_iff_of_pos_left hk]

/-- **A move takes the same time, and ends with the same feeds in the other units.** -/
theorem duration_scale (hk : 0 < k) {c : Config ℝ} {s s' : Settings ℝ}
    (hs : s.inverseFeed = false) (hs' : s'.inverseFeed = false)
    (hfeed : ∀ axis, c.maxFeedIn s'.units axis = k * c.maxFeedIn s.units axis)
    (hacceleration : ∀ axis, c.accelerationIn s'.units axis = k * c.accelerationIn s.units axis)
    (last : Option (List ℝ)) (travels : List ℝ) (travel : ℝ) (feed : Option ℝ) :
    duration c s' (last.map (scale k)) (scale k travels) (k * travel) (feed.map (k * ·)) =
      ((duration c s last travels travel feed).1,
        (duration c s last travels travel feed).2.map (scale k)) := by
  have hbefore : (last.map (scale k)).getD ((scale k travels).map fun _ => 0) =
      scale k (last.getD (travels.map fun _ => 0)) := by
    cases last with
    | some feeds => rfl
    | none =>
        simp only [Option.map_none, Option.getD_none, scale, List.map_map]
        exact List.map_congr_left fun _ _ => (mul_zero k).symm
  unfold duration
  rw [if_congr (scale_nonpos_iff hk) rfl rfl, filter_pos_scale hk, hbefore]
  by_cases htravel : travel ≤ 0
  · rw [if_pos htravel, if_pos htravel]
  · rw [if_neg htravel, if_neg htravel]
    cases feed.filter (0 < ·) with
    | some f =>
        simp only [Option.map_some, hs, hs', Bool.false_eq_true, if_false,
          feedTime_scale hacceleration hk, shares_scale hk]
    | none =>
        simp only [Option.map_none, Option.map_some, rapidTime_scale hfeed hacceleration hk,
          rapidFeeds_scale hfeed hk]

end Timing

end DryRun
