import DryRun.Proofs.Number.Real
import DryRun.Proofs.Run

/-!
# Kinematics in exact numbers

The time of a way that starts with a change of speed is put together from a ramp and a cruise:
the ramp takes its time, and what it leaves of the way runs at the new speed
(`Timing.rampedTime`). This module says in exact numbers what such a time is worth. It is at least
the time of the ramp and at most that of the ramp and of the whole way at the new speed, and no
part of the way is faster than the faster of the two speeds.

Feed moves and rapid moves apply this in two ways: a feed move once, to the length of its way and
the longest of the ramps of its axes, a rapid move to each axis by itself, of which the slowest
counts. In inverse time there are no ramps. What all of them need of a machine is that its limits
are positive, which an accepted configuration ensures in both units.

## Main results

* `Config.maxFeedIn_pos`, `Config.accelerationIn_pos`: the limits of an accepted configuration.
* `Timing.ramp_le_rampedTime`, `Timing.rampedTime_le`, `Timing.le_rampedTime_mul`: the bounds of
  the time of a way.
* `Timing.isGreatest_longestRamp`, `Timing.isGreatest_rapidTime`: the longest ramp and the time of
  a rapid move are those of some axis.
* `Timing.duration_nonneg`, `Timing.feedsNonneg_duration`: the time of a move and the
  axis feeds that it ends with are not negative.
-/

namespace DryRun

/-! ### Limits -/

/-- A limit without a fault is positive on every axis. -/
theorem Limit.forAxis_pos {l : Limit ℝ} {field : String} {n axis : Nat}
    (h : l.fault? field n = none) (haxis : axis < n) : 0 < l.forAxis axis := by
  have hvalues {values : List ℝ} (hfault : valueFault? field values = none) :
      ∀ x ∈ values, 0 < x := by
    intro x hx
    rw [valueFault?, Option.map_eq_none_iff, List.find?_eq_none] at hfault
    simpa [isPositive] using hfault x hx
  cases l with
  | uniform value => exact hvalues h value List.mem_cons_self
  | perAxis values =>
      simp only [fault?] at h
      split at h
      · next hlength =>
          have hget : values[axis]? = some values[axis] := List.getElem?_eq_getElem (by omega)
          rw [forAxis, hget, Option.getD_some]
          exact hvalues h _ (List.getElem_mem _)
      · cases h

/-- A length stays positive in other units. -/
theorem Units.ofMm_pos {value : ℝ} (h : 0 < value) (u : Units) : 0 < u.ofMm value := by
  cases u with
  | mm => exact h
  | inch => exact div_pos h mmPerInch_pos

namespace Config

variable {c : Config ℝ} (hc : c.validate = .ok ())

include hc

/-- The largest feed of an axis is positive in all units. -/
theorem maxFeedIn_pos (units : Units) {axis : Nat} (h : axis < c.axisCount) :
    0 < c.maxFeedIn units axis := by
  have hfault := validate_eq_ok.1 hc
  simp only [fault?, Option.or_eq_none_iff] at hfault
  exact Units.ofMm_pos (Limit.forAxis_pos hfault.1.1.1.2 h) units

/-- The acceleration of an axis is positive in all units. -/
theorem accelerationIn_pos (units : Units) {axis : Nat} (h : axis < c.axisCount) :
    0 < c.accelerationIn units axis := by
  have hfault := validate_eq_ok.1 hc
  simp only [fault?, Option.or_eq_none_iff] at hfault
  exact Units.ofMm_pos (Limit.forAxis_pos hfault.1.1.2 h) units

/-- There is an axis. -/
theorem axisCount_pos : 0 < c.axisCount := by
  have hfault := validate_eq_ok.1 hc
  simp only [fault?, Option.or_eq_none_iff, axesFault?] at hfault
  rw [axisCount, List.length_pos_iff]
  intro hnil
  simp [hnil] at hfault

end Config

namespace Timing

/-! ### One way -/

section Way

variable {entry speed ramp travel : ℝ}

/-- A change of feed takes no negative time. -/
theorem rampTime_nonneg (old new : ℝ) {acceleration : ℝ} (h : 0 < acceleration) :
    0 ≤ rampTime old new acceleration :=
  div_nonneg (div_nonneg (abs_nonneg (new - old)) Exact.sixty_pos.le) h.le

/-- A feed that stays the same takes no time. -/
theorem rampTime_self (feed acceleration : ℝ) : rampTime feed feed acceleration = 0 := by
  change |feed - feed| / Scalar.sixty / acceleration = 0
  rw [sub_self, abs_zero, zero_div, zero_div]

/-- The ramp does not go further than the way. -/
theorem rampDistance_le (entry speed ramp travel : ℝ) :
    rampDistance entry speed ramp travel ≤ travel := by
  rw [rampDistance, Exact.min_eq]
  exact min_le_right _ _

/-- The ramp does not go back. -/
theorem rampDistance_nonneg (hentry : 0 ≤ entry) (hspeed : 0 ≤ speed) (hramp : 0 ≤ ramp)
    (htravel : 0 ≤ travel) : 0 ≤ rampDistance entry speed ramp travel := by
  rw [rampDistance, Exact.min_eq, Exact.ofNat_eq]
  exact le_min (mul_nonneg (div_nonneg (add_nonneg hentry hspeed) (Nat.cast_nonneg 2)) hramp)
    htravel

/-- The ramp goes no further than the faster of the two speeds would. -/
theorem rampDistance_le_mul (entry speed travel : ℝ) (hramp : 0 ≤ ramp) :
    rampDistance entry speed ramp travel ≤ ramp * max speed entry := by
  rw [rampDistance, Exact.min_eq, Exact.ofNat_eq, Nat.cast_ofNat]
  have hmean : (entry + speed) / 2 ≤ max speed entry := by
    linarith [le_max_left speed entry, le_max_right speed entry]
  calc min ((entry + speed) / 2 * ramp) travel ≤ (entry + speed) / 2 * ramp := min_le_left _ _
    _ ≤ max speed entry * ramp := mul_le_mul_of_nonneg_right hmean hramp
    _ = ramp * max speed entry := mul_comm _ _

/-- The cruise takes no negative time. -/
theorem cruise_nonneg (entry ramp travel : ℝ) (hspeed : 0 < speed) :
    0 ≤ (travel - rampDistance entry speed ramp travel) / speed :=
  div_nonneg (sub_nonneg.2 (rampDistance_le entry speed ramp travel)) hspeed.le

/-- **A way takes at least the time of its ramp.** -/
theorem ramp_le_rampedTime (entry ramp travel : ℝ) (hspeed : 0 < speed) :
    ramp ≤ rampedTime entry speed ramp travel :=
  le_add_of_nonneg_left (cruise_nonneg entry ramp travel hspeed)

/-- **A way takes at most the time of its ramp and of the whole of it at the new speed.** -/
theorem rampedTime_le (hentry : 0 ≤ entry) (hspeed : 0 < speed) (hramp : 0 ≤ ramp)
    (htravel : 0 ≤ travel) : rampedTime entry speed ramp travel ≤ travel / speed + ramp := by
  have hdistance := rampDistance_nonneg hentry hspeed.le hramp htravel
  have hcruise : (travel - rampDistance entry speed ramp travel) / speed ≤ travel / speed :=
    div_le_div_of_nonneg_right (sub_le_self travel hdistance) hspeed.le
  exact add_le_add_left hcruise ramp

/-- **No way is faster than the faster of its two speeds.** -/
theorem le_rampedTime_mul (entry travel : ℝ) (hspeed : 0 < speed) (hramp : 0 ≤ ramp) :
    travel ≤ rampedTime entry speed ramp travel * max speed entry := by
  have hcruise := cruise_nonneg entry ramp travel hspeed
  have hdistance := rampDistance_le_mul entry speed travel hramp
  rw [rampedTime, add_mul]
  generalize rampDistance entry speed ramp travel = distance at hcruise hdistance ⊢
  calc travel = (travel - distance) / speed * speed + distance := by
        rw [div_mul_cancel₀ _ hspeed.ne', sub_add_cancel]
    _ ≤ (travel - distance) / speed * max speed entry + ramp * max speed entry :=
        add_le_add (mul_le_mul_of_nonneg_left (le_max_left speed entry) hcruise) hdistance

end Way

/-! ### Lists with an entry for each axis -/

/-- The entries of a list that is computed axis by axis. -/
theorem mem_mapIdx_iff {β : Type} {f : Nat → ℝ → β} {xs : List ℝ} {y : β} :
    y ∈ xs.mapIdx f ↔ ∃ (axis : Nat) (x : ℝ), xs[axis]? = some x ∧ f axis x = y := by
  rw [List.mem_iff_getElem?]
  simp only [List.getElem?_mapIdx, Option.map_eq_some_iff]

/-- An axis that travels is one of the axes. -/
theorem lt_of_getElem? {xs : List ℝ} {n axis : Nat} {x : ℝ} (hlength : xs.length = n)
    (h : xs[axis]? = some x) : axis < n := by
  obtain ⟨haxis, -⟩ := List.getElem?_eq_some_iff.1 h
  omega

/-- The largest of some numbers that are computed axis by axis is that of some axis. -/
theorem isGreatest_maxOf_mapIdx {f : Nat → ℝ → ℝ} {xs : List ℝ} (hlength : 0 < xs.length)
    (hnonneg : ∀ (axis : Nat) (x : ℝ), xs[axis]? = some x → 0 ≤ f axis x) :
    IsGreatest {y | ∃ (axis : Nat) (x : ℝ), xs[axis]? = some x ∧ f axis x = y}
      (Scalar.maxOf (xs.mapIdx f)) := by
  have hvalues : {y | ∃ (axis : Nat) (x : ℝ), xs[axis]? = some x ∧ f axis x = y} =
      {y | y ∈ xs.mapIdx f} := Set.ext fun _ => mem_mapIdx_iff.symm
  rw [hvalues]
  refine Exact.isGreatest_maxOf ?_ ?_
  · rwa [← List.length_pos_iff, List.length_mapIdx]
  · intro y hy
    obtain ⟨axis, x, hx, rfl⟩ := mem_mapIdx_iff.1 hy
    exact hnonneg axis x hx

/-! ### The longest ramp and the slowest axis -/

/-- Whether no axis feed of the last move is negative. -/
def FeedsNonneg (last : Option (List ℝ)) : Prop := ∀ feeds ∈ last, ∀ x ∈ feeds, 0 ≤ x

/-- The feed of an axis is not negative, also where none is remembered. -/
theorem FeedsNonneg.feedAt {last : Option (List ℝ)} (h : FeedsNonneg last) (travels : List ℝ)
    (axis : Nat) : 0 ≤ feedAt (last.getD (travels.map fun _ => 0)) axis := by
  have hall : ∀ x ∈ last.getD (travels.map fun _ => 0), 0 ≤ x := by
    cases last with
    | some feeds => exact h feeds rfl
    | none =>
        intro x hx
        obtain ⟨d, -, rfl⟩ := List.mem_map.1 hx
        exact le_rfl
  rw [Timing.feedAt]
  cases hx : (last.getD (travels.map fun _ => 0))[axis]? with
  | none => exact le_rfl
  | some x => exact hall x (List.mem_of_getElem? hx)

/-- The feed of an axis in a rapid move. -/
theorem feedAt_rapidFeeds (c : Config ℝ) (units : Units) {travels : List ℝ} {axis : Nat} {d : ℝ}
    (h : travels[axis]? = some d) :
    feedAt (rapidFeeds c units travels) axis = if 0 < d then c.maxFeedIn units axis else 0 := by
  rw [feedAt, rapidFeeds, List.getElem?_mapIdx, h]
  rfl

/-- An axis that moves has a way with a ramp. -/
theorem rapidAxisTime_of_pos (last acceleration travel : ℝ) {new : ℝ} (h : 0 < new) :
    rapidAxisTime last new acceleration travel =
      rampedTime (last / Scalar.sixty) (new / Scalar.sixty) (rampTime last new acceleration)
        travel :=
  if_neg (not_le.2 (div_pos h Exact.sixty_pos))

/-- An axis that does not move has nothing but a ramp. -/
theorem rapidAxisTime_zero (last acceleration travel : ℝ) :
    rapidAxisTime last 0 acceleration travel = rampTime last 0 acceleration :=
  if_pos (zero_div _).le

section Axes

variable {c : Config ℝ} (hc : c.validate = .ok ()) (units : Units) {travels : List ℝ}
  (hlength : travels.length = c.axisCount)

include hc hlength

/-- **The longest ramp of a feed move is that of some axis**, and none is longer. -/
theorem isGreatest_longestRamp (last : List ℝ) (travel feed : ℝ) :
    IsGreatest {r | ∃ (axis : Nat) (d : ℝ), travels[axis]? = some d ∧
      rampTime (feedAt last axis) (feed * d / travel) (c.accelerationIn units axis) = r}
      (longestRamp c units last (shares travels travel feed)) := by
  have hmap : longestRamp c units last (shares travels travel feed) =
      Scalar.maxOf (travels.mapIdx fun axis d =>
        rampTime (feedAt last axis) (feed * d / travel) (c.accelerationIn units axis)) := by
    refine congrArg Scalar.maxOf (List.ext_getElem? fun axis => ?_)
    simp only [shares, List.getElem?_mapIdx, List.getElem?_map, Option.map_map]
    rfl
  rw [hmap]
  refine isGreatest_maxOf_mapIdx (hlength ▸ Config.axisCount_pos hc) ?_
  intro axis d hd
  exact rampTime_nonneg _ _ (Config.accelerationIn_pos hc units (lt_of_getElem? hlength hd))

omit hlength in
/-- An axis takes at least the time of its ramp. -/
theorem ramp_le_rapidAxisTime {axis : Nat} (haxis : axis < c.axisCount) (last d : ℝ) :
    rampTime last (if 0 < d then c.maxFeedIn units axis else 0) (c.accelerationIn units axis) ≤
      rapidAxisTime last (if 0 < d then c.maxFeedIn units axis else 0)
        (c.accelerationIn units axis) d := by
  split
  · have hlimit := Config.maxFeedIn_pos hc units haxis
    rw [rapidAxisTime_of_pos _ _ _ hlimit]
    exact ramp_le_rampedTime _ _ _ (div_pos hlimit Exact.sixty_pos)
  · rw [rapidAxisTime_zero]

omit hlength in
/-- An axis that moves is not faster than the faster of its two speeds. -/
theorem le_rapidAxisTime_mul {axis : Nat} (haxis : axis < c.axisCount) (last d : ℝ) :
    d ≤ rapidAxisTime last (c.maxFeedIn units axis) (c.accelerationIn units axis) d *
      max (c.maxFeedIn units axis / Scalar.sixty) (last / Scalar.sixty) := by
  have hlimit := Config.maxFeedIn_pos hc units haxis
  rw [rapidAxisTime_of_pos _ _ _ hlimit]
  exact le_rampedTime_mul _ d (div_pos hlimit Exact.sixty_pos)
    (rampTime_nonneg _ _ (Config.accelerationIn_pos hc units haxis))

omit hlength in
/-- An axis takes at most the time of its ramp and, if it moves, of its way at the new speed. -/
theorem rapidAxisTime_le {axis : Nat} (haxis : axis < c.axisCount) {last : ℝ} (hlast : 0 ≤ last)
    (d : ℝ) :
    rapidAxisTime last (if 0 < d then c.maxFeedIn units axis else 0)
        (c.accelerationIn units axis) d ≤
      (if 0 < d then d / (c.maxFeedIn units axis / Scalar.sixty) else 0) +
        rampTime last (if 0 < d then c.maxFeedIn units axis else 0)
          (c.accelerationIn units axis) := by
  split
  · next hd =>
      have hlimit := Config.maxFeedIn_pos hc units haxis
      rw [rapidAxisTime_of_pos _ _ _ hlimit]
      exact rampedTime_le (div_nonneg hlast Exact.sixty_pos.le) (div_pos hlimit Exact.sixty_pos)
        (rampTime_nonneg _ _ (Config.accelerationIn_pos hc units haxis)) hd.le
  · rw [rapidAxisTime_zero, zero_add]

/-- **The time of a rapid move is that of some axis**, and none takes longer. -/
theorem isGreatest_rapidTime (last : List ℝ) :
    IsGreatest {t | ∃ (axis : Nat) (d : ℝ), travels[axis]? = some d ∧
      rapidAxisTime (feedAt last axis) (if 0 < d then c.maxFeedIn units axis else 0)
        (c.accelerationIn units axis) d = t}
      (rapidTime c units last travels) := by
  have hmap : rapidTime c units last travels =
      Scalar.maxOf (travels.mapIdx fun axis d =>
        rapidAxisTime (feedAt last axis) (if 0 < d then c.maxFeedIn units axis else 0)
          (c.accelerationIn units axis) d) := by
    refine congrArg Scalar.maxOf (List.ext_getElem? fun axis => ?_)
    rw [List.getElem?_mapIdx, List.getElem?_mapIdx]
    refine Option.map_congr fun d hd => ?_
    rw [feedAt_rapidFeeds c units hd]
  rw [hmap]
  refine isGreatest_maxOf_mapIdx (hlength ▸ Config.axisCount_pos hc) ?_
  intro axis d hd
  have haxis := lt_of_getElem? hlength hd
  exact (rampTime_nonneg _ _ (Config.accelerationIn_pos hc units haxis)).trans
    (ramp_le_rapidAxisTime hc units haxis _ d)

end Axes

/-! ### The three kinds of timing -/

section Kinds

variable (c : Config ℝ) {s : Settings ℝ} (last : Option (List ℝ)) (travels : List ℝ)
  {travel feed : ℝ}

/-- A positive feed is one. -/
theorem filter_feed (hfeed : 0 < feed) : (some feed).filter (0 < ·) = some feed := by
  simp [Option.filter, hfeed]

/-- A feed move. -/
theorem duration_of_feed (htravel : 0 < travel) (hfeed : 0 < feed)
    (hmode : s.inverseFeed = false) :
    duration c s last travels travel (some feed) =
      (feedTime c s.units (last.getD (travels.map fun _ => 0)) travels travel feed,
        some (shares travels travel feed)) := by
  simp only [duration, if_neg (not_le.2 htravel), filter_feed hfeed, hmode]
  rfl

/-- A feed move in inverse-time mode. -/
theorem duration_of_inverse (htravel : 0 < travel) (hfeed : 0 < feed)
    (hmode : s.inverseFeed = true) :
    duration c s last travels travel (some feed) =
      (inverseTime c s.units travels feed,
        some (feedsOver travels (inverseTime c s.units travels feed))) := by
  simp only [duration, if_neg (not_le.2 htravel), filter_feed hfeed, hmode]
  rfl

/-- A rapid move, in any mode. -/
theorem duration_of_rapid (s : Settings ℝ) (htravel : 0 < travel) :
    duration c s last travels travel none =
      (rapidTime c s.units (last.getD (travels.map fun _ => 0)) travels,
        some (rapidFeeds c s.units travels)) := by
  simp only [duration, if_neg (not_le.2 htravel)]
  rfl

end Kinds

/-! ### Times and feeds are not negative -/

/-- The time of a move in inverse-time mode is positive. -/
theorem inverseTime_pos (c : Config ℝ) (units : Units) (travels : List ℝ) {feed : ℝ}
    (h : 0 < feed) : 0 < inverseTime c units travels feed := by
  rw [inverseTime, Exact.max_eq, Exact.sixty_eq]
  exact lt_max_of_lt_left (div_pos (by norm_num) h)

/-- **No move takes a negative time.** -/
theorem duration_nonneg (c : Config ℝ) (s : Settings ℝ) (last : Option (List ℝ))
    (travels : List ℝ) (travel : ℝ) (feed : Option ℝ) :
    0 ≤ (duration c s last travels travel feed).1 := by
  simp only [duration]
  split
  · exact le_rfl
  · split
    · next f hf =>
        have hpos : 0 < f := of_decide_eq_true (Option.filter_eq_some_iff.1 hf).2
        split
        · exact (inverseTime_pos c s.units travels hpos).le
        · exact (Exact.maxOf_nonneg _).trans
            (ramp_le_rampedTime _ _ _ (div_pos hpos Exact.sixty_pos))
    · exact Exact.maxOf_nonneg _

/-- **The axis feeds that a move ends with are not negative.** -/
theorem feedsNonneg_duration {c : Config ℝ} (hc : c.validate = .ok ()) (s : Settings ℝ)
    {last : Option (List ℝ)} (hlast : FeedsNonneg last) {travels : List ℝ}
    (hlength : travels.length = c.axisCount) (htravels : ∀ d ∈ travels, 0 ≤ d) (travel : ℝ)
    (feed : Option ℝ) : FeedsNonneg (duration c s last travels travel feed).2 := by
  simp only [duration]
  split
  · exact hlast
  · next htravel =>
      rw [not_le] at htravel
      split
      · next f hf =>
          have hpos : 0 < f := of_decide_eq_true (Option.filter_eq_some_iff.1 hf).2
          split
          · -- inverse time: each axis goes its way in the time of the move
            rintro feeds hfeeds x hx
            obtain rfl := Option.some.inj hfeeds
            obtain ⟨d, hd, rfl⟩ := List.mem_map.1 hx
            have htime := inverseTime_pos c s.units travels hpos
            rw [Exact.sixty_eq]
            exact mul_nonneg (div_nonneg (htravels d hd) htime.le) (by norm_num)
          · rintro feeds hfeeds x hx
            obtain rfl := Option.some.inj hfeeds
            obtain ⟨d, hd, rfl⟩ := List.mem_map.1 hx
            exact div_nonneg (mul_nonneg hpos.le (htravels d hd)) htravel.le
      · rintro feeds hfeeds x hx
        obtain rfl := Option.some.inj hfeeds
        obtain ⟨axis, d, hd, rfl⟩ := mem_mapIdx_iff.1 hx
        split
        · exact (Config.maxFeedIn_pos hc s.units (lt_of_getElem? hlength hd)).le
        · exact le_rfl

end Timing

/-- No axis travels a negative distance. -/
theorem State.axisTravels_nonneg (s : State ℝ) (finish : List ℝ) :
    ∀ d ∈ s.axisTravels finish, 0 ≤ d := by
  intro d hd
  obtain ⟨axis, haxis⟩ := List.mem_iff_getElem?.1 hd
  obtain ⟨there, here, -, -, rfl⟩ := List.getElem?_zipWith_eq_some.1 haxis
  exact abs_nonneg (there - here)

/-- The standard machine starts at the origin. -/
theorem State.work_start_standard : (start .standard : State ℝ).work = [0, 0, 0] := by
  change [(0 : ℝ) + (0 + 0) - (0 + 0), 0 + (0 + 0) - (0 + 0), 0 + (0 + 0) - (0 + 0)] = _
  simp

end DryRun
