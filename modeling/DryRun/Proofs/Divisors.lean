import DryRun.Proofs.Kinematics
import DryRun.Proofs.Indexing

/-!
# Divisors

The timing of a move divides by travels, limits, feeds and times, and numbers do not object to
a divisor that is zero: doubles give an infinity or no number, exact numbers give zero.
`Divided.duration?` times a move by the same steps, but every quotient asks for a positive
divisor, and without one there is no result.

In exact numbers and with an accepted configuration there always is a result, and it is that of
the timing (`Divided.duration?_eq`): a move that is timed at all has a positive travel, a feed is
used only if it is positive, limits are positive, and the time of a move in inverse-time mode is
at least that which its feed asks for.
-/

namespace DryRun

variable {α : Type} [Scalar α]

namespace Divided

open Scalar Checked

/-! ### Timing with positive divisors -/

/-- A quotient, whose divisor has to be positive. -/
def quotient? (x y : α) : Option α := if 0 < y then some (x / y) else none

/-- A length in millimetres, measured in other units. -/
def ofMm? (value : α) : Units → Option α
  | .mm => some value
  | .inch => quotient? value Units.mmPerInch

/-- The largest feed of an axis. -/
def maxFeed? (c : Config α) (units : Units) (axis : Nat) : Option α :=
  ofMm? (c.maxFeed.forAxis axis) units

/-- The acceleration of an axis. -/
def acceleration? (c : Config α) (units : Units) (axis : Nat) : Option α :=
  ofMm? (c.acceleration.forAxis axis) units

/-- The time in which an axis changes its feed. -/
def rampTime? (old new acceleration : α) : Option α := do
  quotient? (← quotient? (abs (new - old)) sixty) acceleration

/-- The time of a way that starts with a change of speed. -/
def rampedTime? (entry speed ramp travel : α) : Option α := do
  let mean ← quotient? (entry + speed) (ofNat 2)
  return (← quotient? (travel - Scalar.min (mean * ramp) travel) speed) + ramp

/-- The feed of each axis on a straight way. -/
def shares? (travels : List α) (travel feed : α) : Option (List α) :=
  collect travels.length fun axis => do quotient? (feed * (← travels[axis]?)) travel

/-- The time in which each axis changes its feed. -/
def ramps? (c : Config α) (units : Units) (last feeds : List α) : Option (List α) :=
  collect feeds.length fun axis => do
    rampTime? (Timing.feedAt last axis) (← feeds[axis]?) (← acceleration? c units axis)

/-- The time of a move at a programmed feed. -/
def feedTime? (c : Config α) (units : Units) (last travels : List α) (travel feed : α) :
    Option α := do
  let ramps ← ramps? c units last (← shares? travels travel feed)
  rampedTime? (← quotient? (norm last) sixty) (← quotient? feed sixty) (maxOf ramps) travel

/-- The feed of each axis in a rapid move. -/
def rapidFeeds? (c : Config α) (units : Units) (travels : List α) : Option (List α) :=
  collect travels.length fun axis => do
    if 0 < (← travels[axis]?) then maxFeed? c units axis else return 0

/-- The time that one axis takes for its part of a rapid move. -/
def rapidAxisTime? (last new acceleration travel : α) : Option α := do
  let ramp ← rampTime? last new acceleration
  let speed ← quotient? new sixty
  if speed ≤ 0 then return ramp else rampedTime? (← quotient? last sixty) speed ramp travel

/-- The time of a rapid move. -/
def rapidTime? (c : Config α) (units : Units) (last travels : List α) : Option α := do
  let feeds ← rapidFeeds? c units travels
  let times ← collect travels.length fun axis => do
    rapidAxisTime? (Timing.feedAt last axis) (Timing.feedAt feeds axis)
      (← acceleration? c units axis) (← travels[axis]?)
  return maxOf times

/-- The time of a move in inverse-time mode. -/
def inverseTime? (c : Config α) (units : Units) (travels : List α) (feed : α) : Option α := do
  let times ← collect travels.length fun axis => do
    return (← quotient? (← travels[axis]?) (← maxFeed? c units axis)) * sixty
  return Scalar.max (← quotient? sixty feed) (maxOf times)

/-- The feed of each axis in a move of a given time. -/
def feedsOver? (travels : List α) (time : α) : Option (List α) :=
  collect travels.length fun axis => do return (← quotient? (← travels[axis]?) time) * sixty

/-- The time of a move and the axis feeds that it ends with. -/
def duration? (c : Config α) (s : Settings α) (last : Option (List α)) (travels : List α)
    (travel : α) (feed : Option α) : Option (α × Option (List α)) :=
  if travel ≤ 0 then some (0, last)
  else
    let before := last.getD (travels.map fun _ => 0)
    match feed.filter (0 < ·), s.inverseFeed with
    | some f, true => do
      let time ← inverseTime? c s.units travels f
      return (time, some (← feedsOver? travels time))
    | some f, false => do
      return (← feedTime? c s.units before travels travel f, some (← shares? travels travel f))
    | none, _ => do
      return (← rapidTime? c s.units before travels, some (← rapidFeeds? c s.units travels))

end Divided

/-! ### All divisors are positive -/

namespace Divided

open Timing

/-- A quotient by a positive number. -/
theorem quotient?_eq (x : ℝ) {y : ℝ} (h : 0 < y) : quotient? x y = some (x / y) := if_pos h

/-- A quotient by the seconds of a minute. -/
theorem quotient?_sixty (x : ℝ) : quotient? x Scalar.sixty = some (x / Scalar.sixty) :=
  quotient?_eq x Exact.sixty_pos

/-- Lengths are converted by a positive number. -/
theorem ofMm?_eq (value : ℝ) (units : Units) : ofMm? value units = some (units.ofMm value) := by
  cases units with
  | mm => rfl
  | inch => exact quotient?_eq value Units.mmPerInch_pos

/-- The largest feed of an axis has a value in both units. -/
theorem maxFeed?_eq (c : Config ℝ) (units : Units) (axis : Nat) :
    maxFeed? c units axis = some (c.maxFeedIn units axis) := ofMm?_eq _ units

/-- The acceleration of an axis has a value in both units. -/
theorem acceleration?_eq (c : Config ℝ) (units : Units) (axis : Nat) :
    acceleration? c units axis = some (c.accelerationIn units axis) := ofMm?_eq _ units

/-- The time of a ramp has a value if the acceleration is positive. -/
theorem rampTime?_eq (old new : ℝ) {acceleration : ℝ} (h : 0 < acceleration) :
    rampTime? old new acceleration = some (rampTime old new acceleration) := by
  simp only [rampTime?, quotient?_sixty, Option.bind_eq_bind, Option.bind_some]
  exact quotient?_eq _ h

/-- The time of a way with a ramp has a value if the speed after the ramp is positive. -/
theorem rampedTime?_eq (entry ramp travel : ℝ) {speed : ℝ} (h : 0 < speed) :
    rampedTime? entry speed ramp travel = some (rampedTime entry speed ramp travel) := by
  have htwo : (0 : ℝ) < Scalar.ofNat 2 := by rw [Exact.ofNat_eq]; norm_num
  simp only [rampedTime?, quotient?_eq _ htwo, quotient?_eq _ h, Option.bind_eq_bind,
    Option.bind_some]
  rfl

/-- The shares of the axes in a feed have values if there is a way. -/
theorem shares?_eq (travels : List ℝ) {travel : ℝ} (h : 0 < travel) (feed : ℝ) :
    shares? travels travel feed = some (shares travels travel feed) := by
  refine Checked.collect_eq _ (List.length_map _) ?_
  intro axis haxis
  simp only [shares, List.getElem?_map, List.getElem?_eq_getElem haxis, Option.bind_eq_bind,
    Option.bind_some, Option.map_some, quotient?_eq _ h]

section Valid

variable {c : Config ℝ} (hc : c.validate = .ok ()) {travels : List ℝ}
  (hlength : travels.length = c.axisCount) (units : Units)

include hc

/-- The ramps of all axes have values: every axis of an accepted machine accelerates. -/
theorem ramps?_eq {feeds : List ℝ} (hfeeds : feeds.length = c.axisCount) (last : List ℝ) :
    ramps? c units last feeds = some (feeds.mapIdx fun axis new =>
      rampTime (feedAt last axis) new (c.accelerationIn units axis)) := by
  refine Checked.collect_eq _ List.length_mapIdx ?_
  intro axis haxis
  have hpos := Config.accelerationIn_pos hc units (hfeeds ▸ haxis)
  simp only [List.getElem?_mapIdx, List.getElem?_eq_getElem haxis, Option.bind_eq_bind,
    Option.bind_some, Option.map_some, acceleration?_eq, rampTime?_eq _ _ hpos]

include hlength

/-- The time of a feed move has a value if there is a way and a feed for it. -/
theorem feedTime?_eq (last : List ℝ) {travel feed : ℝ} (htravel : 0 < travel) (hfeed : 0 < feed) :
    feedTime? c units last travels travel feed =
      some (feedTime c units last travels travel feed) := by
  have hfeeds : (shares travels travel feed).length = c.axisCount :=
    (List.length_map _).trans hlength
  have hspeed : 0 < feed / Scalar.sixty := div_pos hfeed Exact.sixty_pos
  simp only [feedTime?, shares?_eq travels htravel, ramps?_eq hc units hfeeds, quotient?_sixty,
    Option.bind_eq_bind, Option.bind_some]
  exact rampedTime?_eq _ _ _ hspeed

omit hc hlength in
/-- The axis feeds of a rapid move have values. -/
theorem rapidFeeds?_eq : rapidFeeds? c units travels = some (rapidFeeds c units travels) := by
  refine Checked.collect_eq _ List.length_mapIdx ?_
  intro axis haxis
  simp only [rapidFeeds, List.getElem?_mapIdx, List.getElem?_eq_getElem haxis, Option.bind_eq_bind,
    Option.bind_some, Option.map_some, maxFeed?_eq]
  split <;> rfl

omit hc hlength in
/-- The time of one axis in a rapid move has a value if the axis accelerates. An axis that ends at
rest takes no time, so that there is no division by its feed. -/
theorem rapidAxisTime?_eq (last new travel : ℝ) {acceleration : ℝ} (h : 0 < acceleration) :
    rapidAxisTime? last new acceleration travel =
      some (rapidAxisTime last new acceleration travel) := by
  simp only [rapidAxisTime?, rapidAxisTime, rampTime?_eq _ _ h, quotient?_sixty,
    Option.bind_eq_bind, Option.bind_some]
  split
  · rfl
  · next hspeed => exact rampedTime?_eq _ _ _ (not_le.1 hspeed)

/-- The time of a rapid move has a value. -/
theorem rapidTime?_eq (last : List ℝ) :
    rapidTime? c units last travels = some (rapidTime c units last travels) := by
  simp only [rapidTime?, rapidFeeds?_eq, Option.bind_eq_bind, Option.bind_some]
  rw [Checked.collect_eq (travels.mapIdx fun axis d =>
    rapidAxisTime (feedAt last axis) (feedAt (rapidFeeds c units travels) axis)
      (c.accelerationIn units axis) d) List.length_mapIdx]
  · rfl
  · intro axis haxis
    have hpos := Config.accelerationIn_pos hc units (hlength ▸ haxis)
    simp only [List.getElem?_mapIdx, List.getElem?_eq_getElem haxis, Option.bind_some,
      Option.map_some, acceleration?_eq, rapidAxisTime?_eq _ _ _ hpos]

/-- The time of a move in inverse-time mode has a value if the feed is positive. -/
theorem inverseTime?_eq {feed : ℝ} (hfeed : 0 < feed) :
    inverseTime? c units travels feed = some (inverseTime c units travels feed) := by
  rw [inverseTime?, Checked.collect_eq (travels.mapIdx fun axis d =>
    d / c.maxFeedIn units axis * Scalar.sixty) List.length_mapIdx]
  · simp only [quotient?_eq _ hfeed, Option.bind_eq_bind, Option.bind_some]
    rfl
  · intro axis haxis
    have hpos := Config.maxFeedIn_pos hc units (hlength ▸ haxis)
    simp only [List.getElem?_mapIdx, List.getElem?_eq_getElem haxis, Option.bind_eq_bind,
      Option.bind_some, Option.map_some, maxFeed?_eq, quotient?_eq _ hpos]
    rfl

omit hc hlength in
/-- The axis feeds of a move have values if the move takes time. -/
theorem feedsOver?_eq {time : ℝ} (htime : 0 < time) :
    feedsOver? travels time = some (feedsOver travels time) := by
  refine Checked.collect_eq _ (List.length_map _) ?_
  intro axis haxis
  simp only [feedsOver, List.getElem?_map, List.getElem?_eq_getElem haxis, Option.bind_eq_bind,
    Option.bind_some, Option.map_some, quotient?_eq _ htime]
  rfl

omit units in
/-- **No move divides by a number that is not positive.** -/
theorem duration?_eq (s : Settings ℝ) (last : Option (List ℝ)) (travel : ℝ) (feed : Option ℝ) :
    duration? c s last travels travel feed = some (duration c s last travels travel feed) := by
  simp only [duration?, duration]
  split
  · rfl
  · next htravel =>
      rw [not_le] at htravel
      cases hf : feed.filter (0 < ·) with
      | none =>
          simp only [rapidTime?_eq hc hlength, rapidFeeds?_eq, Option.bind_eq_bind,
            Option.bind_some]
          rfl
      | some f =>
          have hpos : 0 < f := of_decide_eq_true (Option.filter_eq_some_iff.1 hf).2
          cases s.inverseFeed with
          | true =>
              have htime := inverseTime_pos c s.units travels hpos
              simp only [inverseTime?_eq hc hlength s.units hpos, feedsOver?_eq htime,
                Option.bind_eq_bind, Option.bind_some]
              rfl
          | false =>
              simp only [feedTime?_eq hc hlength s.units _ htravel hpos, shares?_eq _ htravel,
                Option.bind_eq_bind, Option.bind_some]
              rfl

end Valid

end Divided

end DryRun
