import DryRun.State

/-!
# Timing a move

A move is timed on its own, without looking ahead. In the ordinary feed mode the feed of each
axis has to change from what the last move left it with, which takes time at the axis's
acceleration; the rest of the way runs at the programmed speed, or, for a rapid move, each
axis runs at its own limit and the slowest one counts. In inverse-time mode the feed says how
often a minute the move would be made, and the move takes that long unless an axis would have
to exceed its limit.

All quantities are in the program's units; limits are converted into them. `Timing.duration`
gives the time of a move with the axis feeds that the next one starts from.
-/

namespace DryRun

variable {α : Type} [Scalar α]

namespace Timing

open Scalar

/-- The feed that an axis had at the end of the last move. -/
def feedAt (feeds : List α) (axis : Nat) : α := (feeds[axis]?).getD 0

/-- The time in which an axis changes its feed. -/
def rampTime (old new acceleration : α) : α := abs (new - old) / sixty / acceleration

/-- The distance covered while the speed changes evenly, but never more than there is. -/
def rampDistance (entry speed time travel : α) : α :=
  Scalar.min ((entry + speed) / ofNat 2 * time) travel

/-- The time of a way that starts with a change of speed and goes on at the new one. -/
def rampedTime (entry speed ramp travel : α) : α :=
  (travel - rampDistance entry speed ramp travel) / speed + ramp

/-! ### Feed moves -/

/-- The feed of each axis on a straight way at a given feed. -/
def shares (travels : List α) (travel feed : α) : List α :=
  travels.map fun d => feed * d / travel

/-- The longest of the times in which the axes change their feeds. -/
def longestRamp (c : Config α) (units : Units) (last feeds : List α) : α :=
  maxOf (feeds.mapIdx fun axis new =>
    rampTime (feedAt last axis) new (c.accelerationIn units axis))

/-- The time of a move at a programmed feed. -/
def feedTime (c : Config α) (units : Units) (last travels : List α) (travel feed : α) : α :=
  rampedTime (norm last / sixty) (feed / sixty)
    (longestRamp c units last (shares travels travel feed)) travel

/-! ### Rapid moves -/

/-- The feed of each axis in a rapid move: its limit, if it moves at all. -/
def rapidFeeds (c : Config α) (units : Units) (travels : List α) : List α :=
  travels.mapIdx fun axis d => if 0 < d then c.maxFeedIn units axis else 0

/-- The time that one axis takes for its part of a rapid move. -/
def rapidAxisTime (last new acceleration travel : α) : α :=
  let ramp := rampTime last new acceleration
  if new / sixty ≤ 0 then ramp else rampedTime (last / sixty) (new / sixty) ramp travel

/-- The time of a rapid move: that of its slowest axis. -/
def rapidTime (c : Config α) (units : Units) (last travels : List α) : α :=
  maxOf (travels.mapIdx fun axis d =>
    rapidAxisTime (feedAt last axis) (feedAt (rapidFeeds c units travels) axis)
      (c.accelerationIn units axis) d)

/-! ### Inverse time -/

/-- The least time in which no axis exceeds its limit. -/
def leastTime (c : Config α) (units : Units) (travels : List α) : α :=
  maxOf (travels.mapIdx fun axis d => d / c.maxFeedIn units axis * sixty)

/-- The time of a move in inverse-time mode. -/
def inverseTime (c : Config α) (units : Units) (travels : List α) (feed : α) : α :=
  Scalar.max (sixty / feed) (leastTime c units travels)

/-- The feed of each axis in a move of a given time. -/
def feedsOver (travels : List α) (time : α) : List α := travels.map fun d => d / time * sixty

/-! ### Any move -/

/-- The time of a move and the axis feeds that it ends with. A move without travel takes no
time and leaves the feeds as they are; a feed that is not positive is none. -/
def duration (c : Config α) (s : Settings α) (last : Option (List α)) (travels : List α)
    (travel : α) (feed : Option α) : α × Option (List α) :=
  if travel ≤ 0 then (0, last)
  else
    let before := last.getD (travels.map fun _ => 0)
    match feed.filter (0 < ·) with
    | some f =>
      if s.inverseFeed then
        let time := inverseTime c s.units travels f
        (time, some (feedsOver travels time))
      else (feedTime c s.units before travels travel f, some (shares travels travel f))
    | none => (rapidTime c s.units before travels, some (rapidFeeds c s.units travels))

end Timing

end DryRun
