import Mathlib.Data.List.Rotate
import DryRun.Move
import DryRun.Proofs.Number.Real
import DryRun.Proofs.Shape

/-!
# Axes renamed in a circle

The axes of a machine with three of them can be renamed in a circle: the first becomes the
second, the second the third, and the third the first. Whatever has one entry for each axis is
then rotated by one place (`Coordinates.cycle`). This module follows such a renaming through
everything that is computed from axis to axis: positions in other frames, bounds, the region of
a motion and the time of a move.

Frames and bounds only care about which entries belong to one axis, so that they can be renamed
in any arithmetic. The time of a move looks at all axes at once, through the length of a vector
and through the largest of some times. A sum does not depend on the order of its terms in exact
numbers only, and a limit has to be the same for all axes.

## Main results

* `Frame.toWork_cycle`, `Frame.toMachine_cycle`: a position in another frame.
* `Envelope.addMove_cycle`: the region that a move adds to.
* `Timing.duration_cycle`: a move takes the same time, and ends with the renamed feeds.
-/

namespace DryRun

/-! ### One entry for each axis -/

namespace Coordinates

variable {β γ δ : Type}

/-- The axis that one of three axes becomes. -/
def nextAxis (axis : Nat) : Nat := (axis + 1) % 3

/-- An axis becomes one of the three. -/
theorem nextAxis_lt (axis : Nat) : nextAxis axis < 3 := Nat.mod_lt _ (by decide)

/-- Entries of three axes, each of which is moved to the next axis. -/
def cycle (xs : List β) : List β := xs.rotate 2

/-- Entries that are moved to the next axis are the same entries. -/
theorem perm_cycle (xs : List β) : (cycle xs).Perm xs := List.rotate_perm xs 2

/-- Entries can be changed before they are moved to the next axis or after it. -/
theorem map_cycle (f : β → γ) (xs : List β) : (cycle xs).map f = cycle (xs.map f) :=
  List.map_rotate f xs 2

/-- The entries of two lists meet at the next axis as they met before. -/
theorem zipWith_cycle (f : β → γ → δ) {xs : List β} {ys : List γ} (h : xs.length = ys.length) :
    List.zipWith f (cycle xs) (cycle ys) = cycle (List.zipWith f xs ys) :=
  (List.zipWith_rotate_distrib f xs ys 2 h).symm

section Three

variable {xs : List β} (h : xs.length = 3)

include h

/-- The entry of the next axis is what was the entry of the axis. -/
theorem getElem?_cycle {axis : Nat} (haxis : axis < 3) :
    (cycle xs)[nextAxis axis]? = xs[axis]? := by
  have hnext : nextAxis axis < xs.length := h ▸ nextAxis_lt axis
  have hback : (nextAxis axis + 2) % xs.length = axis := by
    rw [h, nextAxis]
    omega
  rw [cycle, List.getElem?_rotate hnext, hback]

example : cycle ['x', 'y', 'z'] = ['z', 'x', 'y'] := rfl

/-- What is computed from axis to axis. -/
theorem mapIdx_cycle {f f' : Nat → β → γ} (hf : ∀ axis < 3, f' (nextAxis axis) = f axis) :
    (cycle xs).mapIdx f' = cycle (xs.mapIdx f) := by
  obtain ⟨x, y, z, rfl⟩ := List.length_eq_three.1 h
  change [f' (nextAxis 2) z, f' (nextAxis 0) x, f' (nextAxis 1) y] = [f 2 z, f 0 x, f 1 y]
  rw [hf 2 (by decide), hf 0 (by decide), hf 1 (by decide)]

/-- An entry can be replaced before it is moved to the next axis or after it. -/
theorem set_cycle {axis : Nat} (haxis : axis < 3) (x : β) :
    (cycle xs).set (nextAxis axis) x = cycle (xs.set axis x) := by
  obtain ⟨_, _, _, rfl⟩ := List.length_eq_three.1 h
  match axis, haxis with
  | 0, _ | 1, _ | 2, _ => rfl

end Three

/-- The length of a vector. -/
theorem norm_cycle (xs : List ℝ) : Scalar.norm (cycle xs) = Scalar.norm xs := by
  rw [Scalar.norm, Scalar.norm, map_cycle, Exact.sum_eq, Exact.sum_eq, (perm_cycle _).sum_eq]

/-- The largest of some times. -/
theorem maxOf_cycle (xs : List ℝ) : Scalar.maxOf (cycle xs) = Scalar.maxOf xs := by
  have hle (t : ℝ) : Scalar.maxOf (cycle xs) ≤ t ↔ Scalar.maxOf xs ≤ t := by
    simp only [Exact.maxOf_le_iff, (perm_cycle xs).mem_iff]
  exact le_antisymm ((hle _).2 le_rfl) ((hle _).1 le_rfl)

end Coordinates

open Coordinates

variable {α : Type}

/-! ### Frames -/

namespace Frame

/-- A frame with its axes renamed. -/
def cycle (f : Frame α) : Frame α :=
  { f with systems := f.systems.map Coordinates.cycle, offset := Coordinates.cycle f.offset }

variable [Scalar α] {axis : Nat}

/-- The override offset is cleared on all axes alike. -/
theorem clearOffset_cycle (f : Frame α) : f.cycle.clearOffset = f.clearOffset.cycle := by
  simp only [clearOffset, cycle, map_cycle]

/-- The offset of the next axis is what was the offset of the axis. -/
theorem component_cycle {offsets : Option (List α)} (h : ∀ xs ∈ offsets, xs.length = 3)
    (haxis : axis < 3) :
    component (offsets.map Coordinates.cycle) (nextAxis axis) = component offsets axis := by
  cases offsets with
  | none => rfl
  | some xs =>
      change ((Coordinates.cycle xs)[nextAxis axis]?).getD 0 = (xs[axis]?).getD 0
      rw [getElem?_cycle (h xs rfl) haxis]

variable {f : Frame α} (hf : f.Shaped 3)

include hf

/-- The offsets of the active work coordinate system. -/
theorem activeComponent_cycle (haxis : axis < 3) :
    component f.cycle.systems[f.active]? (nextAxis axis) = component f.systems[f.active]? axis := by
  change component (f.systems.map Coordinates.cycle)[f.active]? _ = _
  rw [List.getElem?_map]
  exact component_cycle (fun xs hxs => hf.system xs (List.mem_of_getElem? hxs)) haxis

/-- How far the origin of the work frame is shifted. -/
theorem shift_cycle (haxis : axis < 3) :
    f.cycle.shift f.cycle.work (nextAxis axis) = f.shift f.work axis := by
  have hoverride : f.cycle.work.override = f.work.override.map Coordinates.cycle := by
    change (if f.offsetEnabled then some (Coordinates.cycle f.offset) else none) =
      (if f.offsetEnabled then some f.offset else none).map _
    split <;> rfl
  have hlength : ∀ xs ∈ f.work.override, xs.length = 3 := by
    intro xs hxs
    change (if f.offsetEnabled then some f.offset else none) = some xs at hxs
    split at hxs
    · obtain rfl := Option.some.inj hxs
      exact hf.offset
    · cases hxs
  rw [shift, shift, hoverride, component_cycle hlength haxis]
  exact congrArg (· + component f.work.override axis) (activeComponent_cycle hf haxis)

/-- **A machine position in work coordinates.** -/
theorem toWork_cycle {position : List α} (hposition : position.length = 3) :
    f.cycle.toWork (Coordinates.cycle position) = Coordinates.cycle (f.toWork position) := by
  refine mapIdx_cycle hposition fun axis haxis => ?_
  rw [shift_cycle hf haxis]
  rfl

/-- **A work position in machine coordinates.** -/
theorem toMachine_cycle {position : List α} (hposition : position.length = 3) :
    f.cycle.toMachine (Coordinates.cycle position) = Coordinates.cycle (f.toMachine position) := by
  refine mapIdx_cycle hposition fun axis haxis => ?_
  rw [shift_cycle hf haxis]
  rfl

/-- The override offset in force on an axis. -/
theorem overrideAt_cycle (haxis : axis < 3) :
    f.cycle.overrideAt (nextAxis axis) = f.overrideAt axis := by
  change (if f.offsetEnabled then ((Coordinates.cycle f.offset)[nextAxis axis]?).getD 0 else 0) = _
  rw [getElem?_cycle hf.offset haxis, overrideAt]

end Frame

/-! ### Bounds -/

/-- Bounds with their axes renamed. -/
def Bounds.cycle (b : Bounds α) : Bounds α := ⟨Coordinates.cycle b.min, Coordinates.cycle b.max⟩

/-- A region with its axes renamed. -/
def Envelope.cycle (e : Envelope α) : Envelope α :=
  ⟨e.work.cycle, e.machine.cycle, Coordinates.cycle e.moved⟩

/-- The points of a move that count for the bounds of an axis. -/
theorem movePoints_cycle {targets : List (Option α)} {start finish : List α}
    (htargets : targets.length = 3) (hstart : start.length = 3) (hfinish : finish.length = 3)
    {axis : Nat} (haxis : axis < 3) :
    movePoints (cycle targets) (cycle start) (cycle finish) (nextAxis axis) =
      movePoints targets start finish axis := by
  rw [movePoints, getElem?_cycle htargets haxis, getElem?_cycle hstart haxis,
    getElem?_cycle hfinish haxis, movePoints]

section Regions

variable [Scalar α]

/-- **Observing values on renamed axes.** -/
theorem Bounds.observe_cycle {b : Bounds α} (hb : b.Shaped 3) {values values' : Nat → List α}
    (h : ∀ axis < 3, values' (nextAxis axis) = values axis) :
    b.cycle.observe values' = (b.observe values).cycle := by
  have hside {f : Option α → α → Option α} {bounds : List (Option α)}
      (hbounds : bounds.length = 3) :
      (Coordinates.cycle bounds).mapIdx (fun axis bound => (values' axis).foldl f bound) =
        Coordinates.cycle (bounds.mapIdx fun axis bound => (values axis).foldl f bound) := by
    refine mapIdx_cycle hbounds fun axis haxis => ?_
    rw [h axis haxis]
  simp only [observe, cycle, hside hb.min, hside hb.max]

/-- **The region that a move adds to.** -/
theorem Envelope.addMove_cycle {e : Envelope α} (he : e.Shaped 3) {targets : List (Option α)}
    {work work' machine machine' : List α} (htargets : targets.length = 3)
    (hwork : work.length = 3) (hwork' : work'.length = 3) (hmachine : machine.length = 3)
    (hmachine' : machine'.length = 3) :
    e.cycle.addMove (Coordinates.cycle targets) (Coordinates.cycle work)
        (Coordinates.cycle work') (Coordinates.cycle machine) (Coordinates.cycle machine') =
      (e.addMove targets work work' machine machine').cycle := by
  have hmoved : e.moved.length = targets.length := he.moved.trans htargets.symm
  simp only [addMove, cycle, zipWith_cycle _ hmoved]
  rw [Bounds.observe_cycle he.work fun axis => movePoints_cycle htargets hwork hwork',
    Bounds.observe_cycle he.machine fun axis => movePoints_cycle htargets hmachine hmachine']

end Regions

/-! ### Times -/

/-- A machine has the same limits on each of three axes. -/
structure Config.LimitsAlike [Scalar α] (c : Config α) : Prop where
  maxFeed : ∀ axis < 3, c.maxFeed.forAxis axis = c.maxFeed.forAxis 0
  acceleration : ∀ axis < 3, c.acceleration.forAxis axis = c.acceleration.forAxis 0

/-- Limits that are given once for all axes are alike. -/
theorem Config.limitsAlike_of_uniform [Scalar α] {c : Config α} {feed acceleration : α}
    (hfeed : c.maxFeed = .uniform feed) (hacceleration : c.acceleration = .uniform acceleration) :
    c.LimitsAlike := by
  constructor
  · intro axis _
    rw [hfeed]
    rfl
  · intro axis _
    rw [hacceleration]
    rfl

namespace Timing

variable {axis : Nat}

/-- The feed of the next axis is what was the feed of the axis. -/
theorem feedAt_cycle [Scalar α] {feeds : List α} (h : feeds.length = 3) (haxis : axis < 3) :
    feedAt (cycle feeds) (nextAxis axis) = feedAt feeds axis := by
  rw [feedAt, getElem?_cycle h haxis, feedAt]

section Limits

variable [Scalar α] {c : Config α} (hc : c.LimitsAlike) (units : Units)

include hc

/-- All axes have the same largest feed. -/
theorem maxFeedIn_nextAxis (haxis : axis < 3) :
    c.maxFeedIn units (nextAxis axis) = c.maxFeedIn units axis := by
  rw [Config.maxFeedIn, Config.maxFeedIn, hc.maxFeed _ (nextAxis_lt axis), hc.maxFeed _ haxis]

/-- All axes have the same acceleration. -/
theorem accelerationIn_nextAxis (haxis : axis < 3) :
    c.accelerationIn units (nextAxis axis) = c.accelerationIn units axis := by
  rw [Config.accelerationIn, Config.accelerationIn, hc.acceleration _ (nextAxis_lt axis),
    hc.acceleration _ haxis]

/-- The feeds of the axes in a rapid move. -/
theorem rapidFeeds_cycle {travels : List α} (h : travels.length = 3) :
    rapidFeeds c units (cycle travels) = cycle (rapidFeeds c units travels) := by
  refine mapIdx_cycle h fun axis haxis => ?_
  rw [maxFeedIn_nextAxis hc units haxis]

end Limits

variable {c : Config ℝ} (hc : c.LimitsAlike) (units : Units)

include hc

/-- The longest ramp is that of another axis, and as long as it was. -/
theorem longestRamp_cycle {last feeds : List ℝ} (hlast : last.length = 3)
    (hfeeds : feeds.length = 3) :
    longestRamp c units (cycle last) (cycle feeds) = longestRamp c units last feeds := by
  rw [longestRamp, longestRamp, ← maxOf_cycle (feeds.mapIdx _)]
  refine congrArg Scalar.maxOf (mapIdx_cycle hfeeds fun axis haxis => ?_)
  rw [feedAt_cycle hlast haxis, accelerationIn_nextAxis hc units haxis]

/-- **A move at a programmed feed takes the same time.** -/
theorem feedTime_cycle {last travels : List ℝ} (hlast : last.length = 3)
    (htravels : travels.length = 3) (travel feed : ℝ) :
    feedTime c units (cycle last) (cycle travels) travel feed =
      feedTime c units last travels travel feed := by
  have hshares : (shares travels travel feed).length = 3 := (List.length_map _).trans htravels
  have hcycle : shares (cycle travels) travel feed = cycle (shares travels travel feed) :=
    map_cycle _ travels
  rw [feedTime, feedTime, norm_cycle, hcycle, longestRamp_cycle hc units hlast hshares]

/-- **A rapid move takes the same time.** -/
theorem rapidTime_cycle {last travels : List ℝ} (hlast : last.length = 3)
    (htravels : travels.length = 3) :
    rapidTime c units (cycle last) (cycle travels) = rapidTime c units last travels := by
  have hfeeds : (rapidFeeds c units travels).length = 3 := List.length_mapIdx.trans htravels
  rw [rapidTime, rapidTime, rapidFeeds_cycle hc units htravels, ← maxOf_cycle (travels.mapIdx _)]
  refine congrArg Scalar.maxOf (mapIdx_cycle htravels fun axis haxis => ?_)
  rw [feedAt_cycle hlast haxis, feedAt_cycle hfeeds haxis, accelerationIn_nextAxis hc units haxis]

/-- **A move in inverse-time mode takes the same time.** -/
theorem inverseTime_cycle {travels : List ℝ} (htravels : travels.length = 3) (feed : ℝ) :
    inverseTime c units (cycle travels) feed = inverseTime c units travels feed := by
  have hleast : leastTime c units (cycle travels) = leastTime c units travels := by
    rw [leastTime, leastTime, ← maxOf_cycle (travels.mapIdx _)]
    refine congrArg Scalar.maxOf (mapIdx_cycle htravels fun axis haxis => ?_)
    rw [maxFeedIn_nextAxis hc units haxis]
  rw [inverseTime, inverseTime, hleast]

/-- **A move takes the same time, and ends with the renamed feeds.** -/
theorem duration_cycle (s : Settings ℝ) {last : Option (List ℝ)} {travels : List ℝ}
    (hlast : ∀ feeds, last = some feeds → feeds.length = 3) (htravels : travels.length = 3)
    (travel : ℝ) (feed : Option ℝ) :
    duration c s (last.map cycle) (cycle travels) travel feed =
      ((duration c s last travels travel feed).1,
        (duration c s last travels travel feed).2.map cycle) := by
  have hbefore : (last.map cycle).getD ((cycle travels).map fun _ => 0) =
      cycle (last.getD (travels.map fun _ => 0)) := by
    cases last with
    | none => exact map_cycle _ travels
    | some feeds => rfl
  have hlength : (last.getD (travels.map fun _ => 0)).length = 3 := by
    cases last with
    | none => exact (List.length_map _).trans htravels
    | some feeds => exact hlast feeds rfl
  simp only [duration, hbefore, feedTime_cycle hc s.units hlength htravels,
    rapidTime_cycle hc s.units hlength htravels, inverseTime_cycle hc s.units htravels,
    rapidFeeds_cycle hc s.units htravels]
  split
  · rfl
  · split
    · split
      · exact congrArg (Prod.mk _) (congrArg some (map_cycle _ travels))
      · exact congrArg (Prod.mk _) (congrArg some (map_cycle _ travels))
    · rfl

end Timing

end DryRun
