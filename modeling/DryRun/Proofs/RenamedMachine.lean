import Mathlib.GroupTheory.Perm.List
import DryRun.Proofs.AxisCycle

/-!
# A machine with its axes renamed

On a machine with the axes `x`, `y` and `z` the axes can be renamed in a circle, and the planes as
their axes are (`Plane.cycle`). Positions, frames, references, axis feeds and the region of the
motion are then those of the renamed axes (`State.cycle`), and a move to renamed targets is the
renamed move.

What a machine keeps of the text of its lines is not renamed with it: the letters that it has
seen and the texts of flagged lines are given apart.

## Main results

* `State.setOffsets_cycle`, `State.homeAxes_cycle`, `State.applyOrigin_cycle`: what lines do to
  offsets and origins.
* `State.perform_cycle`: a move, its event and its time.
-/

namespace DryRun

open Coordinates

variable {α : Type}

/-! ### Names -/

/-- The letter that the letter of an axis, in either letter case, or of a centre becomes. -/
def cycleLetter : Equiv.Perm Char :=
  ['X', 'Y', 'Z'].formPerm * ['x', 'y', 'z'].formPerm * ['I', 'J', 'K'].formPerm

/-- The plane that a plane becomes when its axes are renamed. -/
def Plane.cycle : Plane → Plane
  | .xy => .yz
  | .yz => .zx
  | .zx => .xy

/-- A plane becomes the one whose axes are the renamed axes, in order. -/
theorem Plane.axes_cycle (p : Plane) :
    p.cycle.first = cycleLetter p.first ∧ p.cycle.second = cycleLetter p.second ∧
      p.cycle.normal = cycleLetter p.normal := by
  cases p <;> decide

/-- The letters of a centre are renamed with the axes that they belong to. -/
theorem Plane.offsets_cycle (p : Plane) :
    p.cycle.firstOffset.toUpper = cycleLetter p.firstOffset.toUpper ∧
      p.cycle.secondOffset.toUpper = cycleLetter p.secondOffset.toUpper := by
  cases p <;> decide

/-- The labels of the axes that are renamed. -/
def cartesianLabels : List Char := ['x', 'y', 'z']

/-- The axes of a plane are among them. -/
theorem Plane.axes_mem (p : Plane) :
    p.first ∈ cartesianLabels ∧ p.second ∈ cartesianLabels ∧ p.normal ∈ cartesianLabels := by
  cases p <;> decide

/-- The index of a renamed axis is the next one. -/
theorem axisIndex?_cycleLetter {label : Char} (h : label ∈ cartesianLabels) :
    ∃ axis < 3, axisIndex? cartesianLabels label = some axis ∧
      axisIndex? cartesianLabels (cycleLetter label) = some (nextAxis axis) := by
  simp only [cartesianLabels, List.mem_cons, List.not_mem_nil, or_false] at h
  rcases h with rfl | rfl | rfl
  · exact ⟨0, by decide, by decide, by decide⟩
  · exact ⟨1, by decide, by decide, by decide⟩
  · exact ⟨2, by decide, by decide, by decide⟩

/-! ### States -/

/-- Settings with the plane renamed. -/
def Settings.cycle (s : Settings α) : Settings α := { s with plane := s.plane.cycle }

/-- A shape with its axes renamed. An arc turns the same way. -/
def Geometry.cycle : Geometry α → Geometry α
  | .line => .line
  | .arc centre machineCentre clockwise plane =>
    .arc (Coordinates.cycle centre) (Coordinates.cycle machineCentre) clockwise plane.cycle

/-- An event with its axes renamed. -/
def Event.cycle (e : Event α) : Event α :=
  { e with
    modal := { e.modal with settings := e.modal.settings.cycle }
    source := Coordinates.cycle e.source
    target := Coordinates.cycle e.target
    machineSource := Coordinates.cycle e.machineSource
    machineTarget := Coordinates.cycle e.machineTarget
    geometry := e.geometry.cycle }

/-- The result of a line with its axes renamed. -/
def LineResult.cycle (r : LineResult α) : LineResult α :=
  { r with events := r.events.map Event.cycle }

/-- A note with the axis renamed that it names. The text of the line is that of the renamed
line. -/
def Note.cycle (source : String) : Note α → Note α
  | .degraded (.unknownAxis line axis) => .degraded (.unknownAxis line (cycleLetter axis))
  | .skipped (.unsupportedMotion line code _) => .skipped (.unsupportedMotion line code source)
  | note => note

namespace State

/-- A state with its axes renamed. The letters that were seen and the texts of flagged lines are
those of other lines. -/
def cycle (s : State α) (letters : OrderedSet Char) (flagged : OrderedSet String) : State α :=
  { s with
    work := Coordinates.cycle s.work
    machine := Coordinates.cycle s.machine
    frame := s.frame.cycle
    home := Coordinates.cycle s.home
    secondaryHome := Coordinates.cycle s.secondaryHome
    settings := s.settings.cycle
    axisFeeds := s.axisFeeds.map Coordinates.cycle
    envelope := s.envelope.cycle
    catalogue := { s.catalogue with letters, flagged } }

/-- All lists of a state have one entry for each of the axes `x`, `y` and `z`. -/
structure Cartesian (s : State α) : Prop where
  axes : s.axes = cartesianLabels
  work : s.work.length = 3
  machine : s.machine.length = 3
  frame : s.frame.Shaped 3
  home : s.home.length = 3
  secondaryHome : s.secondaryHome.length = 3
  axisFeeds : ∀ feeds, s.axisFeeds = some feeds → feeds.length = 3
  envelope : s.envelope.Shaped 3

end State

/-- The axes of a machine are `x`, `y` and `z`, and they have the same limits. -/
structure Config.AxesAlike [Scalar α] (c : Config α) : Prop extends c.LimitsAlike where
  labels : c.axes.map Char.toLower = cartesianLabels

/-- A machine with three axes that are alike has three axes. -/
theorem Config.AxesAlike.axisCount [Scalar α] {c : Config α} (hc : c.AxesAlike) :
    c.axisCount = 3 := by
  rw [Config.axisCount, ← List.length_map Char.toLower, hc.labels]
  rfl

/-- A shaped state of such a machine has three entries in all of its lists. -/
theorem Pose.Shaped.cartesian [Scalar α] {c : Config α} {s : State α} (hs : s.pose.Shaped c)
    (hc : c.AxesAlike) : s.Cartesian := by
  obtain ⟨haxes, hwork, hmachine, hframe, hhome, hsecondary, hfeeds, henvelope⟩ := hs
  rw [hc.axisCount] at hwork hmachine hframe hhome hsecondary hfeeds henvelope
  exact ⟨haxes.trans hc.labels, hwork, hmachine, hframe, hhome, hsecondary, hfeeds, henvelope⟩

namespace State

section Frames

variable [Scalar α] {s : State α} (hs : s.Cartesian) (letters : OrderedSet Char)
  (flagged : OrderedSet String)

include hs

/-- The machine stands still while the frame changes. -/
theorem setFrame_cycle {f : Frame α} (hf : f.Shaped 3) :
    (s.cycle letters flagged).setFrame f.cycle = (s.setFrame f).cycle letters flagged := by
  simp only [setFrame, deriveWork, cycle, Frame.toWork_cycle hf hs.machine]

/-- Selecting a work coordinate system of the renamed machine. -/
theorem selectSystem_cycle (index : Nat) :
    (s.cycle letters flagged).selectSystem index =
      (s.selectSystem index).cycle letters flagged := by
  have hsystem : (s.cycle letters flagged).frame.hasSystem index = s.frame.hasSystem index := by
    simp only [cycle, Frame.cycle, Frame.hasSystem, List.length_map]
  rw [selectSystem, selectSystem, hsystem]
  split
  · next hindex => exact setFrame_cycle hs letters flagged (hs.frame.select hindex)
  · rfl

/-! ### Actions -/

/-- The offsets that a line gives or takes from the position. -/
theorem newOffsets_cycle (fromPosition : Bool) {words : List (Option α)} {offsets : List α}
    (hwords : words.length = 3) (hoffsets : offsets.length = 3) :
    (s.cycle letters flagged).newOffsets fromPosition (Coordinates.cycle words)
        (Coordinates.cycle offsets) =
      Coordinates.cycle (s.newOffsets fromPosition words offsets) := by
  refine mapIdx_cycle hoffsets fun axis haxis => ?_
  have horigin :
      (s.cycle letters flagged).originOffset (nextAxis axis) = s.originOffset axis := by
    change ((Coordinates.cycle s.machine)[nextAxis axis]?).getD 0 -
      s.frame.cycle.overrideAt (nextAxis axis) = _
    rw [getElem?_cycle hs.machine haxis, Frame.overrideAt_cycle hs.frame haxis, originOffset]
  rw [getElem?_cycle hwords haxis, horigin]

/-- Setting the offsets of a system of the renamed machine. -/
theorem setOffsets_cycle (fromPosition : Bool) (index : Nat) {words : List (Option α)}
    (hwords : words.length = 3) :
    (s.cycle letters flagged).setOffsets fromPosition index (Coordinates.cycle words) =
      (s.setOffsets fromPosition index words).cycle letters flagged := by
  have hshaped : Frame.Shaped 3 { s.frame with
      systems := s.frame.systems.modify index (s.newOffsets fromPosition words) } :=
    hs.frame.modify index fun _ => List.length_mapIdx
  have hsystems : (s.frame.systems.map Coordinates.cycle).modify index
        ((s.cycle letters flagged).newOffsets fromPosition (Coordinates.cycle words)) =
      (s.frame.systems.modify index (s.newOffsets fromPosition words)).map Coordinates.cycle := by
    apply List.ext_getElem?
    intro i
    simp only [List.getElem?_modify, List.getElem?_map]
    cases hi : s.frame.systems[i]? with
    | none => rfl
    | some offsets =>
        have hoffsets := hs.frame.system offsets (List.mem_of_getElem? hi)
        by_cases h : index = i
        · simp [h, newOffsets_cycle hs letters flagged fromPosition hwords hoffsets]
        · simp [h]
  have hframe := congrArg (fun systems => { s.frame.cycle with systems }) hsystems
  change (if index = s.frame.active then (s.cycle letters flagged).setFrame _
    else { s.cycle letters flagged with frame := _ }) = _
  simp only [setOffsets]
  split
  · exact (congrArg _ hframe).trans (setFrame_cycle hs letters flagged hshaped)
  · exact congrArg (fun frame => { s.cycle letters flagged with frame }) hframe

/-- Homed axes are at zero, whatever their names. -/
theorem homeAxes_cycle {words : List (Option α)} (hwords : words.length = 3) :
    (s.cycle letters flagged).homeAxes (Coordinates.cycle words) =
      (s.homeAxes words).cycle letters flagged := by
  have hmachine : (Coordinates.cycle s.machine).mapIdx (fun axis here =>
        if ((Coordinates.cycle words)[axis]?.join).isSome then 0 else here) =
      Coordinates.cycle (s.machine.mapIdx fun axis here =>
        if (words[axis]?.join).isSome then 0 else here) := by
    refine mapIdx_cycle hs.machine fun axis haxis => ?_
    rw [getElem?_cycle hwords haxis]
  have hlength : (s.machine.mapIdx fun axis here =>
      if (words[axis]?.join).isSome then 0 else here).length = 3 :=
    List.length_mapIdx.trans hs.machine
  simp only [homeAxes, deriveWork, cycle, hmachine, Frame.toWork_cycle hs.frame hlength]

/-- The offset that makes the position read as a line says. -/
theorem shiftedOffset_cycle {words : List (Option α)} (hwords : words.length = 3) :
    (s.cycle letters flagged).shiftedOffset (Coordinates.cycle words) =
      Coordinates.cycle (s.shiftedOffset words) := by
  refine mapIdx_cycle hs.frame.offset fun axis haxis => ?_
  funext old
  rw [getElem?_cycle hwords haxis]
  cases words[axis]?.join with
  | none => rfl
  | some value =>
      change ((Coordinates.cycle s.machine)[nextAxis axis]?).getD 0 -
        Frame.component s.frame.cycle.systems[s.frame.active]? (nextAxis axis) - value = _
      rw [getElem?_cycle hs.machine haxis, Frame.activeComponent_cycle hs.frame haxis]

/-- An origin command of the renamed machine. -/
theorem applyOrigin_cycle {words : List (Option α)} (hwords : words.length = 3)
    (command : OriginCommand) :
    (s.cycle letters flagged).applyOrigin (Coordinates.cycle words) command =
      (s.applyOrigin words command).cycle letters flagged := by
  cases command with
  | set =>
      have hoffset : (s.shiftedOffset words).length = 3 :=
        List.length_mapIdx.trans hs.frame.offset
      rw [applyOrigin, shiftedOffset_cycle hs letters flagged hwords]
      exact setFrame_cycle hs letters flagged (hs.frame.override hoffset true)
  | clear =>
      change (s.cycle letters flagged).setFrame s.frame.cycle.clearOffset = _
      rw [Frame.clearOffset_cycle]
      exact setFrame_cycle hs letters flagged hs.frame.clearOffset
  | suspend => exact setFrame_cycle hs letters flagged (hs.frame.override hs.frame.offset false)
  | restore => exact setFrame_cycle hs letters flagged (hs.frame.override hs.frame.offset true)

end Frames

/-! ### Moves -/

section Moves

variable {s : State ℝ} (hs : s.Cartesian) (letters : OrderedSet Char)
  (flagged : OrderedSet String)

include hs

/-- Targets that a line gives in machine coordinates. -/
theorem machineWordsToWork_cycle {words : List (Option ℝ)} (hwords : words.length = 3) :
    (s.cycle letters flagged).machineWordsToWork (Coordinates.cycle words) =
      Coordinates.cycle (s.machineWordsToWork words) := by
  have htarget : (List.zipWith (fun word here => word.getD here) words s.machine).length = 3 := by
    simp [hwords, hs.machine]
  have hwork : (s.frame.toWork
      (List.zipWith (fun word here => word.getD here) words s.machine)).length = words.length := by
    rw [Frame.length_toWork, htarget, hwords]
  rw [machineWordsToWork, machineWordsToWork, ← zipWith_cycle _ hwork,
    ← Frame.toWork_cycle hs.frame htarget, ← zipWith_cycle _ (hwords.trans hs.machine.symm)]
  rfl

/-- The targets of a renamed line. -/
theorem targets_cycle (machineFrame : Bool) {words : List (Option ℝ)} (hwords : words.length = 3) :
    (s.cycle letters flagged).targets machineFrame (Coordinates.cycle words) =
      Coordinates.cycle (s.targets machineFrame words) := by
  cases machineFrame with
  | true => exact machineWordsToWork_cycle hs letters flagged hwords
  | false => exact zipWith_cycle _ (hwords.trans hs.work.symm)

/-- There is a target for each of the three axes. -/
theorem Cartesian.length_targets (machineFrame : Bool) {words : List (Option ℝ)}
    (hwords : words.length = 3) : (s.targets machineFrame words).length = 3 := by
  cases machineFrame <;> simp [targets, machineWordsToWork, hwords, hs.work, hs.machine]

variable {targets : List (Option ℝ)} (ht : targets.length = 3)

include ht

/-- There is a destination for each of the three axes. -/
theorem Cartesian.length_destination : (s.destination targets).length = 3 := by
  simp [destination, ht, hs.work]

/-- A move of the renamed machine leads to the renamed point. -/
theorem destination_cycle :
    (s.cycle letters flagged).destination (Coordinates.cycle targets) =
      Coordinates.cycle (s.destination targets) :=
  zipWith_cycle _ (ht.trans hs.work.symm)

section Timed

variable {c : Config ℝ} (hc : c.LimitsAlike) (feed travel : Option ℝ)

include hc

/-- A move takes the same time, and ends with the renamed feeds. -/
theorem moveDuration_cycle :
    (s.cycle letters flagged).moveDuration c (Coordinates.cycle targets) feed travel =
      ((s.moveDuration c targets feed travel).1,
        (s.moveDuration c targets feed travel).2.map Coordinates.cycle) := by
  have hfinish := hs.length_destination ht
  have htravels : (s.cycle letters flagged).axisTravels
      (Coordinates.cycle (s.destination targets)) =
        Coordinates.cycle (s.axisTravels (s.destination targets)) :=
    zipWith_cycle _ (hfinish.trans hs.work.symm)
  have hlength : (s.axisTravels (s.destination targets)).length = 3 := by
    simp [axisTravels, hfinish, hs.work]
  rw [moveDuration, destination_cycle hs letters flagged ht, htravels, norm_cycle]
  exact Timing.duration_cycle hc s.settings hs.axisFeeds hlength _ feed

/-- A move of the renamed machine takes as long as before. -/
theorem moveTime_cycle :
    (s.cycle letters flagged).moveTime c (Coordinates.cycle targets) feed travel =
      s.moveTime c targets feed travel := by
  rw [moveTime, moveDuration_cycle hs letters flagged ht hc, moveTime]

/-- **The state after a move.** -/
theorem move_cycle :
    (s.cycle letters flagged).move c (Coordinates.cycle targets) feed travel =
      (s.move c targets feed travel).cycle letters flagged := by
  have hfinish := hs.length_destination ht
  have hmachine : (s.frame.toMachine (s.destination targets)).length = 3 :=
    (Frame.length_toMachine _ _).trans hfinish
  have hwork' := destination_cycle hs letters flagged ht
  have hmachine' : s.frame.cycle.toMachine (Coordinates.cycle (s.destination targets)) =
      Coordinates.cycle (s.frame.toMachine (s.destination targets)) :=
    Frame.toMachine_cycle hs.frame hfinish
  have henvelope := Envelope.addMove_cycle hs.envelope ht hs.work hfinish hs.machine hmachine
  rw [move, moveTime_cycle hs letters flagged ht hc, moveDuration_cycle hs letters flagged ht hc,
    hwork']
  change { s.cycle letters flagged with
    work := Coordinates.cycle (s.destination targets)
    machine := s.frame.cycle.toMachine (Coordinates.cycle (s.destination targets))
    envelope := s.envelope.cycle.addMove (Coordinates.cycle targets) (Coordinates.cycle s.work)
      (Coordinates.cycle (s.destination targets)) (Coordinates.cycle s.machine)
      (s.frame.cycle.toMachine (Coordinates.cycle (s.destination targets)))
    axisFeeds := (s.moveDuration c targets feed travel).2.map Coordinates.cycle
    totalTime := s.totalTime + s.moveTime c targets feed travel } = _
  rw [hmachine', henvelope]
  rfl

/-- **A move and its event.** -/
theorem perform_cycle (motion : Motion) (geometry : Geometry ℝ) :
    (s.cycle letters flagged).perform c motion (Coordinates.cycle targets) feed travel
        geometry.cycle =
      ((s.perform c motion targets feed travel geometry).1.cycle letters flagged,
        (s.perform c motion targets feed travel geometry).2.cycle) := by
  rw [perform, move_cycle hs letters flagged ht hc, moveTime_cycle hs letters flagged ht hc]
  rfl

end Timed

end Moves

end State

end DryRun
