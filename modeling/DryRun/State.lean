import DryRun.Block
import DryRun.Bounds
import DryRun.Config
import DryRun.DistinctValues
import DryRun.OrderedSet

/-!
# The state of a machine

What a machine remembers from one line to the next, in five groups: where it is (positions,
frames, references), how lines are read (`Settings` and the sticky motion), how long the run
has taken and with which axis feeds it left its last move, which region the motion has
covered, and what the program has used so far (`Catalogue`).

The work position and the machine position always describe the same point: whenever one of
them or the frame in force changes, the other is derived again.
-/

namespace DryRun

variable {α : Type}

/-- The modal settings under which lines are read. -/
structure Settings (α : Type) where
  units : Units
  incremental : Bool
  plane : Plane
  inverseFeed : Bool
  feed : α
  spindle : Bool
  rotation : Rotation
  spindleSpeed : α
  coolant : Coolant
  tool : Option Nat
deriving DecidableEq

/-- What a program has used so far. -/
structure Catalogue (α : Type) where
  /-- How many lines were evaluated. -/
  lines : Nat
  /-- The number that a line gave itself last. -/
  lineNumber : Option Nat
  letters : OrderedSet Char
  feedRates : DistinctValues α
  spindleSpeeds : DistinctValues α
  tools : OrderedSet Nat
  /-- The source texts of flagged lines. -/
  flagged : OrderedSet String
  toolSelects : Nat
  toolChanges : Nat
deriving DecidableEq

/-- The region that a motion has covered. -/
structure Envelope (α : Type) where
  /-- Bounds in work coordinates. -/
  work : Bounds α
  /-- Bounds in machine coordinates. -/
  machine : Bounds α
  /-- Which axes a motion has named. -/
  moved : List Bool
deriving DecidableEq

/-- The state of a machine. -/
structure State (α : Type) where
  /-- The labels of the axes, in lower case. -/
  axes : List Char
  /-- The position in work coordinates. -/
  work : List α
  /-- The position in machine coordinates. -/
  machine : List α
  frame : Frame α
  /-- The first reference position, in machine coordinates. -/
  home : List α
  /-- The second reference position, in machine coordinates. -/
  secondaryHome : List α
  settings : Settings α
  /-- The motion that lines without one of their own perform. -/
  motion : Option Motion
  /-- The estimated time of the run so far, in seconds. -/
  totalTime : α
  /-- The feed of each axis at the end of the last timed move, in units per minute. -/
  axisFeeds : Option (List α)
  envelope : Envelope α
  catalogue : Catalogue α
deriving DecidableEq

namespace Catalogue

/-- The catalogue of a run that has not begun. -/
def empty : Catalogue α where
  lines := 0
  lineNumber := none
  letters := .empty
  feedRates := .empty
  spindleSpeeds := .empty
  tools := .empty
  flagged := .empty
  toolSelects := 0
  toolChanges := 0

end Catalogue

namespace Envelope

/-- The envelope of no motion of `n` axes. -/
def empty (n : Nat) : Envelope α := ⟨.empty n, .empty n, List.replicate n false⟩

end Envelope

namespace State

/-- How many axes there are. -/
def axisCount (s : State α) : Nat := s.axes.length

/-- The index of an axis by its label, in either letter case. -/
def axisIndex? (s : State α) (label : Char) : Option Nat := DryRun.axisIndex? s.axes label

variable [Scalar α]

/-! ### Positions and frames -/

/-- Derives the work position from the machine position. -/
def deriveWork (s : State α) : State α := { s with work := s.frame.toWork s.machine }

/-- Derives the machine position from the work position. -/
def deriveMachine (s : State α) : State α := { s with machine := s.frame.toMachine s.work }

/-- Changes the frame while the machine stands still. -/
def setFrame (s : State α) (frame : Frame α) : State α := { s with frame }.deriveWork

/-- Selects a work coordinate system while the machine stands still. There is nothing to
select beyond the last one. -/
def selectSystem (s : State α) (index : Nat) : State α :=
  if s.frame.hasSystem index then s.setFrame { s.frame with active := index } else s

/-- Work coordinates for the axes for which a machine coordinate is given. -/
def machineWordsToWork (s : State α) (words : List (Option α)) : List (Option α) :=
  let target := words.zipWith (fun word here => word.getD here) s.machine
  (s.frame.toWork target).zipWith (fun value word => word.map fun _ => value) words

/-! ### The state that a run starts from -/

/-- The settings at power-on, as far as the start state does not give others. -/
def startSettings (i : StartState α) : Settings α where
  units := i.units.getD .mm
  incremental := i.incremental.getD false
  plane := i.plane.getD .xy
  inverseFeed := i.inverseFeed.getD false
  feed := i.feed.getD 0
  spindle := i.spindle.getD false
  rotation := i.rotation.getD .clockwise
  spindleSpeed := i.spindleSpeed.getD 0
  coolant := i.coolant.getD .off
  tool := i.tool

/-- The frames of `n` axes at power-on, as far as the start state does not give others. -/
def startFrame (n : Nat) (i : StartState α) : Frame α where
  active := i.system.getD 0
  systems := (List.range systemCount).map fun k =>
    ((i.systems.getD [])[k]?).getD (List.replicate n 0)
  offset := i.offset.getD (List.replicate n 0)
  offsetEnabled := i.offsetEnabled.getD false

/-- The state that a run with a configuration starts from. -/
def start (c : Config α) : State α :=
  let n := c.axisCount
  let i := c.start.getD .empty
  let zeros : List α := List.replicate n 0
  deriveWork {
    axes := c.axes.map Char.toLower
    work := zeros
    machine := i.machine.getD zeros
    frame := startFrame n i
    home := (i.references.map (·.1)).getD zeros
    secondaryHome := (i.references.map (·.2)).getD zeros
    settings := startSettings i
    motion := some (i.motion.getD .rapid)
    totalTime := 0
    axisFeeds := none
    envelope := .empty n
    catalogue := .empty }

/-- The state that a run starts from, if the configuration has no fault. -/
def start? (c : Config α) : Except ConfigFault (State α) :=
  match c.fault? with
  | some fault => .error fault
  | none => .ok (start c)

end State

end DryRun
