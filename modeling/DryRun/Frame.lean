import DryRun.Number.Scalar

/-!
# Coordinate frames

A position is measured in the machine's own frame or in a work frame, which is shifted
against it by the offsets of a work coordinate system and, on top of it, by an override
offset that can be switched on and off. `Frame.convert` is the only place where positions
change frames: per axis, the offsets of the frame they come from are added and those of the
frame they go to are taken away. An axis that a list of offsets does not reach has offset
zero, so positions and offsets of any length can be converted.
-/

namespace DryRun

/-- A frame of reference: a work coordinate system by its index, and an override offset. The
machine's own frame has neither. -/
structure FrameRef (α : Type) where
  system : Option Nat
  override : Option (List α)
deriving DecidableEq

/-- The offsets that define the frames of a machine, and which of them are in force. -/
structure Frame (α : Type) where
  /-- Index of the active work coordinate system. -/
  active : Nat
  /-- The offsets of each work coordinate system. -/
  systems : List (List α)
  /-- The override offset. -/
  offset : List α
  /-- Whether the override offset is switched on. -/
  offsetEnabled : Bool
deriving DecidableEq

/-- How many work coordinate systems a machine has. -/
def systemCount : Nat := 6

namespace FrameRef

/-- The machine's own frame. -/
def machine {α : Type} : FrameRef α := ⟨none, none⟩

end FrameRef

namespace Frame

variable {α : Type} [Scalar α]

/-- An axis of an offset; what is missing is zero. -/
def component (offsets : Option (List α)) (axis : Nat) : α :=
  (offsets.bind (·[axis]?)).getD 0

/-- Whether there is a work coordinate system with an index. -/
def hasSystem (f : Frame α) (index : Nat) : Bool := decide (index < f.systems.length)

/-- The offsets of the work coordinate system of a frame of reference. -/
def systemOf (f : Frame α) (r : FrameRef α) : Option (List α) := r.system.bind (f.systems[·]?)

/-- How far the origin of a frame of reference is shifted along an axis. -/
def shift (f : Frame α) (r : FrameRef α) (axis : Nat) : α :=
  component (f.systemOf r) axis + component r.override axis

/-- A position in one frame of reference, measured in another. -/
def convert (f : Frame α) (source target : FrameRef α) (position : List α) : List α :=
  position.mapIdx fun axis value => value + f.shift source axis - f.shift target axis

/-- The work frame in force. -/
def work (f : Frame α) : FrameRef α :=
  ⟨some f.active, if f.offsetEnabled then some f.offset else none⟩

/-- A work position in machine coordinates. -/
def toMachine (f : Frame α) (position : List α) : List α := f.convert f.work .machine position

/-- A machine position in work coordinates. -/
def toWork (f : Frame α) (position : List α) : List α := f.convert .machine f.work position

/-- The offset along an axis that is in force on top of the work coordinate system. -/
def overrideAt (f : Frame α) (axis : Nat) : α :=
  if f.offsetEnabled then (f.offset[axis]?).getD 0 else 0

/-- The frame with no override offset: it is zero on all axes and switched off. -/
def clearOffset (f : Frame α) : Frame α :=
  { f with offset := f.offset.map fun _ => 0, offsetEnabled := false }

end Frame

end DryRun
