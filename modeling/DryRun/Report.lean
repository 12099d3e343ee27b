import DryRun.State

/-!
# Reports

What a run amounts to, as a value of its own: its time, the bounds of its motion in both
frames, what it used, and where the machine ended. A report has a text for people and a form
as data.
-/

namespace DryRun

variable {α : Type}

/-- One value for each axis, by its label, in the order of the axes. -/
structure AxisValues (α : Type) where
  entries : List (Char × α)
deriving DecidableEq

namespace AxisValues

/-- Pairs labels with values, as far as both go. -/
def of (labels : List Char) (values : List α) : AxisValues α := ⟨labels.zip values⟩

/-- The value of an axis by its label, which is looked up in lower case. -/
def get? (v : AxisValues α) (label : Char) : Option α :=
  (v.entries.find? (·.1 = label.toLower)).map (·.2)

/-- The values in order. -/
def values (v : AxisValues α) : List α := v.entries.map (·.2)

/-- Values by axis as data: one member for each axis. -/
def toJson [Scalar α] (v : AxisValues α) : Json :=
  .object (v.entries.map fun e => (e.1.toString, .ofScalar e.2))

end AxisValues

/-- The bounds of a motion for every axis. -/
structure BoundingBox (α : Type) where
  min : AxisValues α
  max : AxisValues α
deriving DecidableEq

namespace BoundingBox

variable [Scalar α]

/-- The box of some bounds. An axis on which nothing was observed reads zero. -/
def of (labels : List Char) (b : Bounds α) : BoundingBox α where
  min := .of labels (b.min.map (·.getD 0))
  max := .of labels (b.max.map (·.getD 0))

/-- The extent along an axis. -/
def size? (b : BoundingBox α) (label : Char) : Option α := do
  let high ← b.max.get? label
  let low ← b.min.get? label
  return high - low

/-- A box as data. -/
def toJson (b : BoundingBox α) : Json := .object [("min", b.min.toJson), ("max", b.max.toJson)]

end BoundingBox

/-- The summary of a run. -/
structure Report (α : Type) where
  totalTime : α
  lines : Nat
  units : Units
  box : BoundingBox α
  machineBox : BoundingBox α
  tools : OrderedSet Nat
  feedRates : DistinctValues α
  spindleSpeeds : DistinctValues α
  flagged : OrderedSet String
  letters : OrderedSet Char
  toolSelects : Nat
  toolChanges : Nat
  position : AxisValues α
  machinePosition : AxisValues α
deriving DecidableEq

namespace Report

/-- Whether any line was flagged. -/
def hasFlagged (r : Report α) : Bool := !r.flagged.toList.isEmpty

variable [Scalar α]

/-- The summary of a run that has come to a state. -/
def of (s : State α) : Report α where
  totalTime := s.totalTime
  lines := s.catalogue.lines
  units := s.settings.units
  box := .of s.axes s.envelope.work
  machineBox := .of s.axes s.envelope.machine
  tools := s.catalogue.tools
  feedRates := s.catalogue.feedRates
  spindleSpeeds := s.catalogue.spindleSpeeds
  flagged := s.catalogue.flagged
  letters := s.catalogue.letters
  toolSelects := s.catalogue.toolSelects
  toolChanges := s.catalogue.toolChanges
  position := .of s.axes s.work
  machinePosition := .of s.axes s.machine

/-- A report as data. -/
def toJson (r : Report α) : Json :=
  .object [
    ("total_time", .ofScalar r.totalTime),
    ("line_count", .ofNat r.lines),
    ("units", r.units.toJson),
    ("bbox", r.box.toJson),
    ("machine_bbox", r.machineBox.toJson),
    ("tools", .ofList .ofNat r.tools.toList),
    ("feedrates", r.feedRates.toJson),
    ("spindle_rates", r.spindleSpeeds.toJson),
    ("invalid_gcode", .ofList .string r.flagged.toList),
    ("seen_words", .ofList .ofChar r.letters.toList),
    ("count_t", .ofNat r.toolSelects),
    ("count_m6", .ofNat r.toolChanges),
    ("position", r.position.toJson),
    ("machine_position", r.machinePosition.toJson)]

end Report

end DryRun
