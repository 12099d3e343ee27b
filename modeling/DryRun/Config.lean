import DryRun.Units
import DryRun.Plane
import DryRun.Spindle
import DryRun.Motion
import DryRun.Fault
import DryRun.Frame

/-!
# Configurations

A configuration names the axes of a machine, limits their speed and acceleration, and may
give a state to start from, so that a run can be resumed where a controller stands.

`Config.fault?` is the first thing wrong with a configuration, in a fixed order: the axes one
by one, the limits, the shortest time of a move, and the start state. A machine is built only
from a configuration without a fault.
-/

namespace DryRun

variable {α : Type}

/-! ### Limits -/

/-- A limit, given once for all axes or once for each. -/
inductive Limit (α : Type) where
  | uniform (value : α)
  | perAxis (values : List α)
deriving DecidableEq

namespace Limit

variable [Scalar α]

/-- The limit of an axis. An axis for which none is given has no number as its limit. -/
def forAxis : Limit α → Nat → α
  | .uniform value, _ => value
  | .perAxis values, axis => (values[axis]?).getD Scalar.nan

/-- Whether a value can be a limit. -/
def isPositive (x : α) : Bool := Scalar.isFinite x && !decide (x ≤ 0)

/-- The first of the values that cannot be a limit. -/
def valueFault? (field : String) (values : List α) : Option ConfigFault :=
  (values.find? (!isPositive ·)).map fun x =>
    .outOfRange field (Scalar.text x ++ " must be a positive number")

/-- What is wrong with a limit for `n` axes. -/
def fault? (field : String) (n : Nat) : Limit α → Option ConfigFault
  | .uniform value => valueFault? field [value]
  | .perAxis values =>
    if values.length = n then valueFault? field values
    else some (.axisCount field n values.length)

/-- A limit as data: a number or a list of numbers. -/
def toJson : Limit α → Json
  | .uniform value => .ofScalar value
  | .perAxis values => .ofScalars values

/-- A limit from data. -/
def ofJson? : Json → Option (Limit α)
  | .list items => (Json.asList? Json.asScalar? (.list items)).map .perAxis
  | v => v.asScalar?.map .uniform

end Limit

/-! ### Start states -/

/-- The part of a state that a run starts from. What is absent is as at power-on. -/
structure StartState (α : Type) where
  units : Option Units
  incremental : Option Bool
  plane : Option Plane
  inverseFeed : Option Bool
  motion : Option Motion
  system : Option Nat
  systems : Option (List (List α))
  offset : Option (List α)
  offsetEnabled : Option Bool
  references : Option (List α × List α)
  machine : Option (List α)
  feed : Option α
  spindle : Option Bool
  rotation : Option Rotation
  spindleSpeed : Option α
  coolant : Option Coolant
  tool : Option Nat
deriving DecidableEq

namespace StartState

/-- A start state that gives nothing. -/
def empty : StartState α :=
  ⟨none, none, none, none, none, none, none, none, none, none, none, none, none, none, none,
    none, none⟩

/-- What is wrong with a vector that should have one entry for each of `n` axes. -/
def lengthFault? (field : String) (n : Nat) (values : List α) : Option ConfigFault :=
  if values.length = n then none else some (.axisCount field n values.length)

/-- What is wrong with the index of the active work coordinate system. -/
def systemFault? (s : StartState α) : Option ConfigFault :=
  match s.system with
  | some index => if index < systemCount then none else some (.systemOutOfRange index)
  | none => none

/-- What is wrong with the offsets of the work coordinate systems. -/
def systemsFault? (s : StartState α) (n : Nat) : Option ConfigFault :=
  match s.systems with
  | some systems =>
    if systemCount < systems.length then some (.systemOutOfRange (systems.length - 1))
    else systems.findSome? (lengthFault? "initial_state.coord_sys_offsets" n)
  | none => none

/-- What is wrong with the two reference positions. -/
def referencesFault? (s : StartState α) (n : Nat) : Option ConfigFault :=
  match s.references with
  | some (first, second) =>
    (lengthFault? "initial_state.stored_positions" n first).or
      (lengthFault? "initial_state.stored_positions" n second)
  | none => none

variable [Scalar α]

/-- What is wrong with the feed rate. -/
def feedFault? (s : StartState α) : Option ConfigFault :=
  match s.feed with
  | some feed =>
    if Scalar.isFinite feed && !decide (feed < 0) then none
    else some (.outOfRange "initial_state.feed" (Scalar.text feed ++ " is not a valid feed rate"))
  | none => none

/-- The first thing wrong with a start state for `n` axes. -/
def fault? (s : StartState α) (n : Nat) : Option ConfigFault :=
  s.systemFault?
    |>.or (s.systemsFault? n)
    |>.or (s.offset.bind (lengthFault? "initial_state.offset" n))
    |>.or (s.referencesFault? n)
    |>.or (s.machine.bind (lengthFault? "initial_state.mpos" n))
    |>.or s.feedFault?

/-- A start state as data. -/
def toJson (s : StartState α) : Json :=
  .object [
    ("units", .ofOption Units.toJson s.units),
    ("incremental", .ofOption .bool s.incremental),
    ("plane", .ofOption Plane.toJson s.plane),
    ("inverse_feed", .ofOption .bool s.inverseFeed),
    ("motion_mode", .ofOption Motion.toJson s.motion),
    ("active_coord_sys", .ofOption .ofNat s.system),
    ("coord_sys_offsets", .ofOption (.ofList .ofScalars) s.systems),
    ("offset", .ofOption .ofScalars s.offset),
    ("offset_enabled", .ofOption .bool s.offsetEnabled),
    ("stored_positions", .ofOption (fun r => .list [.ofScalars r.1, .ofScalars r.2]) s.references),
    ("mpos", .ofOption .ofScalars s.machine),
    ("feed", .ofOption .ofScalar s.feed),
    ("spindle", .ofOption .bool s.spindle),
    ("spindle_direction", .ofOption Rotation.toJson s.rotation),
    ("spindle_speed", .ofOption .ofScalar s.spindleSpeed),
    ("coolant", .ofOption Coolant.toJson s.coolant),
    ("tool", .ofOption .ofNat s.tool)]

/-- The names of a start state's fields, in order. -/
def fieldNames : List String :=
  ["units", "incremental", "plane", "inverse_feed", "motion_mode", "active_coord_sys",
    "coord_sys_offsets", "offset", "offset_enabled", "stored_positions", "mpos", "feed",
    "spindle", "spindle_direction", "spindle_speed", "coolant", "tool"]

/-- A start state from data. Every field may be left out. -/
def ofJson? (v : Json) : Option (StartState α) := do
  let fs ← v.fields? fieldNames
  let vector := Json.asList? Json.asScalar?
  return {
    units := ← fs.optional "units" Units.ofJson?
    incremental := ← fs.optional "incremental" Json.asBool?
    plane := ← fs.optional "plane" Plane.ofJson?
    inverseFeed := ← fs.optional "inverse_feed" Json.asBool?
    motion := ← fs.optional "motion_mode" Motion.ofJson?
    system := ← fs.optional "active_coord_sys" (Json.asNat? 64)
    systems := ← fs.optional "coord_sys_offsets" (Json.asList? vector)
    offset := ← fs.optional "offset" vector
    offsetEnabled := ← fs.optional "offset_enabled" Json.asBool?
    references := ← fs.optional "stored_positions" (Json.asPair? vector)
    machine := ← fs.optional "mpos" vector
    feed := ← fs.optional "feed" Json.asScalar?
    spindle := ← fs.optional "spindle" Json.asBool?
    rotation := ← fs.optional "spindle_direction" Rotation.ofJson?
    spindleSpeed := ← fs.optional "spindle_speed" Json.asScalar?
    coolant := ← fs.optional "coolant" Coolant.ofJson?
    tool := ← fs.optional "tool" (Json.asNat? 32) }

end StartState

/-! ### Configurations -/

/-- The letters that have a meaning of their own and so cannot name an axis. -/
def reservedLetters : List Char :=
  ['G', 'M', 'N', 'F', 'S', 'T', 'P', 'L', 'R', 'I', 'J', 'K', 'H', 'D', 'O', 'Q']

/-- The index of an axis by its label, in either letter case. -/
def axisIndex? (labels : List Char) (label : Char) : Option Nat :=
  labels.findIdx? (·.toLower = label.toLower)

/-- The configuration of a machine. -/
structure Config (α : Type) where
  /-- The labels of the axes, in the order of coordinates. -/
  axes : List Char
  /-- The largest feed of each axis, in millimetres per minute. -/
  maxFeed : Limit α
  /-- The acceleration of each axis, in millimetres per second squared. -/
  acceleration : Limit α
  /-- The shortest time that a move takes, in seconds. -/
  minMoveTime : α
  /-- Whether arcs are timed over their length and not over their chord. -/
  arcLengthTravel : Bool
  /-- The state to start from. -/
  start : Option (StartState α)
deriving DecidableEq

namespace Config

/-- How many axes there are. -/
def axisCount (c : Config α) : Nat := c.axes.length

/-- What is wrong with the first faulty label, where `earlier` are the labels before it. -/
def labelFault? (earlier : List Char) : List Char → Option ConfigFault
  | [] => none
  | label :: rest =>
    if !label.isAlpha then some (.invalidAxis label)
    else if reservedLetters.contains label.toUpper then some (.reservedAxis label)
    else if (axisIndex? earlier label).isSome then some (.duplicateAxis label)
    else labelFault? (earlier ++ [label]) rest

/-- What is wrong with the axes. -/
def axesFault? (labels : List Char) : Option ConfigFault :=
  if labels.isEmpty then some .noAxes else labelFault? [] labels

variable [Scalar α]

/-- The configuration of a machine with three axes and ordinary limits. -/
def standard : Config α where
  axes := ['x', 'y', 'z']
  maxFeed := .uniform (Scalar.ofNat 1000)
  acceleration := .uniform (Scalar.ofNat 500)
  minMoveTime := 0
  arcLengthTravel := false
  start := none

/-- What is wrong with the shortest time of a move. -/
def minMoveTimeFault? (seconds : α) : Option ConfigFault :=
  if Scalar.isFinite seconds && !decide (seconds < 0) then none
  else some (.outOfRange "min_move_time" (Scalar.text seconds ++ " must be zero or positive"))

/-- The first thing wrong with a configuration. -/
def fault? (c : Config α) : Option ConfigFault :=
  axesFault? c.axes
    |>.or (c.maxFeed.fault? "max_feed" c.axisCount)
    |>.or (c.acceleration.fault? "acceleration" c.axisCount)
    |>.or (minMoveTimeFault? c.minMoveTime)
    |>.or (c.start.bind (·.fault? c.axisCount))

/-- Accepts a configuration without a fault. -/
def validate (c : Config α) : Except ConfigFault Unit :=
  match c.fault? with
  | some fault => .error fault
  | none => .ok ()

/-- The largest feed of an axis, per minute, in the units of a program. -/
def maxFeedIn (c : Config α) (units : Units) (axis : Nat) : α :=
  units.ofMm (c.maxFeed.forAxis axis)

/-- The acceleration of an axis, per second squared, in the units of a program. -/
def accelerationIn (c : Config α) (units : Units) (axis : Nat) : α :=
  units.ofMm (c.acceleration.forAxis axis)

/-- A configuration as data. -/
def toJson (c : Config α) : Json :=
  .object [
    ("axis_labels", .ofList .ofChar c.axes),
    ("max_feed", c.maxFeed.toJson),
    ("acceleration", c.acceleration.toJson),
    ("min_move_time", .ofScalar c.minMoveTime),
    ("arc_length_travel", .bool c.arcLengthTravel),
    ("initial_state", .ofOption StartState.toJson c.start)]

/-- The names of a configuration's fields, in order. -/
def fieldNames : List String :=
  ["axis_labels", "max_feed", "acceleration", "min_move_time", "arc_length_travel",
    "initial_state"]

/-- A configuration from data. Every field may be left out and is then the standard one. -/
def ofJson? (v : Json) : Option (Config α) := do
  let fs ← v.fields? fieldNames
  let base : Config α := standard
  return {
    axes := ← fs.withDefault "axis_labels" base.axes (Json.asList? Json.asChar?)
    maxFeed := ← fs.withDefault "max_feed" base.maxFeed Limit.ofJson?
    acceleration := ← fs.withDefault "acceleration" base.acceleration Limit.ofJson?
    minMoveTime := ← fs.withDefault "min_move_time" base.minMoveTime Json.asScalar?
    arcLengthTravel := ← fs.withDefault "arc_length_travel" base.arcLengthTravel Json.asBool?
    start := ← fs.optional "initial_state" StartState.ofJson? }

/-- A configuration from a JSON text. -/
def ofText? (s : String) : Option (Config α) := (Json.ofText? s).bind ofJson?

end Config

end DryRun
