import DryRun.State

/-!
# Motion events

Every move that is carried out yields one event with its start and end in both frames, the
settings it was made under, its shape and its time. Previews are drawn from events alone;
they survive being written as JSON and read back.
-/

namespace DryRun

variable {α : Type}

/-- The modal settings that a move was made under. -/
structure Snapshot (α : Type) where
  motion : Motion
  settings : Settings α
deriving DecidableEq

/-- The shape of a move. -/
inductive Geometry (α : Type) where
  | line
  | arc (centre machineCentre : List α) (clockwise : Bool) (plane : Plane)
deriving DecidableEq

/-- One move of a run. -/
structure Event (α : Type) where
  /-- The count of the line that made the move. -/
  line : Nat
  modal : Snapshot α
  /-- Start, in work coordinates. -/
  source : List α
  /-- End, in work coordinates. -/
  target : List α
  /-- Start, in machine coordinates. -/
  machineSource : List α
  /-- End, in machine coordinates. -/
  machineTarget : List α
  geometry : Geometry α
  /-- The time that the move took, in seconds. -/
  time : α
deriving DecidableEq

/-- What one line did. -/
structure LineResult (α : Type) where
  /-- Whether the line moved the machine. -/
  isMotion : Bool
  /-- The motion that the line asked for. -/
  motion : Option Motion
  /-- Whether the line changed the work frame. -/
  changedFrame : Bool
  /-- The time that the line added, in seconds. -/
  time : α
  events : List (Event α)
deriving DecidableEq

namespace Snapshot

variable [Scalar α]

/-- A snapshot as data. -/
def toJson (m : Snapshot α) : Json :=
  let s := m.settings
  .object [
    ("motion", m.motion.toJson),
    ("plane", s.plane.toJson),
    ("units", s.units.toJson),
    ("incremental", .bool s.incremental),
    ("inverse_feed", .bool s.inverseFeed),
    ("feed", .ofScalar s.feed),
    ("tool", .ofOption .ofNat s.tool),
    ("spindle", .bool s.spindle),
    ("spindle_direction", s.rotation.toJson),
    ("spindle_speed", .ofScalar s.spindleSpeed),
    ("coolant", s.coolant.toJson)]

/-- The names of a snapshot's fields, in order. -/
def fieldNames : List String :=
  ["motion", "plane", "units", "incremental", "inverse_feed", "feed", "tool", "spindle",
    "spindle_direction", "spindle_speed", "coolant"]

/-- A snapshot from data. -/
def ofJson? (v : Json) : Option (Snapshot α) := do
  let fs ← v.fields? fieldNames
  return {
    motion := ← fs.required "motion" Motion.ofJson?
    settings := {
      plane := ← fs.required "plane" Plane.ofJson?
      units := ← fs.required "units" Units.ofJson?
      incremental := ← fs.required "incremental" Json.asBool?
      inverseFeed := ← fs.required "inverse_feed" Json.asBool?
      feed := ← fs.required "feed" Json.asScalar?
      tool := ← fs.nullable "tool" (Json.asNat? 32)
      spindle := ← fs.required "spindle" Json.asBool?
      rotation := ← fs.required "spindle_direction" Rotation.ofJson?
      spindleSpeed := ← fs.required "spindle_speed" Json.asScalar?
      coolant := ← fs.required "coolant" Coolant.ofJson? } }

end Snapshot

namespace Geometry

/-- Whether a shape is an arc. -/
def isArc : Geometry α → Bool
  | .line => false
  | .arc .. => true

variable [Scalar α]

/-- A shape as data: its kind comes first. -/
def toJson : Geometry α → Json
  | .line => .object [("type", .string "line")]
  | .arc centre machineCentre clockwise plane =>
    .object [
      ("type", .string "arc"),
      ("center", .ofScalars centre),
      ("machine_center", .ofScalars machineCentre),
      ("clockwise", .bool clockwise),
      ("plane", plane.toJson)]

/-- An arc from the data that accompanies its kind. -/
def arcOfJson? (v : Json) : Option (Geometry α) := do
  let fs ← v.fields? ["center", "machine_center", "clockwise", "plane"]
  let vector := Json.asList? Json.asScalar?
  return .arc (← fs.required "center" vector) (← fs.required "machine_center" vector)
    (← fs.required "clockwise" Json.asBool?) (← fs.required "plane" Plane.ofKeptJson?)

/-- A straight line from the data that accompanies its kind: members of an object are
ignored, and a list has to be empty. -/
def lineOfJson? : Json → Option (Geometry α)
  | .list (_ :: _) => none
  | _ => some .line

/-- A shape of a kind from the data that accompanies it. -/
def ofKind? (kind : String) (v : Json) : Option (Geometry α) :=
  if kind = "line" then lineOfJson? v
  else if kind = "arc" then arcOfJson? v
  else none

/-- A shape from data that can be kept whole: the kind is a member of an object or the first
item of a list, and the other members or items accompany it. -/
def ofKeptJson? : Json → Option (Geometry α)
  | .object members => do
    let kind ← (← Json.member? "type" members).bind Json.asString?
    ofKind? kind (.object (members.filter (·.1 ≠ "type")))
  | .list (kind :: items) => do ofKind? (← kind.asString?) (.list items)
  | _ => none

/-- A shape from data that may be nested so deep. It is kept whole until its kind is known. -/
def ofJsonWithin? (depth : Nat) (v : Json) : Option (Geometry α) :=
  if v.canKeep α depth then ofKeptJson? v else none

/-- A shape from data. -/
def ofJson? (v : Json) : Option (Geometry α) := ofJsonWithin? Json.maxDepth v

end Geometry

namespace Event

/-- Whether a move is an arc. -/
def isArc (e : Event α) : Bool := e.geometry.isArc

/-- Whether a move ran at the machine's own speed. -/
def isRapid (e : Event α) : Bool := e.modal.motion.isRapid

variable [Scalar α]

/-- The straight distance from start to end. -/
def chordLength (e : Event α) : α :=
  Scalar.norm (e.source.zipWith (fun a b => b - a) e.target)

/-- An event as data. -/
def toJson (e : Event α) : Json :=
  .object [
    ("line", .ofNat e.line),
    ("modal", e.modal.toJson),
    ("from", .ofScalars e.source),
    ("to", .ofScalars e.target),
    ("machine_from", .ofScalars e.machineSource),
    ("machine_to", .ofScalars e.machineTarget),
    ("geometry", e.geometry.toJson),
    ("time", .ofScalar e.time)]

/-- The names of an event's fields, in order. -/
def fieldNames : List String :=
  ["line", "modal", "from", "to", "machine_from", "machine_to", "geometry", "time"]

/-- An event from data. -/
def ofJson? (v : Json) : Option (Event α) := do
  let fs ← v.fields? fieldNames
  let vector := Json.asList? Json.asScalar?
  return {
    line := ← fs.required "line" (Json.asNat? 64)
    modal := ← fs.required "modal" Snapshot.ofJson?
    source := ← fs.required "from" vector
    target := ← fs.required "to" vector
    machineSource := ← fs.required "machine_from" vector
    machineTarget := ← fs.required "machine_to" vector
    geometry := ← fs.required "geometry" (Geometry.ofJsonWithin? (Json.maxDepth - 1))
    time := ← fs.required "time" Json.asScalar? }

end Event

namespace LineResult

/-- The result of a line as data. -/
def toJson [Scalar α] (r : LineResult α) : Json :=
  .object [
    ("is_motion", .bool r.isMotion),
    ("motion_code", .ofOption Motion.toJson r.motion),
    ("changed_coord_offsets", .bool r.changedFrame),
    ("time", .ofScalar r.time),
    ("events", .ofList Event.toJson r.events)]

end LineResult

end DryRun
