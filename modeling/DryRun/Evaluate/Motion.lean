import DryRun.Arc
import DryRun.Evaluate.Action
import DryRun.Move

/-!
# Motions of a line

A line without another action moves the machine if it names an axis, or if it gives the
centre of an arc. It performs the motion that it selects, or else the one that is in force.
Rapid and feed moves are straight; an arc is a move to its end point with the arc as its
shape; a return to a reference position passes through the point that the line names, if it
names one. A motion that is not supported is skipped, and the state stays as it was.

What a line cannot mean literally is read in the nearest way and noted: a feed move without a
feed rate is timed as a rapid, and an arc without a plane or a centre is a straight line.
-/

namespace DryRun

variable {α : Type}

/-! ### Which motion a line performs -/

/-- The motion that a line with these `G` codes selects. -/
def selectedMotion? (codes : List Int) : Option Motion := codes.findSome? Motion.ofCode?

/-- The return to a reference position that a line with these `G` codes asks for. -/
def returnMotion? (codes : List Int) : Option Motion :=
  if codes.contains 280 then some .home
  else if codes.contains 300 then some .secondaryHome
  else none

/-- The motion in force after a line with these `G` codes. A return to a reference position
leaves it as it was. -/
def motionInForce (current : Option Motion) (codes : List Int) : Option Motion :=
  if (returnMotion? codes).isSome then current else (selectedMotion? codes).or current

variable [Scalar α]

/-- Whether a line gives an offset of an arc's centre. -/
def hasCentre (b : Block α) : Bool := b.has 'I' || b.has 'J' || b.has 'K'

/-- Whether any axis is named. -/
def anyNamed (words : List (Option α)) : Bool := words.any Option.isSome

/-- The motion that a line performs, given the one in force. -/
def lineMotion? (inForce : Option Motion) (codes : List Int) (b : Block α)
    (words : List (Option α)) : Option Motion :=
  (returnMotion? codes).or
    (inForce.filter fun m => anyNamed words || (m.isArc && hasCentre b))

/-- What there is to note about a line that performs no motion: a radius without an end point
is ignored. -/
def idleNotes (line : Nat) (inForce : Option Motion) (codes : List Int) (b : Block α) :
    List (Note α) :=
  if inForce.isSome && (selectedMotion? codes).isNone && b.has 'R' then [.radiusIgnored line]
  else []

/-! ### Carrying out a motion -/

/-- The state after a motion, its events in order, and its notes. -/
structure Performed (α : Type) where
  state : State α
  events : List (Event α)
  notes : List (Note α)

namespace State

/-- Targets in work coordinates for the named axes. Words count from the work origin, from the
current position in incremental mode, or from the machine origin if the line says so. -/
def targets (s : State α) (machineFrame : Bool) (words : List (Option α)) : List (Option α) :=
  if machineFrame then s.machineWordsToWork words
  else words.zipWith
    (fun word here => word.map fun v => if s.settings.incremental then here + v else v) s.work

/-- The programmed feed of a feed move, if there is one. -/
def feed? (s : State α) : Option α := if 0 < s.settings.feed then some s.settings.feed else none

/-- The note about a feed move without a feed rate. -/
def feedNotes (s : State α) : List (Note α) :=
  if 0 < s.settings.feed then [] else [.missingFeed s.catalogue.lines]

/-- Carries out a straight move. -/
def straight (c : Config α) (s : State α) (motion : Motion) (targets : List (Option α))
    (feed : Option α) (notes : List (Note α)) : Performed α :=
  let r := s.perform c motion targets feed none .line
  ⟨r.1, [r.2], notes⟩

/-! ### Arcs -/

/-- The centre that a line gives for an arc in a plane. -/
def centre? (plane : Plane) (b : Block α) : Option (Centre α) :=
  if b.has plane.firstOffset || b.has plane.secondOffset then
    some (.offsets (b.getD plane.firstOffset 0) (b.getD plane.secondOffset 0))
  else (b.get? 'R').map .radius

/-- The coordinate of an axis. -/
def coordinate (position : List α) (axis : Nat) : α := (position[axis]?).getD 0

/-- The arc that a line describes between the current position and its end point. -/
def planeArc (s : State α) (first second : Nat) (finish : List α) (centre : Centre α)
    (clockwise : Bool) : PlaneArc α × List (Note α) :=
  PlaneArc.resolve ⟨coordinate s.work first, coordinate s.work second⟩
    ⟨coordinate finish first, coordinate finish second⟩ centre clockwise s.catalogue.lines

/-- The centre of an arc as a work position: the other axes keep their start. -/
def centrePosition (s : State α) (first second : Nat) (centre : Point α) : List α :=
  (s.work.set first centre.x).set second centre.y

/-- The distance that an arc travels along the normal of its plane. -/
def helicalTravel (s : State α) (normal : Option Nat) (finish : List α) : α :=
  match normal with
  | some axis => coordinate finish axis - coordinate s.work axis
  | none => 0

/-- Carries out an arc whose plane and centre are known. -/
def arcWith (c : Config α) (s : State α) (motion : Motion) (targets : List (Option α))
    (first second : Nat) (centre : Centre α) : Performed α :=
  let finish := s.destination targets
  let arc := s.planeArc first second finish centre (motion = .arcClockwise)
  let position := s.centrePosition first second arc.1.centre
  let normal := s.axisIndex? s.settings.plane.normal
  let travel :=
    if c.arcLengthTravel then some (arc.1.length (s.helicalTravel normal finish)) else none
  let r := s.perform c motion targets s.feed? travel
    (.arc position (s.frame.toMachine position) arc.1.clockwise s.settings.plane)
  ⟨r.1, [r.2], s.feedNotes ++ arc.2⟩

/-- The note about an arc without a centre. -/
def noCentre (s : State α) (motion : Motion) : Note α :=
  .degraded (.invalidParameter s.catalogue.lines motion.text
    "arc without centre offsets or radius")

/-- The note about an arc in a plane that lacks an axis. -/
def noAxis (s : State α) (axis : Char) : Note α :=
  .degraded (.unknownAxis s.catalogue.lines axis)

/-- Carries out an arc. Without its plane's axes or without a centre it is a straight move. -/
def arc (c : Config α) (s : State α) (b : Block α) (motion : Motion)
    (targets : List (Option α)) : Performed α :=
  let plane := s.settings.plane
  match s.axisIndex? plane.first, s.axisIndex? plane.second with
  | some first, some second =>
    match centre? plane b with
    | some centre => s.arcWith c motion targets first second centre
    | none => s.straight c motion targets s.feed? (s.feedNotes ++ [s.noCentre motion])
  | none, _ => s.straight c motion targets s.feed? (s.feedNotes ++ [s.noAxis plane.first])
  | some _, none => s.straight c motion targets s.feed? (s.feedNotes ++ [s.noAxis plane.second])

/-! ### Returns to a reference position -/

/-- Moves all axes to a reference position, which is given in machine coordinates. -/
def goToReference (c : Config α) (s : State α) (motion : Motion) (reference : List α) :
    State α × Event α :=
  s.perform c motion ((s.frame.toWork reference).map some) none none .line

/-- Carries out a return to a reference position, through the named point if there is one. -/
def goHome (c : Config α) (s : State α) (motion : Motion) (targets : List (Option α))
    (reference : List α) : Performed α :=
  if anyNamed targets then
    let via := s.perform c motion targets none none .line
    let last := via.1.goToReference c motion reference
    ⟨last.1, [via.2, last.2], []⟩
  else
    let last := s.goToReference c motion reference
    ⟨last.1, [last.2], []⟩

/-! ### Any motion -/

/-- Carries out a motion that a line performs; nothing is given back for one that is not
supported. -/
def runMotion? (c : Config α) (s : State α) (b : Block α) (motion : Motion)
    (targets : List (Option α)) : Option (Performed α) :=
  match motion with
  | .rapid => some (s.straight c motion targets none [])
  | .linear => some (s.straight c motion targets s.feed? s.feedNotes)
  | .arcClockwise | .arcCounterclockwise => some (s.arc c b motion targets)
  | .home => some (s.goHome c motion targets s.home)
  | .secondaryHome => some (s.goHome c motion targets s.secondaryHome)
  | .unsupported _ => none

end State

end DryRun
