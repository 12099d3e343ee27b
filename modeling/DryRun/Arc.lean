import DryRun.Fault

/-!
# Arcs in a plane

The centre of an arc is given by its offsets from the start or by a radius. A radius leaves
two centres; its sign selects the one whose arc is longer than a semicircle. A radius too
short to span the chord is taken as half the chord, and noted. The radius of an arc is
measured from its start, and its swept angle from start to end in its sense of rotation;
an arc that ends where it starts is a full circle.
-/

namespace DryRun

/-- A point of a plane. -/
structure Point (α : Type) where
  x : α
  y : α
deriving DecidableEq

/-- How the centre of an arc was given. -/
inductive Centre (α : Type) where
  | offsets (i j : α)
  | radius (r : α)
deriving DecidableEq

/-- An arc in its plane. -/
structure PlaneArc (α : Type) where
  start : Point α
  finish : Point α
  centre : Point α
  clockwise : Bool
deriving DecidableEq

namespace PlaneArc

variable {α : Type} [Scalar α]

open Scalar

/-- Chords below this length count as no chord at all. -/
def shortestChord : α := ofDecimal ⟨false, 1, -12⟩

/-- Angles up to this size count as no turn at all. -/
def smallestSweep : α := ofDecimal ⟨false, 1, -9⟩

/-- The chord along the two axes of the plane. -/
def chordOf (start finish : Point α) : Point α := ⟨finish.x - start.x, finish.y - start.y⟩

/-- Four times the square of the distance from the chord to the centre. -/
def heightSquare (d : Point α) (r : α) : α := ofNat 4 * r * r - d.x * d.x - d.y * d.y

/-- Changes the sign of a value if told to. -/
def negateIf (b : Bool) (x : α) : α := if b then -x else x

/-- The point beside the middle of a chord, at right angles to it by `h` times its length, and
half of that on each side of it. -/
def besideMiddle (start d : Point α) (h : α) : Point α :=
  ⟨start.x + half * (d.x - d.y * h), start.y + half * (d.y + d.x * h)⟩

/-- The centre of an arc with a radius. The distance of the centre from the chord is taken
relative to half the chord and starts on the right of it; a counter-clockwise arc and a
negative radius each move the centre to the other side. -/
def radiusCentre (start finish : Point α) (r : α) (clockwise : Bool) (line : Nat) :
    Point α × List (Note α) :=
  let d := chordOf start finish
  let chord := hypot d.x d.y
  if chord < shortestChord then
    (start, [.degraded (.invalidParameter line "R" "radius arc with coincident endpoints")])
  else
    let square := heightSquare d r
    let short : Bool := square < 0
    let h := -sqrt (if short then 0 else square) / chord
    let h := negateIf (!clockwise) h
    let h := negateIf (r < 0) h
    (besideMiddle start d h,
      if short then [.degraded (.arcRadiusTooSmall line r chord)] else [])

/-- The arc from one point to another with a given centre; `line` is only named in notes. -/
def resolve (start finish : Point α) (centre : Centre α) (clockwise : Bool) (line : Nat) :
    PlaneArc α × List (Note α) :=
  match centre with
  | .offsets i j => (⟨start, finish, ⟨start.x + i, start.y + j⟩, clockwise⟩, [])
  | .radius r =>
    let c := radiusCentre start finish r clockwise line
    (⟨start, finish, c.1, clockwise⟩, c.2)

/-- The radius of an arc, measured at its start. -/
def radius (a : PlaneArc α) : α := hypot (a.start.x - a.centre.x) (a.start.y - a.centre.y)

/-- The direction of a point as seen from the centre. -/
def angleOf (a : PlaneArc α) (p : Point α) : α := atan2 (p.y - a.centre.y) (p.x - a.centre.x)

/-- The angle from start to finish in the sense of rotation, before it is made positive. -/
def rawSweep (a : PlaneArc α) : α :=
  if a.clockwise then a.angleOf a.start - a.angleOf a.finish
  else a.angleOf a.finish - a.angleOf a.start

/-- The swept angle: no turn at all means a full one, and no arc is longer than that. -/
def sweep (a : PlaneArc α) : α :=
  Scalar.min (if a.rawSweep ≤ smallestSweep then a.rawSweep + turn else a.rawSweep) turn

/-- The length of the path, with the distance travelled along the normal of the plane. -/
def length (a : PlaneArc α) (helical : α) : α := hypot (a.radius * a.sweep) helical

end PlaneArc

end DryRun
