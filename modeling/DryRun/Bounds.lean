import DryRun.Json.Decode

/-!
# Bounds of a motion

For every axis the least and the greatest coordinate that a motion reached on it. An axis
that no motion has touched has none.
-/

namespace DryRun

/-- The least and the greatest coordinate of each axis, where one was observed. -/
structure Bounds (α : Type) where
  min : List (Option α)
  max : List (Option α)
deriving DecidableEq

namespace Bounds

variable {α : Type}

/-- Bounds of `n` axes on which nothing was observed. -/
def empty (n : Nat) : Bounds α := ⟨List.replicate n none, List.replicate n none⟩

/-- Whether nothing was observed on any axis. -/
def isEmpty (b : Bounds α) : Bool := b.min.all Option.isNone

variable [Scalar α]

/-- The lower bound after a value was observed. -/
def lower (bound : Option α) (value : α) : Option α :=
  match bound with
  | none => some value
  | some m => if value < m then some value else some m

/-- The upper bound after a value was observed. -/
def upper (bound : Option α) (value : α) : Option α :=
  match bound with
  | none => some value
  | some m => if m < value then some value else some m

/-- Observes the listed values on each axis, in order. -/
def observe (b : Bounds α) (values : Nat → List α) : Bounds α where
  min := b.min.mapIdx fun axis bound => (values axis).foldl lower bound
  max := b.max.mapIdx fun axis bound => (values axis).foldl upper bound

/-- Observes one value on one axis. -/
def widen (b : Bounds α) (axis : Nat) (value : α) : Bounds α :=
  b.observe fun i => if i = axis then [value] else []

/-- Bounds as data. -/
def toJson (b : Bounds α) : Json :=
  .object [("min", .ofList (.ofOption .ofScalar) b.min),
    ("max", .ofList (.ofOption .ofScalar) b.max)]

/-- Bounds from data. -/
def ofJson? (v : Json) : Option (Bounds α) := do
  let fs ← v.fields? ["min", "max"]
  let side := Json.asList? (Json.asOption? Json.asScalar?)
  return ⟨← fs.required "min" side, ← fs.required "max" side⟩

end Bounds

end DryRun
