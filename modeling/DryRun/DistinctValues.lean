import DryRun.Json

/-!
# Distinct values

The feed rates and spindle speeds of a program are listed once each, in the order in which
they first occur. The two zeros are one value.
-/

namespace DryRun

/-- Different values in the order in which they were first seen. -/
structure DistinctValues (α : Type) where
  values : List α
deriving DecidableEq

namespace DistinctValues

variable {α : Type}

/-- No values. -/
def empty : DistinctValues α := ⟨[]⟩

/-- Whether there are no values. -/
def isEmpty (d : DistinctValues α) : Bool := d.values.isEmpty

/-- How many values there are. -/
def length (d : DistinctValues α) : Nat := d.values.length

variable [Scalar α]

/-- Whether a value is not yet listed. -/
def isNew (d : DistinctValues α) (x : α) : Bool := !d.values.any (Scalar.same · x)

/-- Lists a value, unless it is listed already. -/
def insert (d : DistinctValues α) (x : α) : DistinctValues α :=
  if d.isNew x then ⟨d.values ++ [x]⟩ else d

/-- Whether a number equal to this one is listed. -/
def contains (d : DistinctValues α) (x : α) : Bool := d.values.any (· == x)

/-- The values as data. -/
def toJson (d : DistinctValues α) : Json := .ofScalars d.values

end DistinctValues

end DryRun
