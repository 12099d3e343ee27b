import DryRun.Number.Decimal

/-!
# The arithmetic of a machine

Everything a machine measures (coordinates, feeds, times, angles) is a number of one type,
and the whole library is written over the class `Scalar` of such types. Two readings
matter. Double-precision numbers run the program; their addition rounds, a comparison with
a value that is no number is false, and the two zeros are equal without being the same.
Exact numbers are what geometry and kinematics are about. A statement proved for every
`Scalar` holds of both, and uses nothing but the order in which the operations are applied.

The class holds the operations that a number type has to bring along. Those that are
determined by the others (`max`, `min`, sums, constants) are functions of the class.
-/

namespace DryRun

/-- A type of numbers that machine coordinates, feeds and times can be measured in. -/
class Scalar (α : Type)
    extends Zero α, Add α, Sub α, Mul α, Div α, Neg α, LT α, LE α, BEq α where
  /-- Strict comparison is decided; a comparison with a value that is no number is false. -/
  decLt : DecidableLT α
  /-- Comparison is decided; a comparison with a value that is no number is false. -/
  decLe : DecidableLE α
  /-- Absolute value. -/
  abs : α → α
  /-- Square root. -/
  sqrt : α → α
  /-- Length of the vector with these two components. -/
  hypot : α → α → α
  /-- `atan2 y x` is the angle of the vector `(x, y)`, in radians. -/
  atan2 : α → α → α
  /-- A full turn, in radians. -/
  turn : α
  /-- A value that is no number. -/
  nan : α
  /-- Whether a value is a number, and not an infinite one. -/
  isFinite : α → Bool
  /-- Whether two values are the same entry of a list of values. -/
  same : α → α → Bool
  /-- The number nearest to a decimal. -/
  ofDecimal : Decimal → α
  /-- The shortest decimal that names a number among all others. -/
  numeral : Tie → α → Numeral
  /-- The nearest integer between two limits; a half goes away from zero. -/
  roundBetween : Int → Int → α → Int
  /-- The integer part, kept between two limits. -/
  truncBetween : Int → Int → α → Int

attribute [reducible, instance] Scalar.decLt Scalar.decLe

namespace Scalar

variable {α : Type} [Scalar α]

/-! ### Constants -/

/-- A whole number. -/
def ofNat (n : Nat) : α := ofDecimal (Decimal.ofNat n)

/-- One half. -/
def half : α := ofDecimal ⟨false, 5, -1⟩

/-- Seconds in a minute, which turns units per minute into units per second. -/
def sixty : α := ofNat 60

/-! ### Comparison -/

/-- Whether a value is no number: the only values that differ from themselves. -/
def isNaN (x : α) : Bool := !(x == x)

/-- The larger of two values; a value that is no number is passed over. -/
def max (a b : α) : α :=
  if isNaN a then b else if isNaN b then a else if a < b then b else a

/-- The smaller of two values; a value that is no number is passed over. -/
def min (a b : α) : α :=
  if isNaN a then b else if isNaN b then a else if b < a then b else a

/-! ### Lists of values -/

/-- The sum, added up from the left. -/
def sum (xs : List α) : α := xs.foldl (· + ·) 0

/-- The largest value, and zero if none is larger. -/
def maxOf (xs : List α) : α := xs.foldl max 0

/-- The Euclidean length of a vector. -/
def norm (xs : List α) : α := sqrt (sum (xs.map fun x => x * x))

/-! ### Text -/

/-- The text of a number in messages and reports. -/
def text (x : α) : String := String.ofList (numeral .up x).plain

/-- The number that a numeral names. -/
def ofNumeral : Numeral → α
  | .finite d => ofDecimal d
  | .infinite negative =>
    let big := ofDecimal ⟨false, 1, 0⟩ / 0
    if negative then -big else big
  | .nan => nan

end Scalar

end DryRun
