import DryRun.Number.Scalar

/-!
# Double-precision numbers

The numbers that the program runs on. A finite double is a sign and a magnitude `m · 2 ^ q`,
and all that needs more than one rounding is computed from that pair in exact natural
numbers: the nearest and the next integer, a decimal with a fixed number of places, the
length of a vector, and the shortest decimal.

The shortest decimal of a double is found on the grids of multiples of `10 ^ k`, from the
coarsest down. The numbers that round to the double form an interval around it, whose ends
belong to it exactly when `m` is even. If any point of a grid lies in that interval, then so
does one of the two points next to the double, so only those are tried; the first grid with
a hit gives the fewest digits, and of two hits the nearer one is taken.
-/

namespace DryRun

open Float.Model (UnpackedFloat Format)

namespace Double

/-! ### Rounded quotients -/

/-- The quotient rounded to the nearest natural number; `tie` settles a half. -/
def roundDiv (num den : Nat) (tie : Tie) : Nat :=
  let q := num / den
  let r := num % den
  match compare (2 * r) den with
  | .lt => q
  | .gt => q + 1
  | .eq => match tie with
    | .up => q + 1
    | .even => q + q % 2

/-- `n · 2 ^ e` as a fraction of natural numbers. -/
def binaryRatio (n : Nat) (e : Int) : Nat × Nat :=
  if 0 ≤ e then (n * Nat.pow 2 e.toNat, 1) else (n, Nat.pow 2 (-e).toNat)

/-- A fraction divided by `10 ^ k`. -/
def overPowerOfTen (r : Nat × Nat) (k : Int) : Nat × Nat :=
  if 0 ≤ k then (r.1, r.2 * Nat.pow 10 k.toNat) else (r.1 * Nat.pow 10 (-k).toNat, r.2)

/-! ### Shortest decimals -/

/-- The numbers that round to a double of magnitude `m · 2 ^ q`, in quarters of `2 ^ q`: the
double, the ends of the interval, and whether the ends belong to it. Below a power of two
the doubles stand twice as close, so the lower end is nearer there. -/
structure Interval where
  low : Nat
  mid : Nat
  high : Nat
  closed : Bool

/-- The interval of the double of magnitude `m · 2 ^ q`. -/
def interval (m : Nat) (q : Int) : Interval where
  low := if m = Nat.pow 2 52 ∧ -1074 < q then 4 * m - 1 else 4 * m - 2
  mid := 4 * m
  high := 4 * m + 2
  closed := m % 2 = 0

/-- The point that the grid of multiples of `num / den` has in the interval: `low`, `mid`,
`high` are multiplied by `num`, a multiple `c` of the grid by `den`. -/
def Interval.gridPoint? (i : Interval) (num den : Nat) (tie : Tie) : Option Nat :=
  let inside (c : Nat) : Bool :=
    if i.closed then i.low * num ≤ c * den ∧ c * den ≤ i.high * num
    else i.low * num < c * den ∧ c * den < i.high * num
  let c := i.mid * num / den
  match inside c, inside (c + 1) with
  | true, true => some (roundDiv (i.mid * num) den tie)
  | true, false => some c
  | false, true => some (c + 1)
  | false, false => none

/-- Tries the grids of multiples of `10 ^ k`, `10 ^ (k - 1)`, …; the fuel bounds how many. -/
def searchGrids (i : Interval) (q : Int) (tie : Tie) : Nat → Int → Nat × Int
  | 0, k => (i.mid, k)
  | fuel + 1, k =>
    let (num, den) := overPowerOfTen (binaryRatio 1 (q - 2)) k
    match i.gridPoint? num den tie with
    | some c => (c, k)
    | none => searchGrids i q tie fuel (k - 1)

/-- The shortest decimal that names the double of magnitude `m · 2 ^ q`. The search starts
above the magnitude, estimated by `log₁₀ 2 ≈ 0.30103`, and seventeen digits always suffice. -/
def shortest (negative : Bool) (m : Nat) (q : Int) (tie : Tie) : Decimal :=
  let top := (m.log2 + 1 + q) * 30103 / 100000 + 2
  let (c, k) := searchGrids (interval m q) q tie 22 top
  Decimal.normalize ⟨negative, c, k⟩

/-- Whether a double has a minus sign. -/
def isNegative (s : Float.Model.UnpackedFloat.Sign) : Bool :=
  match s with
  | .negative => true
  | .positive => false

/-- The shortest decimal that names a double. -/
def numeral (tie : Tie) (x : Float) : Numeral :=
  match x.toModel.unpack with
  | .notANumber => .nan
  | .infinity s => .infinite (isNegative s)
  | .zero s => .finite ⟨isNegative s, 0, 0⟩
  | .finite s m q _ => .finite (shortest (isNegative s) m q tie)

/-- The double nearest to a decimal. -/
def ofDecimal (d : Decimal) : Float :=
  let x := Float.ofScientific d.significand (d.exponent < 0) d.exponent.natAbs
  if d.negative then -x else x

/-! ### Rounding to integers and to decimal places -/

/-- Keeps an integer between two limits. -/
def clamp (lo hi n : Int) : Int := if n < lo then lo else if hi < n then hi else n

/-- Turns a double into an integer between two limits: `f` rounds the magnitude, given as a
fraction, an infinity becomes the limit on its side, and no number becomes zero. -/
def toIntBetween (f : Nat → Nat → Nat) (lo hi : Int) (x : Float) : Int :=
  match x.toModel.unpack with
  | .notANumber => clamp lo hi 0
  | .infinity s => if isNegative s then lo else hi
  | .zero _ => clamp lo hi 0
  | .finite s m q _ =>
    let (num, den) := binaryRatio m q
    let n : Int := f num den
    clamp lo hi (if isNegative s then -n else n)

/-- The exact value rounded to a decimal with `places` digits after the point; a half goes
to the even neighbour, and the sign is kept. -/
def toPlaces (places : Nat) (x : Float) : Numeral :=
  match x.toModel.unpack with
  | .notANumber => .nan
  | .infinity s => .infinite (isNegative s)
  | .zero s => .finite ⟨isNegative s, 0, -places⟩
  | .finite s m q _ =>
    let (num, den) := overPowerOfTen (binaryRatio m q) (-places)
    .finite ⟨isNegative s, roundDiv num den .even, -places⟩

/-- The text of a double with a fixed number of decimal places. -/
def fixed (places : Nat) (x : Float) : String := String.ofList (toPlaces places x).plain

/-! ### Length of a vector -/

/-- The magnitude of a finite double as `m · 2 ^ q`. -/
def magnitude? (x : Float) : Option (Nat × Int) :=
  match x.toModel.unpack with
  | .finite _ m q _ => some (m, q)
  | .zero _ => some (0, 0)
  | _ => none

/-- The double nearest to `√(m · 2 ^ q)`. -/
def sqrtExact (m : Nat) (q : Int) : Float :=
  if h : 0 < m then
    .ofModel (.pack (UnpackedFloat.sqrt Format.binary64 (.finite .positive m q h)))
  else 0

/-- The double nearest to `√(x² + y²)`: the squares are added exactly and rounded once, so
that neither a large nor a small component is lost. An infinite component makes it infinite. -/
def hypot (x y : Float) : Float :=
  if x.isInf || y.isInf then 1.0 / 0.0
  else match magnitude? x, magnitude? y with
    | some (m, p), some (n, q) =>
      let e := Min.min p q
      sqrtExact (m * m * Nat.pow 4 (p - e).toNat + n * n * Nat.pow 4 (q - e).toNat) (2 * e)
    | _, _ => 0.0 / 0.0

end Double

/-- Double-precision numbers measure a machine. -/
instance : Scalar Float where
  zero := 0.0
  decLt := Float.decLt
  decLe := Float.decLe
  abs := Float.abs
  sqrt := Float.sqrt
  hypot := Double.hypot
  atan2 := Float.atan2
  turn := 6.283185307179586
  nan := 0.0 / 0.0
  isFinite := Float.isFinite
  same x y := x == y || x.toBits == y.toBits
  ofDecimal := Double.ofDecimal
  numeral := Double.numeral
  roundBetween := Double.toIntBetween fun num den => Double.roundDiv num den .up
  truncBetween := Double.toIntBetween fun num den => num / den

end DryRun
