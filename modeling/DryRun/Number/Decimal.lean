/-!
# Decimal numerals

A `Decimal` is a sign, a significand and a power of ten; a `Numeral` is what the text of a
measured number can stand for: a decimal, one of the two infinities, or no number at all.
This module fixes the two layouts in which a decimal is written and the pieces from which
one is read back:

* `Decimal.plain` is the layout of messages and reports: positional, never an exponent, and
  no fraction unless the digits need one;
* `Decimal.json` is the layout of data files: positional with a fraction while the leading
  digit stands between the fifth place after the point and the sixteenth before it, and
  scientific beyond that;
* `Decimal.ofDigits` puts a sign, the digits before the point and the digits after it
  together, and `Decimal.scan` reads such a number, with an optional exponent, off the
  front of a text.
-/

namespace DryRun

/-- The decimal number `± significand · 10 ^ exponent`. -/
structure Decimal where
  negative : Bool
  significand : Nat
  exponent : Int
deriving DecidableEq

/-- The value that a number's text names. -/
inductive Numeral where
  | finite (d : Decimal)
  | infinite (negative : Bool)
  | nan
deriving DecidableEq

/-- Where a number half way between two decimals of the wanted length goes. -/
inductive Tie where
  | up
  | even
deriving DecidableEq

namespace Decimal

/-! ### Digits -/

/-- The decimal digits of a natural number, most significant first. -/
def digits (n : Nat) : List Char := Nat.toDigits 10 n

/-- Takes the trailing zeros of a significand into the exponent. The fuel bounds how many. -/
def dropZeros : Nat → Nat → Int → Nat × Int
  | 0, n, e => (n, e)
  | fuel + 1, n, e => if n % 10 = 0 ∧ n ≠ 0 then dropZeros fuel (n / 10) (e + 1) else (n, e)

/-- The same value with no trailing zero in the significand; zero has exponent zero. -/
def normalize (d : Decimal) : Decimal :=
  if d.significand = 0 then { d with exponent := 0 }
  else
    let r := dropZeros d.significand.log2 d.significand d.exponent
    { d with significand := r.1, exponent := r.2 }

/-! ### Writing -/

/-- The minus sign of a negative number. -/
def signText (negative : Bool) : List Char := if negative then ['-'] else []

/-- Splits digits so that the last `places` of them follow the point, with zeros in front
where there are too few of them; at least one digit stands before the point. -/
def pointed (ds : List Char) (places : Nat) : List Char :=
  let padded := List.replicate (places + 1 - ds.length) '0' ++ ds
  let whole := padded.length - places
  padded.take whole ++ '.' :: padded.drop whole

/-- The positional layout without an exponent: digits and zeros for a whole number, digits
around a point otherwise. -/
def plain (d : Decimal) : List Char :=
  let ds := digits d.significand
  signText d.negative ++
    if 0 ≤ d.exponent then ds ++ List.replicate d.exponent.toNat '0'
    else pointed ds (-d.exponent).toNat

/-- The power of ten of the leading digit. -/
def magnitude (d : Decimal) : Int := (digits d.significand).length - 1 + d.exponent

/-- The exponent of the scientific layout: its sign is always written. -/
def exponentText (e : Int) : List Char :=
  'e' :: (if e < 0 then '-' else '+') :: digits e.natAbs

/-- The layout of data files: a number is positional, with a fraction, while its magnitude
is at least `-5` and below `16`, and scientific otherwise. -/
def json (d : Decimal) : List Char :=
  let ds := digits d.significand
  signText d.negative ++
    if -5 ≤ d.magnitude ∧ d.magnitude < 16 then
      if 0 ≤ d.exponent then ds ++ List.replicate d.exponent.toNat '0' ++ ['.', '0']
      else pointed ds (-d.exponent).toNat
    else
      ds.take 1 ++ (if ds.length ≤ 1 then [] else '.' :: ds.drop 1) ++ exponentText d.magnitude

/-! ### Reading -/

/-- The decimal with these digits before and after its point. -/
def ofDigits (negative : Bool) (whole fraction : List Char) : Decimal :=
  ⟨negative, Nat.ofDigitChars 10 (whole ++ fraction) 0, -(fraction.length : Int)⟩

/-- A natural number as a decimal. -/
def ofNat (n : Nat) : Decimal := ⟨false, n, 0⟩

/-- An integer as a decimal. -/
def ofInt (n : Int) : Decimal := ⟨n < 0, n.natAbs, 0⟩

/-- Multiplies by a power of ten. -/
def shift (d : Decimal) (e : Int) : Decimal := { d with exponent := d.exponent + e }

/-- An optional sign at the front of a text: whether it is a minus, and what follows. -/
def scanSign : List Char → Bool × List Char
  | '-' :: cs => (true, cs)
  | '+' :: cs => (false, cs)
  | cs => (false, cs)

/-- The longest run of digits at the front of a text, and what follows it. -/
def scanDigits (cs : List Char) : List Char × List Char :=
  (cs.takeWhile Char.isDigit, cs.dropWhile Char.isDigit)

/-- An optional exponent, `e` or `E` with an optional sign and at least one digit. A text
that starts otherwise has exponent zero; an `e` without digits is no exponent at all. -/
def scanExponent : List Char → Option (Int × List Char)
  | c :: cs =>
    if c = 'e' ∨ c = 'E' then
      let (negative, rest) := scanSign cs
      let (ds, rest) := scanDigits rest
      if ds = [] then none
      else
        let n := Nat.ofDigitChars 10 ds 0
        some (if negative then -(n : Int) else n, rest)
    else some (0, c :: cs)
  | [] => some (0, [])

/-- A decimal at the front of a text: digits with an optional point and further digits, or a
point with digits after it, then an optional exponent. -/
def scan (negative : Bool) (cs : List Char) : Option (Decimal × List Char) :=
  let (whole, rest) := scanDigits cs
  let (fraction, rest) := match rest with
    | '.' :: rest => scanDigits rest
    | rest => ([], rest)
  if whole = [] ∧ fraction = [] then none
  else do
    let (e, rest) ← scanExponent rest
    return ((ofDigits negative whole fraction).shift e, rest)

/-- Reads a whole text as a decimal. -/
def ofText? (cs : List Char) : Option Decimal :=
  let (negative, rest) := scanSign cs
  match scan negative rest with
  | some (d, []) => some d
  | _ => none

end Decimal

namespace Numeral

/-- The text of a number in messages and reports. -/
def plain : Numeral → List Char
  | .finite d => d.plain
  | .infinite negative => Decimal.signText negative ++ ['i', 'n', 'f']
  | .nan => ['N', 'a', 'N']

/-- Reads a number, an infinity or `nan`, the latter two in any letter case. -/
def ofText? (cs : List Char) : Option Numeral :=
  let (negative, rest) := Decimal.scanSign cs
  let name := String.ofList (rest.map Char.toLower)
  if name = "inf" ∨ name = "infinity" then some (.infinite negative)
  else if name = "nan" then some .nan
  else (Decimal.ofText? cs).map .finite

end Numeral

end DryRun
