import DryRun.Json

/-!
# Reading JSON

The reader goes through the text once, from the left, and gives the value at the front of
it with what follows. It is strict: there are no comments, no trailing commas and no numbers
with a leading zero or a bare point, and a control character inside a text has to be escaped.
Nothing but blanks may follow the value.

A text is read in two steps: first its units, each a character or an escaped code unit, and
then the characters that they stand for. The second step fails where an escaped surrogate is
not one of a pair, and then the value is `broken`, because the end of the text is known.

Every step of the reader takes at least one character, so the length of the text bounds
their number. It is the fuel that the mutually recursive readers run on.
-/

namespace DryRun.Json

/-- The blanks of JSON. -/
def isBlank (c : Char) : Bool := c = ' ' || c = '\n' || c = '\r' || c = '\t'

/-- A text without the blanks at its front. -/
def skipBlanks (cs : List Char) : List Char := cs.dropWhile isBlank

/-! ### Numbers -/

/-- The digits after a point, or none where there is no point. A point has digits. -/
def readFraction : List Char → Option (List Char × List Char)
  | '.' :: cs =>
    if (Decimal.scanDigits cs).1 = [] then none else some (Decimal.scanDigits cs)
  | cs => some ([], cs)

/-- The digits before a point: they do not start with a zero unless it is the only one. -/
def readWhole (cs : List Char) : Option (List Char × List Char) :=
  match Decimal.scanDigits cs with
  | ([], _) => none
  | ('0' :: _ :: _, _) => none
  | r => some r

/-- The sign in front of a number. -/
def readMinus : List Char → Bool × List Char
  | '-' :: cs => (true, cs)
  | cs => (false, cs)

/-- Whether a text starts like an exponent. -/
def startsExponent : List Char → Bool
  | c :: _ => c = 'e' || c = 'E'
  | [] => false

/-- A number at the front of a text. It is an integer if it has neither a point nor an
exponent; a negative zero is kept apart from zero, and so is no integer. -/
def readNumber (cs : List Char) : Option (Number × List Char) := do
  let (negative, rest) := readMinus cs
  let (whole, rest) ← readWhole rest
  let (fraction, rest') ← readFraction rest
  let (e, rest'') ← Decimal.scanExponent rest'
  let d := (Decimal.ofDigits negative whole fraction).shift e
  if fraction = [] ∧ startsExponent rest' = false ∧
      ¬(negative = true ∧ d.significand = 0) then
    return (.integer (if negative then -(d.significand : Int) else d.significand), rest'')
  else return (.decimal d, rest'')

/-! ### Texts -/

/-- The value of a hexadecimal digit. -/
def hexValue? (c : Char) : Option Nat :=
  if '0' ≤ c ∧ c ≤ '9' then some (c.toNat - '0'.toNat)
  else if 'a' ≤ c ∧ c ≤ 'f' then some (c.toNat - 'a'.toNat + 10)
  else if 'A' ≤ c ∧ c ≤ 'F' then some (c.toNat - 'A'.toNat + 10)
  else none

/-- Four hexadecimal digits at the front of a text. -/
def readHex : List Char → Option (Nat × List Char)
  | a :: b :: c :: d :: cs => do
    let a ← hexValue? a
    let b ← hexValue? b
    let c ← hexValue? c
    let d ← hexValue? d
    return (((a * 16 + b) * 16 + c) * 16 + d, cs)
  | _ => none

/-- A piece of a text: a character, or a code unit that is given by its number. -/
inductive TextUnit where
  | char (c : Char)
  | code (n : Nat)
deriving DecidableEq

/-- The unit that an escape stands for, after its backslash. -/
def readEscape : List Char → Option (TextUnit × List Char)
  | '"' :: cs => some (.char '"', cs)
  | '\\' :: cs => some (.char '\\', cs)
  | '/' :: cs => some (.char '/', cs)
  | 'b' :: cs => some (.char '\x08', cs)
  | 'f' :: cs => some (.char '\x0c', cs)
  | 'n' :: cs => some (.char '\n', cs)
  | 'r' :: cs => some (.char '\r', cs)
  | 't' :: cs => some (.char '\t', cs)
  | 'u' :: cs => (readHex cs).map fun (n, rest) => (.code n, rest)
  | _ => none

/-- The units of a text up to its closing quote. -/
def readUnits : Nat → List Char → Option (List TextUnit × List Char)
  | 0, _ => none
  | _ + 1, [] => none
  | fuel + 1, c :: cs =>
    if c = '"' then some ([], cs)
    else if c = '\\' then do
      let (u, rest) ← readEscape cs
      let (us, rest) ← readUnits fuel rest
      return (u :: us, rest)
    else if c.toNat < 0x20 then none
    else do
      let (us, rest) ← readUnits fuel cs
      return (.char c :: us, rest)

/-- Whether a code unit is the first half of a surrogate pair. -/
def isHighSurrogate (n : Nat) : Bool := 0xD800 ≤ n && n < 0xDC00

/-- Whether a code unit is the second half of a surrogate pair. -/
def isLowSurrogate (n : Nat) : Bool := 0xDC00 ≤ n && n < 0xE000

/-- The character that a surrogate pair stands for. -/
def ofSurrogates (high low : Nat) : Char :=
  Char.ofNat (0x10000 + (high - 0xD800) * 0x400 + (low - 0xDC00))

/-- The characters that some units stand for, unless half a surrogate pair is missing. -/
def charsOfUnits? : List TextUnit → Option (List Char)
  | [] => some []
  | .char c :: us => (charsOfUnits? us).map (c :: ·)
  | .code n :: .code m :: us =>
    if isHighSurrogate n then
      if isLowSurrogate m then (charsOfUnits? us).map (ofSurrogates n m :: ·) else none
    else if isLowSurrogate n then none
    else (charsOfUnits? (.code m :: us)).map (Char.ofNat n :: ·)
  | .code n :: us =>
    if isHighSurrogate n || isLowSurrogate n then none
    else (charsOfUnits? us).map (Char.ofNat n :: ·)

/-- The text that some units stand for. -/
def stringOfUnits? (us : List TextUnit) : Option String := (charsOfUnits? us).map String.ofList

/-- The value that a text is. -/
def ofUnits (us : List TextUnit) : Json :=
  match stringOfUnits? us with
  | some s => .string s
  | none => .broken

/-- The object with some members, each under its name if the name can be read. -/
def ofMembers (members : List (Option String × Json)) : Json :=
  match members.mapM fun (name, v) => name.map (·, v) with
  | some members => .object members
  | none => .broken

/-! ### Values -/

mutual

/-- The value at the front of a text, after blanks. -/
def readValue : Nat → List Char → Option (Json × List Char)
  | 0, _ => none
  | fuel + 1, cs =>
    match skipBlanks cs with
    | 'n' :: 'u' :: 'l' :: 'l' :: rest => some (.null, rest)
    | 't' :: 'r' :: 'u' :: 'e' :: rest => some (.bool true, rest)
    | 'f' :: 'a' :: 'l' :: 's' :: 'e' :: rest => some (.bool false, rest)
    | '"' :: rest => do
      let (us, rest) ← readUnits fuel rest
      return (ofUnits us, rest)
    | '[' :: rest =>
      match skipBlanks rest with
      | ']' :: rest => some (.list [], rest)
      | rest => do
        let (items, rest) ← readItems fuel rest
        return (.list items, rest)
    | '\x7b' :: rest =>
      match skipBlanks rest with
      | '\x7d' :: rest => some (.object [], rest)
      | rest => do
        let (members, rest) ← readMembers fuel rest
        return (ofMembers members, rest)
    | rest => do
      let (n, rest) ← readNumber rest
      return (.number n, rest)

/-- The items of a list, of which there is at least one, and its end. -/
def readItems : Nat → List Char → Option (List Json × List Char)
  | 0, _ => none
  | fuel + 1, cs => do
    let (v, rest) ← readValue fuel cs
    match skipBlanks rest with
    | ',' :: rest => do
      let (vs, rest) ← readItems fuel rest
      return (v :: vs, rest)
    | ']' :: rest => some ([v], rest)
    | _ => none

/-- The members of an object, of which there is at least one, and its end. -/
def readMembers : Nat → List Char → Option (List (Option String × Json) × List Char)
  | 0, _ => none
  | fuel + 1, cs =>
    match skipBlanks cs with
    | '"' :: rest => do
      let (us, rest) ← readUnits fuel rest
      match skipBlanks rest with
      | ':' :: rest => do
        let (v, rest) ← readValue fuel rest
        match skipBlanks rest with
        | ',' :: rest => do
          let (ms, rest) ← readMembers fuel rest
          return ((stringOfUnits? us, v) :: ms, rest)
        | '\x7d' :: rest => some ([(stringOfUnits? us, v)], rest)
        | _ => none
      | _ => none
    | _ => none

end

/-- Reads a whole text as one value. -/
def ofText? (s : String) : Option Json :=
  match readValue (s.toList.length + 1) s.toList with
  | some (v, rest) => if skipBlanks rest = [] then some v else none
  | none => none

end DryRun.Json
