import DryRun.Number.Scalar

/-!
# Data as JSON

Configurations, reports and motion events are exchanged as JSON. A value keeps the order of
its members and their repetitions, because both matter when it is read: members are written
in a fixed order, and a member that occurs twice is refused. A number keeps whether it was
written as an integer, because a count is never read from `1.0`.

`Json.compact` writes a value without any blanks and `Json.pretty` writes one member or item
a line, indented by two blanks for each level.
-/

namespace DryRun

namespace Json

/-- A number as it is written: an integer, or a number with a fraction or an exponent. -/
inductive Number where
  | integer (n : Int)
  | decimal (d : Decimal)
deriving DecidableEq

end Json

/-- A JSON value. A text can be well-formed and still stand for no characters, if half a
surrogate pair is missing in it. Such a text, and an object with such a name, is `broken`: it
can be passed over, but there is nothing to read in it. -/
inductive Json where
  | null
  | bool (b : Bool)
  | number (n : Json.Number)
  | string (s : String)
  | list (items : List Json)
  | object (members : List (String × Json))
  | broken

namespace Json

/-! ### Building values -/

/-- An integer. -/
def ofInt (n : Int) : Json := .number (.integer n)

/-- A natural number. -/
def ofNat (n : Nat) : Json := .number (.integer n)

/-- A text of one character. -/
def ofChar (c : Char) : Json := .string c.toString

/-- A measured number; what is no finite number has no text in JSON and is written as null. -/
def ofScalar {α : Type} [Scalar α] (x : α) : Json :=
  match Scalar.numeral .even x with
  | .finite d => .number (.decimal d)
  | _ => .null

/-- A value that may be absent, in which case it is null. -/
def ofOption {β : Type} (f : β → Json) : Option β → Json
  | some x => f x
  | none => .null

/-- A list of values. -/
def ofList {β : Type} (f : β → Json) (xs : List β) : Json := .list (xs.map f)

/-- A list of measured numbers. -/
def ofScalars {α : Type} [Scalar α] (xs : List α) : Json := ofList ofScalar xs

/-! ### Texts -/

/-- A hexadecimal digit. -/
def hexDigit (n : Nat) : Char := Nat.digitChar n

/-- The characters that stand for one character inside a text: quotes, backslashes and
control characters are escaped, and all else stands for itself. -/
def escape (c : Char) : List Char :=
  if c = '"' then ['\\', '"']
  else if c = '\\' then ['\\', '\\']
  else if c = '\n' then ['\\', 'n']
  else if c = '\r' then ['\\', 'r']
  else if c = '\t' then ['\\', 't']
  else if c = '\x08' then ['\\', 'b']
  else if c = '\x0c' then ['\\', 'f']
  else if c.toNat < 0x20 then
    ['\\', 'u', '0', '0', hexDigit (c.toNat / 16), hexDigit (c.toNat % 16)]
  else [c]

/-- Writes a text in quotes in front of `rest`. -/
def writeString (s : String) (rest : List Char) : List Char :=
  '"' :: s.toList.foldr (fun c rest => escape c ++ rest) ('"' :: rest)

/-! ### Numbers -/

/-- The text of an integer. -/
def integerText (n : Int) : List Char := Decimal.signText (n < 0) ++ Decimal.digits n.natAbs

/-- The text of a number. -/
def Number.chars : Number → List Char
  | .integer n => integerText n
  | .decimal d => d.json

/-! ### Writing -/

/-- How the text of a value is broken into lines. -/
inductive Layout where
  | compact
  | indented
deriving DecidableEq

/-- What stands before an item or a closing bracket at an indentation level. -/
def Layout.newline : Layout → Nat → List Char → List Char
  | .compact, _, rest => rest
  | .indented, level, rest => '\n' :: (List.replicate (2 * level) ' ' ++ rest)

/-- What stands between the name of a member and its value. -/
def Layout.colon : Layout → List Char → List Char
  | .compact, rest => ':' :: rest
  | .indented, rest => ':' :: ' ' :: rest

mutual

/-- Writes a value that stands at an indentation level in front of `rest`; one that cannot be
read is written as null. -/
def write (l : Layout) (level : Nat) : Json → List Char → List Char
  | .null, rest | .broken, rest => 'n' :: 'u' :: 'l' :: 'l' :: rest
  | .bool true, rest => 't' :: 'r' :: 'u' :: 'e' :: rest
  | .bool false, rest => 'f' :: 'a' :: 'l' :: 's' :: 'e' :: rest
  | .number n, rest => n.chars ++ rest
  | .string s, rest => writeString s rest
  | .list [], rest => '[' :: ']' :: rest
  | .list (v :: vs), rest =>
    '[' :: l.newline (level + 1) (write l (level + 1) v (writeItems l level vs rest))
  | .object [], rest => '\x7b' :: '\x7d' :: rest
  | .object ((k, v) :: ms), rest =>
    '\x7b' :: l.newline (level + 1) (writeString k
      (l.colon (write l (level + 1) v (writeMembers l level ms rest))))

/-- Writes the further items of a list, each after a comma, and its end. -/
def writeItems (l : Layout) (level : Nat) : List Json → List Char → List Char
  | [], rest => l.newline level (']' :: rest)
  | v :: vs, rest =>
    ',' :: l.newline (level + 1) (write l (level + 1) v (writeItems l level vs rest))

/-- Writes the further members of an object, each after a comma, and its end. -/
def writeMembers (l : Layout) (level : Nat) : List (String × Json) → List Char → List Char
  | [], rest => l.newline level ('\x7d' :: rest)
  | (k, v) :: ms, rest =>
    ',' :: l.newline (level + 1) (writeString k
      (l.colon (write l (level + 1) v (writeMembers l level ms rest))))

end

/-- The text of a value without blanks. -/
def compact (v : Json) : String := String.ofList (v.write .compact 0 [])

/-- The text of a value with one member or item a line. -/
def pretty (v : Json) : String := String.ofList (v.write .indented 0 [])

end Json

end DryRun
