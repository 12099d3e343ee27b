import DryRun.Text.CharClass
import DryRun.Json.Decode

/-!
# Units of length

A program measures in millimetres or in inches. Machine limits are always given in
millimetres and are converted into the program's units where they are used.
-/

namespace DryRun

/-- The units of length of a program. -/
inductive Units where
  | mm
  | inch
deriving DecidableEq

namespace Units

variable {α : Type} [Scalar α]

/-- Millimetres in an inch. -/
def mmPerInch : α := Scalar.ofDecimal ⟨false, 254, -1⟩

/-- A length in units `a`, measured in units `b`. -/
def convert (value : α) (a b : Units) : α :=
  match a, b with
  | .mm, .inch => value / mmPerInch
  | .inch, .mm => value * mmPerInch
  | _, _ => value

/-- A length in millimetres, measured in these units. -/
def ofMm (u : Units) (value : α) : α := convert value .mm u

/-- A length in these units, measured in millimetres. -/
def toMm (u : Units) (value : α) : α := convert value u .mm

/-- The number of the `G` command that selects the units. -/
def gNumber : Units → Nat
  | .mm => 21
  | .inch => 20

/-- The short name of the units. -/
def name : Units → String
  | .mm => "mm"
  | .inch => "in"

/-- The units with a short name. -/
def ofName? : String → Option Units
  | "mm" => some .mm
  | "in" => some .inch
  | _ => none

/-- Reads units by one of their names or commands. Blanks around it and letter case do not
matter; the names are ASCII, and no character outside ASCII has a lower-case form in them. -/
def ofText? (s : String) : Option Units :=
  let word := String.ofList ((Text.trim s.toList).map Char.toLower)
  if ["mm", "metric", "g21"].contains word then some .mm
  else if ["in", "inch", "imperial", "g20"].contains word then some .inch
  else none

/-- What is said of a text that names no units. -/
def unknownText (s : String) : String := "Unknown units: " ++ s

/-- Units as data. -/
def toJson (u : Units) : Json := .string u.name

/-- Units from data. -/
def ofJson? (v : Json) : Option Units := v.asName?.bind ofName?

end Units

end DryRun
