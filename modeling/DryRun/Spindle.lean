import DryRun.Json.Decode

/-!
# Spindle and coolant

The spindle turns clockwise or counter-clockwise, and coolant is a set of two switches, mist
and flood, kept as a byte. Only the two lowest bits of the byte are switches; the others are
carried along when a state is taken over from elsewhere and are dropped by every operation.
-/

namespace DryRun

/-- The sense in which the spindle turns. -/
inductive Rotation where
  | clockwise
  | counterclockwise
deriving DecidableEq

namespace Rotation

/-- The name of a sense of rotation in data. -/
def name : Rotation → String
  | .clockwise => "cw"
  | .counterclockwise => "ccw"

/-- The sense of rotation with a name. -/
def ofName? : String → Option Rotation
  | "cw" => some .clockwise
  | "ccw" => some .counterclockwise
  | _ => none

/-- A sense of rotation as data. -/
def toJson (r : Rotation) : Json := .string r.name

/-- A sense of rotation from data. -/
def ofJson? (v : Json) : Option Rotation := v.asName?.bind ofName?

end Rotation

/-- The coolant switches as a byte: bit 0 is mist, bit 1 is flood. -/
structure Coolant where
  raw : UInt8
deriving DecidableEq

namespace Coolant

/-- All coolant off. -/
def off : Coolant := ⟨0⟩

/-- Mist alone. -/
def mist : Coolant := ⟨1⟩

/-- Flood alone. -/
def flood : Coolant := ⟨2⟩

/-- Mist and flood. -/
def both : Coolant := ⟨3⟩

/-- The coolant of a byte, of which the two switches are kept. -/
def ofBits (b : UInt8) : Coolant := ⟨b &&& 3⟩

/-- The two switches. -/
def bits (c : Coolant) : UInt8 := c.raw &&& 3

/-- Switches on what is on in either. -/
def add (c d : Coolant) : Coolant := ofBits (c.raw ||| d.raw)

/-- Whether mist is on. -/
def hasMist (c : Coolant) : Bool := c.bits &&& 1 != 0

/-- Whether flood is on. -/
def hasFlood (c : Coolant) : Bool := c.bits &&& 2 != 0

/-- Whether any coolant is on. -/
def isOn (c : Coolant) : Bool := c.bits != 0

/-- The name of what is on. -/
def text (c : Coolant) : String :=
  if c.bits = 0 then "off"
  else if c.bits = 1 then "mist"
  else if c.bits = 2 then "flood"
  else "mist+flood"

/-- Coolant as data: the byte as it is. -/
def toJson (c : Coolant) : Json := .ofNat c.raw.toNat

/-- Coolant from data. -/
def ofJson? (v : Json) : Option Coolant := (v.asNat? 8).map fun n => ⟨n.toUInt8⟩

end Coolant

end DryRun
