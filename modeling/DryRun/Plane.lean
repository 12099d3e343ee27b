import DryRun.Json.Decode

/-!
# Planes of arcs

Arcs lie in one of three planes. A plane orders its two axes, which gives the sense of
rotation, and names the letters that carry the offsets of a centre along them; the third
axis is the normal, along which an arc becomes a helix.
-/

namespace DryRun

/-- The plane in which arcs are made. -/
inductive Plane where
  | xy
  | zx
  | yz
deriving DecidableEq

namespace Plane

/-- The number of the `G` command that selects the plane. -/
def gNumber : Plane → Nat
  | .xy => 17
  | .zx => 18
  | .yz => 19

/-- The plane that a `G` command selects. -/
def ofGNumber? : Int → Option Plane
  | 17 => some .xy
  | 18 => some .zx
  | 19 => some .yz
  | _ => none

/-- The axis along which a plane's first coordinate is measured. -/
def first : Plane → Char
  | .xy => 'x'
  | .zx => 'z'
  | .yz => 'y'

/-- The axis along which a plane's second coordinate is measured. -/
def second : Plane → Char
  | .xy => 'y'
  | .zx => 'x'
  | .yz => 'z'

/-- The axis at right angles to a plane. -/
def normal : Plane → Char
  | .xy => 'z'
  | .zx => 'y'
  | .yz => 'x'

/-- The letter of the centre offset along the first axis. -/
def firstOffset : Plane → Char
  | .xy => 'I'
  | .zx => 'K'
  | .yz => 'J'

/-- The letter of the centre offset along the second axis. -/
def secondOffset : Plane → Char
  | .xy => 'J'
  | .zx => 'I'
  | .yz => 'K'

/-- The name of a plane by its axes. -/
def label : Plane → String
  | .xy => "XY"
  | .zx => "ZX"
  | .yz => "YZ"

/-- The name of a plane in data. -/
def name : Plane → String
  | .xy => "xy"
  | .zx => "zx"
  | .yz => "yz"

/-- The plane with a name. -/
def ofName? : String → Option Plane
  | "xy" => some .xy
  | "zx" => some .zx
  | "yz" => some .yz
  | _ => none

/-- A plane as data. -/
def toJson (p : Plane) : Json := .string p.name

/-- A plane from data. -/
def ofJson? (v : Json) : Option Plane := v.asName?.bind ofName?

/-- A plane from data that was kept whole. -/
def ofKeptJson? (v : Json) : Option Plane := v.asKeptName?.bind ofName?

end Plane

end DryRun
