import DryRun.Word
import DryRun.Json.Decode

/-!
# Motions

What a line makes the machine do: a rapid or a feed move, an arc, a return to a reference
position, or a motion that is recognised but not carried out (splines, threading, probing
and canned cycles). All but the two returns stay in force until another one is given.
-/

namespace DryRun

/-- The motion of a line. A motion that is not carried out keeps its code in tenths. -/
inductive Motion where
  | rapid
  | linear
  | arcClockwise
  | arcCounterclockwise
  | home
  | secondaryHome
  | unsupported (code : Int)
deriving DecidableEq

namespace Motion

/-- Whether a code belongs to a motion that is recognised but not carried out. -/
def isUnsupportedCode (code : Int) : Bool :=
  [50, 51, 330, 382, 383, 384, 385, 730, 760].contains code ||
    (810 ≤ code && code ≤ 890 && code.tmod 10 = 0)

/-- The motion that a code of the modal motion group selects. -/
def ofCode? (code : Int) : Option Motion :=
  if code = 0 then some .rapid
  else if code = 10 then some .linear
  else if code = 20 then some .arcClockwise
  else if code = 30 then some .arcCounterclockwise
  else if isUnsupportedCode code then some (.unsupported code)
  else none

/-- The code of a motion, in tenths. -/
def code : Motion → Int
  | .rapid => 0
  | .linear => 10
  | .arcClockwise => 20
  | .arcCounterclockwise => 30
  | .home => 280
  | .secondaryHome => 300
  | .unsupported c => c

/-- Whether a motion is an arc. -/
def isArc : Motion → Bool
  | .arcClockwise | .arcCounterclockwise => true
  | _ => false

/-- Whether a motion runs at the machine's own speed. -/
def isRapid : Motion → Bool
  | .rapid | .home | .secondaryHome => true
  | _ => false

/-- The command that selects a motion. -/
def text (m : Motion) : String := codeText 'G' m.code

/-- A motion as data. -/
def toJson : Motion → Json
  | .rapid => .string "rapid"
  | .linear => .string "linear"
  | .arcClockwise => .string "arc_cw"
  | .arcCounterclockwise => .string "arc_ccw"
  | .home => .string "home"
  | .secondaryHome => .string "secondary_home"
  | .unsupported c => .object [("unsupported", .ofInt c)]

/-- The motion with a name. -/
def ofName? : String → Option Motion
  | "rapid" => some .rapid
  | "linear" => some .linear
  | "arc_cw" => some .arcClockwise
  | "arc_ccw" => some .arcCounterclockwise
  | "home" => some .home
  | "secondary_home" => some .secondaryHome
  | _ => none

/-- A motion from data. -/
def ofJson? : Json → Option Motion
  | .object [("unsupported", v)] => (v.asInt? minCode maxCode).map .unsupported
  | v => v.asName?.bind ofName?

end Motion

end DryRun
