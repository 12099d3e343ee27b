import DryRun.State

/-!
# Actions that are no motion

Some commands use the axis words of their line for something other than motion: they set the
offsets of a work coordinate system, store a reference position, home axes, or shift the
origin. At most one of them acts on a line, in this order of precedence, and a line with one
of them never moves the machine.
-/

namespace DryRun

variable {α : Type}

/-- A command that changes the override offset. -/
inductive OriginCommand where
  /-- Makes the current position read as the axis words say. -/
  | set
  /-- Sets the offset to zero and switches it off. -/
  | clear
  /-- Switches the offset off. -/
  | suspend
  /-- Switches the offset on again. -/
  | restore
deriving DecidableEq

/-- The origin command with a code. -/
def OriginCommand.ofCode? (code : Int) : Option OriginCommand :=
  if code = 920 then some .set
  else if code = 921 then some .clear
  else if code = 922 then some .suspend
  else if code = 923 then some .restore
  else none

/-- A command that uses the axis words of its line for something other than motion. -/
inductive Action where
  | setSystem
  | storeHome
  | storeSecondaryHome
  | homeAxes
  | origin (command : OriginCommand)
deriving DecidableEq

/-- The action of a line with these `G` codes. -/
def Action.ofCodes? (codes : List Int) : Option Action :=
  if codes.contains 100 then some .setSystem
  else if codes.contains 281 then some .storeHome
  else if codes.contains 301 then some .storeSecondaryHome
  else if codes.contains 282 || codes.contains 283 then some .homeAxes
  else (codes.findSome? OriginCommand.ofCode?).map .origin

/-- Whether an action changes the work frame. -/
def Action.changesFrame : Action → Bool
  | .setSystem | .origin _ => true
  | _ => false

variable [Scalar α]

/-- The value that a line gives for each axis. -/
def axisWords (axes : List Char) (b : Block α) : List (Option α) := axes.map b.get?

/-! ### Offsets of a work coordinate system -/

/-- The work coordinate system that a `P` word selects: none or zero is the active one. -/
def selectedSystem? (active : Nat) (p : Option α) : Option Nat :=
  match p with
  | none => some active
  | some p =>
    if p == 0 then some active
    else (List.range systemCount).find? fun index => p == Scalar.ofNat (index + 1)

namespace State

/-- The offset of an axis that makes the current machine position its work origin. -/
def originOffset (s : State α) (axis : Nat) : α :=
  (s.machine[axis]?).getD 0 - s.frame.overrideAt axis

/-- The offsets of a work coordinate system after the named axes were set: to the given values,
or so that the current position is the work origin. -/
def newOffsets (s : State α) (fromPosition : Bool) (words : List (Option α))
    (offsets : List α) : List α :=
  offsets.mapIdx fun axis old =>
    match words[axis]?.join with
    | some value => if fromPosition then s.originOffset axis else value
    | none => old

/-- Sets the offsets of a work coordinate system; the work position follows if it is the active
one. -/
def setOffsets (s : State α) (fromPosition : Bool) (index : Nat) (words : List (Option α)) :
    State α :=
  let frame := { s.frame with
    systems := s.frame.systems.modify index (s.newOffsets fromPosition words) }
  if index = s.frame.active then s.setFrame frame else { s with frame }

/-- Whether a line sets offsets to given values. -/
def givesOffsets (b : Block α) : Bool := b.hasCode 'L' (Scalar.ofNat 2 : α)

/-- Whether a line sets offsets from the current position. -/
def takesOffsets (b : Block α) : Bool := b.hasCode 'L' (Scalar.ofNat 20 : α)

/-- The system whose offsets a line sets, if it sets any. -/
def offsetSystem? (s : State α) (b : Block α) : Option Nat :=
  if givesOffsets b || takesOffsets b then selectedSystem? s.frame.active (b.get? 'P') else none

/-- Sets offsets as a line says. -/
def setSystem (s : State α) (b : Block α) : State α :=
  match s.offsetSystem? b with
  | some index => s.setOffsets (takesOffsets b) index (axisWords s.axes b)
  | none => s

/-! ### References, homing and origin -/

/-- Homes the named axes: their machine coordinate is zero from now on. -/
def homeAxes (s : State α) (words : List (Option α)) : State α :=
  { s with machine := s.machine.mapIdx fun axis here =>
      if (words[axis]?.join).isSome then 0 else here }.deriveWork

/-- The override offset that makes the named axes read as given. -/
def shiftedOffset (s : State α) (words : List (Option α)) : List α :=
  s.frame.offset.mapIdx fun axis old =>
    match words[axis]?.join with
    | some value =>
      (s.machine[axis]?).getD 0 - Frame.component s.frame.systems[s.frame.active]? axis - value
    | none => old

/-- Carries out an origin command. -/
def applyOrigin (s : State α) (words : List (Option α)) : OriginCommand → State α
  | .set => s.setFrame { s.frame with offset := s.shiftedOffset words, offsetEnabled := true }
  | .clear => s.setFrame s.frame.clearOffset
  | .suspend => s.setFrame { s.frame with offsetEnabled := false }
  | .restore => s.setFrame { s.frame with offsetEnabled := true }

/-- The state after the action of a line. -/
def act (s : State α) (b : Block α) : Action → State α
  | .setSystem => s.setSystem b
  | .storeHome => { s with home := s.machine }
  | .storeSecondaryHome => { s with secondaryHome := s.machine }
  | .homeAxes => s.homeAxes (axisWords s.axes b)
  | .origin command => s.applyOrigin (axisWords s.axes b) command

/-! ### The end of a program -/

/-- The state after the end of a program: the frame, the settings of reading and the switches
are as at power-on again, and the machine stands still. -/
def endProgram (s : State α) : State α :=
  { s with
    frame := { s.frame.clearOffset with active := 0 }
    settings := { s.settings with
      plane := .xy
      incremental := false
      inverseFeed := false
      spindle := false
      coolant := .off
      units := .mm }
    axisFeeds := none }.deriveWork

end State

/-- Whether a line with these `M` codes ends the program. -/
def endsProgram (codes : List Int) : Bool := codes.contains 20 || codes.contains 300

/-- What there is to note about the action of a line. -/
def actionNotes (line : Nat) (s : State α) (b : Block α) : Action → List (Note α)
  | .setSystem =>
    if State.givesOffsets b || State.takesOffsets b then
      match b.get? 'P' with
      | some p =>
        if (selectedSystem? s.frame.active (some p)).isSome then []
        else [.degraded (.invalidParameter line "P"
          (Scalar.text p ++ " is not a coordinate system (0-6)"))]
      | none => []
    else [.offsetsNotSimulated line]
  | _ => []

end DryRun
