import DryRun.State

/-!
# Modal words

The first part of evaluating a line: it is counted and catalogued, and its modal words take
effect, in this order: the `G` words one by one, the feed, the spindle speed, the tools, and
the `M` words one by one. All of them act before whatever else the line does.
-/

namespace DryRun

variable {α : Type}

/-! ### Modal commands -/

/-- A `G` command that changes how the following lines are read, or that waits. -/
inductive ModalCommand where
  | feedMode (inverse : Bool)
  | plane (p : Plane)
  | units (u : Units)
  | system (index : Nat)
  | cancelMotion
  | distanceMode (incremental : Bool)
  | dwell
deriving DecidableEq

/-- The modal commands with their codes. -/
def ModalCommand.table : List (Int × ModalCommand) :=
  [(930, .feedMode true), (940, .feedMode false),
   (170, .plane .xy), (180, .plane .zx), (190, .plane .yz),
   (200, .units .inch), (210, .units .mm),
   (540, .system 0), (550, .system 1), (560, .system 2), (570, .system 3), (580, .system 4),
   (590, .system 5),
   (800, .cancelMotion), (900, .distanceMode false), (910, .distanceMode true), (40, .dwell)]

/-- The modal command with a code. -/
def ModalCommand.ofCode? (code : Int) : Option ModalCommand := ModalCommand.table.lookup code

/-- Whether a modal command selects another work frame. -/
def ModalCommand.changesFrame : ModalCommand → Bool
  | .system _ => true
  | _ => false

/-- An `M` command that switches the spindle or the coolant, or changes the tool. -/
inductive SwitchCommand where
  | spindleOn (rotation : Rotation)
  | spindleOff
  | toolChange
  | coolantOn (c : Coolant)
  | coolantOff
deriving DecidableEq

/-- The switching commands with their codes. -/
def SwitchCommand.table : List (Int × SwitchCommand) :=
  [(30, .spindleOn .clockwise), (40, .spindleOn .counterclockwise), (50, .spindleOff),
   (60, .toolChange), (70, .coolantOn .mist), (80, .coolantOn .flood), (90, .coolantOff)]

/-- The switching command with a code. -/
def SwitchCommand.ofCode? (code : Int) : Option SwitchCommand := SwitchCommand.table.lookup code

/-- Whether a `G` code is evaluated outside the modal words. -/
def isActionCode (code : Int) : Bool :=
  [100, 280, 281, 282, 283, 300, 301, 530, 920, 921, 922, 923].contains code ||
    (Motion.ofCode? code).isSome

variable [Scalar α]

namespace State

/-! ### Counting a line -/

/-- The largest line number that is remembered: 64 bits hold it. -/
def maxLineNumber : Int := 0xFFFFFFFFFFFFFFFF

/-- The largest tool number that is remembered: 32 bits hold it. -/
def maxTool : Int := 0xFFFFFFFF

/-- The number that a line gives itself. -/
def lineNumber? (b : Block α) : Option Nat :=
  ((b.get? 'N').filter (0 ≤ ·)).map fun n => (Scalar.truncBetween 0 maxLineNumber n).toNat

/-- Counts a line and catalogues its letters, its number, and its text if it is flagged. -/
def count (s : State α) (b : Block α) : State α :=
  { s with catalogue := { s.catalogue with
      lines := s.catalogue.lines + 1
      letters := s.catalogue.letters.insertAll b.letters
      flagged := if b.isFlagged then s.catalogue.flagged.insert b.source else s.catalogue.flagged
      lineNumber := (lineNumber? b).or s.catalogue.lineNumber } }

/-! ### The words of each letter -/

/-- The seconds that a line waits: its `P` word, if it is positive. -/
def dwellTime? (b : Block α) : Option α := (b.get? 'P').filter (0 < ·)

/-- Waits as long as a line says. -/
def dwell (s : State α) (b : Block α) : State α :=
  match dwellTime? b with
  | some seconds => { s with totalTime := s.totalTime + seconds }
  | none => s

/-- Carries out a modal command of a line. -/
def applyModal (b : Block α) (s : State α) : ModalCommand → State α
  | .feedMode inverse => { s with settings := { s.settings with inverseFeed := inverse } }
  | .plane p => { s with settings := { s.settings with plane := p } }
  | .units u => { s with settings := { s.settings with units := u } }
  | .system index => s.selectSystem index
  | .cancelMotion => { s with motion := none }
  | .distanceMode incremental => { s with settings := { s.settings with incremental } }
  | .dwell => s.dwell b

/-- Carries out a `G` code of a line, as far as it is modal. -/
def applyG (b : Block α) (s : State α) (code : Int) : State α :=
  match ModalCommand.ofCode? code with
  | some command => s.applyModal b command
  | none => s

/-- Takes over the feed of a line. -/
def applyFeed (s : State α) (b : Block α) : State α :=
  match (b.get? 'F').filter (0 ≤ ·) with
  | some feed => { s with
      settings := { s.settings with feed }
      catalogue := { s.catalogue with feedRates := s.catalogue.feedRates.insert feed } }
  | none => s

/-- Takes over the spindle speed of a line. -/
def applySpeed (s : State α) (b : Block α) : State α :=
  match (b.get? 'S').filter (0 ≤ ·) with
  | some speed => { s with
      settings := { s.settings with spindleSpeed := speed }
      catalogue := { s.catalogue with
        spindleSpeeds := s.catalogue.spindleSpeeds.insert speed } }
  | none => s

/-- The tool that a word selects: the nearest number, unless it is negative. -/
def toolOf? (value : α) : Option Nat :=
  if value < 0 then none else some (Scalar.roundBetween 0 maxTool value).toNat

/-- Selects a tool. -/
def selectTool (s : State α) (tool : Nat) : State α :=
  { s with
    settings := { s.settings with tool := some tool }
    catalogue := { s.catalogue with
      tools := s.catalogue.tools.insert tool
      toolSelects := s.catalogue.toolSelects + 1 } }

/-- Selects the tools of a line, one after the other. -/
def applyTools (s : State α) (b : Block α) : State α :=
  ((b.values 'T').filterMap toolOf?).foldl selectTool s

/-- Carries out a switching command. -/
def applySwitch (s : State α) : SwitchCommand → State α
  | .spindleOn rotation => { s with settings := { s.settings with spindle := true, rotation } }
  | .spindleOff => { s with settings := { s.settings with spindle := false } }
  | .toolChange => { s with catalogue := { s.catalogue with
      toolChanges := s.catalogue.toolChanges + 1 } }
  | .coolantOn c => { s with settings := { s.settings with coolant := s.settings.coolant.add c } }
  | .coolantOff => { s with settings := { s.settings with coolant := .off } }

/-- Carries out an `M` code, as far as it is a switching command. -/
def applyM (s : State α) (code : Int) : State α :=
  match SwitchCommand.ofCode? code with
  | some command => s.applySwitch command
  | none => s

/-- The state after the modal words of a line. -/
def applyModalWords (s : State α) (b : Block α) : State α :=
  let s := (b.codes 'G').foldl (applyG b) s
  let s := s.applyFeed b
  let s := s.applySpeed b
  let s := s.applyTools b
  (b.codes 'M').foldl applyM s

end State

/-! ### Notes -/

/-- Whether a modal word of a line selects another work frame. -/
def modalChangesFrame (b : Block α) : Bool :=
  (b.codes 'G').any fun code => (ModalCommand.ofCode? code).any (·.changesFrame)

/-- What there is to note about a `G` code of a line. -/
def codeNotes (line : Nat) (b : Block α) (code : Int) : List (Note α) :=
  match ModalCommand.ofCode? code with
  | some .dwell =>
    if b.has 'P' then []
    else [.degraded (.invalidParameter line "G4" "dwell without P word")]
  | some _ => []
  | none => if isActionCode code then [] else [.notSimulated line code]

/-- What there is to note about a line before it acts. -/
def modalNotes (line : Nat) (b : Block α) : List (Note α) :=
  (if b.isFlagged then [.flaggedLine line b.source] else []) ++
    (b.codes 'G').flatMap (codeNotes line b)

end DryRun
