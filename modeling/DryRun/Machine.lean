import DryRun.Evaluate
import DryRun.Folder
import DryRun.Report

/-!
# Machines

A machine is a configuration without a fault together with the state of one run. It takes
lines one at a time, whole programs, bytes, or files, and it can be asked for its events one
by one: an `EventStream` evaluates only as many lines as it needs for the next event.
-/

namespace DryRun

variable {α : Type} [Scalar α]

/-- A configuration and the state of a run with it. -/
structure Machine (α : Type) where
  config : Config α
  state : State α
deriving DecidableEq

namespace Machine

/-! ### Setting up -/

/-- A machine at power-on. -/
def build (c : Config α) : Except ConfigFault (Machine α) :=
  match State.start? c with
  | .ok state => .ok ⟨c, state⟩
  | .error fault => .error fault

/-- The machine at power-on again. -/
def reset (m : Machine α) : Except ConfigFault (Machine α) := build m.config

/-- The machine at power-on with another configuration. -/
def reconfigure (_ : Machine α) (c : Config α) : Except ConfigFault (Machine α) := build c

/-! ### Running -/

/-- Evaluates a block. -/
def evaluate (m : Machine α) (b : Block α) : Evaluation α := DryRun.evaluate m.config m.state b

/-- The machine after a block. -/
def apply (m : Machine α) (b : Block α) : Machine α := { m with state := (m.evaluate b).state }

/-- Evaluates the text of a line. -/
def evaluateLine (m : Machine α) (line : String) : Evaluation α := m.evaluate (Block.parse line)

/-- The machine after a line. -/
def runLine (m : Machine α) (line : String) : Machine α := m.apply (Block.parse line)

/-- The machine after the lines of a program. -/
def runLines (m : Machine α) (lines : List String) : Machine α := lines.foldl runLine m

/-- What is noted about the lines of a program, in order. -/
def notesOf (m : Machine α) : List String → List (Note α)
  | [] => []
  | line :: rest => (m.evaluateLine line).notes ++ (m.runLine line).notesOf rest

/-- The machine after a program that is given as bytes. -/
def runBytes (m : Machine α) (bs : List UInt8) : Machine α := m.runLines (Text.linesOfBytes bs)

/-- The machine after a program from a file; a file that cannot be read has no effect. -/
def runFile (m : Machine α) (content : FileContent) : Except (Failure α) (Machine α) :=
  match content with
  | .bytes bs => .ok (m.runBytes bs)
  | .unopened reason => .error (.io reason)
  | .unreadable reason => .error (.io reason)

/-- What is noted about a program from a file. -/
def fileNotes (m : Machine α) (path : String) : FileContent → List (Note α)
  | .bytes bs => .reading path :: m.notesOf (Text.linesOfBytes bs)
  | .unopened reason => [.notOpened path reason]
  | .unreadable _ => [.reading path]

/-! ### Asking -/

/-- The summary of the run so far. -/
def report (m : Machine α) : Report α := .of m.state

/-- The bounds of the motion so far, in machine or in work coordinates. -/
def box (m : Machine α) (machine : Bool) : BoundingBox α :=
  if machine then m.report.machineBox else m.report.box

end Machine

/-! ### Events one by one -/

/-- The motion of a program that is evaluated as far as its events are asked for. -/
structure EventStream (α : Type) where
  machine : Machine α
  /-- Events of the last line that were not yet asked for. -/
  pending : List (Event α)
  /-- Lines that were not yet evaluated. -/
  lines : List String
  /-- What was noted so far. -/
  notes : List (Note α)

namespace EventStream

/-- The stream of a program's events. -/
def of (m : Machine α) (lines : List String) : EventStream α := ⟨m, [], lines, []⟩

/-- Evaluates lines until one of them has events, or none is left. -/
def advance (m : Machine α) (notes : List (Note α)) : List String → EventStream α
  | [] => ⟨m, [], [], notes⟩
  | line :: rest =>
    let e := m.evaluateLine line
    let m' := { m with state := e.state }
    match e.result.events with
    | [] => advance m' (notes ++ e.notes) rest
    | events => ⟨m', events, rest, notes ++ e.notes⟩

/-- The next event, if there is one, and the stream after it. -/
def next (s : EventStream α) : Option (Event α) × EventStream α :=
  let s := if s.pending.isEmpty then advance s.machine s.notes s.lines else s
  (s.pending.head?, { s with pending := s.pending.tail })

/-- Asks for up to `n` events. Each comes with the count of the last line evaluated for it. -/
def take : Nat → EventStream α → List (Event α × Nat) × EventStream α
  | 0, s => ([], s)
  | n + 1, s =>
    match s.next with
    | (some event, s') =>
      let r := take n s'
      ((event, s'.machine.state.catalogue.lines) :: r.1, r.2)
    | (none, s') => ([], s')

/-- Asks for all events; a line has at most two. -/
def takeAll (s : EventStream α) : List (Event α × Nat) × EventStream α :=
  s.take (s.pending.length + 2 * s.lines.length + 1)

end EventStream

end DryRun
