import DryRun.Evaluate.Modal
import DryRun.Evaluate.Motion

/-!
# Evaluating a line

A line is evaluated in four stages: it is counted, its modal words take effect, it acts or
moves, and it may end the program. Nothing in a line can make its evaluation fail; what is
wrong with it is noted.
-/

namespace DryRun

variable {α : Type} [Scalar α]

/-- The outcome of a line: the state after it, its result and its notes in order. -/
structure Evaluation (α : Type) where
  state : State α
  result : LineResult α
  notes : List (Note α)

namespace State

/-- The state after a line was counted and its modal words took effect. -/
def prepare (s : State α) (b : Block α) : State α := (s.count b).applyModalWords b

/-- The state with the motion of a line in force. -/
def selectMotion (s : State α) (codes : List Int) : State α :=
  { s with motion := motionInForce s.motion codes }

/-- What a prepared line does: its motion if it has one, whether it was carried out, and
whether it changed the frame. -/
structure Outcome (α : Type) where
  state : State α
  motion : Option Motion
  isMotion : Bool
  changedFrame : Bool
  events : List (Event α)
  notes : List (Note α)

/-- The outcome of a line that performs no motion. -/
def idle (s : State α) (changedFrame : Bool) (notes : List (Note α)) : Outcome α :=
  ⟨s, none, false, changedFrame, [], notes⟩

/-- The outcome of a motion. One that is not supported is skipped. -/
def moveLine (c : Config α) (s : State α) (b : Block α) (motion : Motion)
    (targets : List (Option α)) : Outcome α :=
  match s.runMotion? c b motion targets with
  | some p => ⟨p.state, some motion, true, false, p.events, p.notes⟩
  | none => ⟨s, some motion, false, false, [],
      [.skipped (.unsupportedMotion s.catalogue.lines motion.text b.source)]⟩

/-- What a prepared line does: an action if it has one, and otherwise a motion. -/
def step (c : Config α) (s : State α) (b : Block α) : Outcome α :=
  let codes := b.codes 'G'
  match Action.ofCodes? codes with
  | some action =>
    (s.act b action).idle action.changesFrame (actionNotes s.catalogue.lines s b action)
  | none =>
    let s := s.selectMotion codes
    let words := axisWords s.axes b
    match lineMotion? s.motion codes b words with
    | some motion => s.moveLine c b motion (s.targets (codes.contains 530) words)
    | none => s.idle false (idleNotes s.catalogue.lines s.motion codes b)

/-- The state after a line that may end the program. -/
def finish (s : State α) (b : Block α) : State α :=
  if endsProgram (b.codes 'M') then s.endProgram else s

end State

/-- Evaluates one line. -/
def evaluate (c : Config α) (s : State α) (b : Block α) : Evaluation α :=
  let prepared := s.prepare b
  let outcome := prepared.step c b
  let final := outcome.state.finish b
  { state := final
    result := {
      isMotion := outcome.isMotion
      motion := outcome.motion
      changedFrame := modalChangesFrame b || outcome.changedFrame || endsProgram (b.codes 'M')
      time := final.totalTime - s.totalTime
      events := outcome.events }
    notes := modalNotes prepared.catalogue.lines b ++ outcome.notes }

end DryRun
