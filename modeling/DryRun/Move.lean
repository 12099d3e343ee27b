import DryRun.Event
import DryRun.Timing

/-!
# Moves

A move takes the machine to a new position. The targets of a move are given in work
coordinates for the axes that the program names; the others stay where they are. A move
updates both positions, the envelope of the named axes and the time of the run, and is
recorded as an event.
-/

namespace DryRun

variable {α : Type}

/-- The start and the end of a move on an axis that it names. -/
def movePoints (targets : List (Option α)) (start finish : List α) (axis : Nat) : List α :=
  match targets[axis]?, start[axis]?, finish[axis]? with
  | some (some _), some a, some b => [a, b]
  | _, _, _ => []

variable [Scalar α]

/-- The envelope after a move between positions that are given in both frames. -/
def Envelope.addMove (e : Envelope α) (targets : List (Option α))
    (work work' machine machine' : List α) : Envelope α where
  work := e.work.observe (movePoints targets work work')
  machine := e.machine.observe (movePoints targets machine machine')
  moved := e.moved.zipWith (fun moved target => moved || target.isSome) targets

namespace State

/-- The position that a move ends at: unnamed axes stay where they are. -/
def destination (s : State α) (targets : List (Option α)) : List α :=
  targets.zipWith (fun target here => target.getD here) s.work

/-- The distance that each axis travels. -/
def axisTravels (s : State α) (finish : List α) : List α :=
  finish.zipWith (fun there here => Scalar.abs (there - here)) s.work

/-- The time of a move, before the shortest time of a move is applied, and the axis feeds that
it ends with. A given `travel` replaces the straight distance. -/
def moveDuration (c : Config α) (s : State α) (targets : List (Option α)) (feed : Option α)
    (travel : Option α) : α × Option (List α) :=
  let travels := s.axisTravels (s.destination targets)
  Timing.duration c s.settings s.axisFeeds travels (travel.getD (Scalar.norm travels)) feed

/-- The time that a move takes: never less than the shortest time of a move. -/
def moveTime (c : Config α) (s : State α) (targets : List (Option α)) (feed : Option α)
    (travel : Option α) : α :=
  Scalar.max (s.moveDuration c targets feed travel).1 c.minMoveTime

/-- The state after a move. Without a feed the move is a rapid one. -/
def move (c : Config α) (s : State α) (targets : List (Option α)) (feed : Option α)
    (travel : Option α) : State α :=
  let work := s.destination targets
  let machine := s.frame.toMachine work
  { s with
    work
    machine
    envelope := s.envelope.addMove targets s.work work s.machine machine
    axisFeeds := (s.moveDuration c targets feed travel).2
    totalTime := s.totalTime + s.moveTime c targets feed travel }

/-- The event of a move that took the machine from one state to another. -/
def event (s s' : State α) (motion : Motion) (geometry : Geometry α) (time : α) : Event α where
  line := s.catalogue.lines
  modal := ⟨motion, s.settings⟩
  source := s.work
  target := s'.work
  machineSource := s.machine
  machineTarget := s'.machine
  geometry
  time

/-- Carries out a move and records it. -/
def perform (c : Config α) (s : State α) (motion : Motion) (targets : List (Option α))
    (feed : Option α) (travel : Option α) (geometry : Geometry α) : State α × Event α :=
  let s' := s.move c targets feed travel
  (s', s.event s' motion geometry (s.moveTime c targets feed travel))

end State

end DryRun
