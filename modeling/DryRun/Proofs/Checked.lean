import DryRun.Proofs.Line

/-!
# Evaluation with checked indices

A machine reads and writes its lists by the index of an axis or of a work coordinate system.
The evaluator is total: where an index is out of range it reads a zero, or no number for a
limit, and it writes nothing. Such a reading would be silently wrong.

`Checked.evaluate` evaluates a line by the same steps, written as loops over the axes in
which **every access by index has to succeed**: a look-up gives an `Option`, a write outside
the list fails, and so does a limit that is not given for the axis. One failed access, and
there is no result. `DryRun.Proofs.Indexing` shows that no access fails.
-/

namespace DryRun

variable {α β : Type}

/-- The limit of an axis, if one is given for it. -/
def Limit.at? : Limit α → Nat → Option α
  | .uniform value, _ => some value
  | .perAxis values, axis => values[axis]?

namespace Checked

/-! ### Loops over axes -/

/-- Writes at an index, which has to exist. -/
def write (xs : List β) (index : Nat) (x : β) : Option (List β) :=
  if index < xs.length then some (xs.set index x) else none

/-- Goes through `n` axes in order. -/
def forAxes (n : Nat) (start : β) (body : β → Nat → Option β) : Option β :=
  (List.range n).foldlM body start

/-- Puts together a list with an entry for each of `n` axes. -/
def collect (n : Nat) (entry : Nat → Option β) : Option (List β) := (List.range n).mapM entry

/-- Writes a value for each named axis. -/
def writeNamed (words : List (Option α)) (value : Nat → α → Option β) (xs : List β) :
    Option (List β) :=
  forAxes words.length xs fun xs axis =>
    match words[axis]?.join with
    | some word => do write xs axis (← value axis word)
    | none => some xs

/-! ### Checked actions -/

variable [Scalar α]

/-- Sets the offsets of a work coordinate system. -/
def setOffsets (s : State α) (fromPosition : Bool) (index : Nat) (words : List (Option α)) :
    Option (State α) := do
  let old ← s.frame.systems[index]?
  let offsets ← writeNamed words (fun axis value =>
    if fromPosition then do
      let override ← if s.frame.offsetEnabled then s.frame.offset[axis]? else some 0
      return (← s.machine[axis]?) - override
    else some value) old
  let systems ← write s.frame.systems index offsets
  let frame := { s.frame with systems }
  return if index = s.frame.active then s.setFrame frame else { s with frame }

/-- Homes the named axes. -/
def homeAxes (s : State α) (words : List (Option α)) : Option (State α) := do
  let machine ← writeNamed words (fun _ _ => some 0) s.machine
  return { s with machine }.deriveWork

/-- Makes the named axes read as given. -/
def setOrigin (s : State α) (words : List (Option α)) : Option (State α) := do
  let offset ← writeNamed words (fun axis value => do
    let here ← s.machine[axis]?
    let system ← s.frame.systems[s.frame.active]?
    return here - (← system[axis]?) - value) s.frame.offset
  return s.setFrame { s.frame with offset, offsetEnabled := true }

/-- Carries out the action of a line. -/
def act (s : State α) (b : Block α) : Action → Option (State α)
  | .setSystem =>
    match s.offsetSystem? b with
    | some index => setOffsets s (State.takesOffsets b) index (axisWords s.axes b)
    | none => some s
  | .homeAxes => homeAxes s (axisWords s.axes b)
  | .origin .set => setOrigin s (axisWords s.axes b)
  | action => some (s.act b action)

/-! ### Checked timing -/

/-- The largest feed of an axis, which has to be given. -/
def maxFeed (c : Config α) (units : Units) (axis : Nat) : Option α :=
  (c.maxFeed.at? axis).map units.ofMm

/-- The acceleration of an axis, which has to be given. -/
def acceleration (c : Config α) (units : Units) (axis : Nat) : Option α :=
  (c.acceleration.at? axis).map units.ofMm

/-- The time of a move in inverse-time mode. -/
def inverseTime (c : Config α) (units : Units) (travels : List α) (feed : α) : Option α := do
  let times ← collect travels.length fun axis => do
    return (← travels[axis]?) / (← maxFeed c units axis) * Scalar.sixty
  return Scalar.max (Scalar.sixty / feed) (Scalar.maxOf times)

/-- The feed of each axis in a move at a feed, or in a rapid move. -/
def feeds (c : Config α) (units : Units) (travels : List α) (travel : α) (feed : Option α) :
    Option (List α) :=
  collect travels.length fun axis => do
    let d ← travels[axis]?
    match feed with
    | some f => return f * d / travel
    | none => if 0 < d then maxFeed c units axis else return 0

/-- The time in which each axis changes its feed. -/
def ramps (c : Config α) (units : Units) (last feeds : List α) : Option (List α) :=
  collect feeds.length fun axis => do
    return Timing.rampTime (Timing.feedAt last axis) (← feeds[axis]?) (← acceleration c units axis)

/-- The time that each axis takes for its part of a rapid move. -/
def rapidTimes (last travels feeds ramps : List α) : Option (List α) :=
  collect travels.length fun axis => do
    let feed ← feeds[axis]?
    let ramp ← ramps[axis]?
    let travel ← travels[axis]?
    return if feed / Scalar.sixty ≤ 0 then ramp
      else Timing.rampedTime (Timing.feedAt last axis / Scalar.sixty) (feed / Scalar.sixty)
        ramp travel

/-- The time of a move outside inverse-time mode, and the axis feeds that it ends with. -/
def timed (c : Config α) (units : Units) (last travels : List α) (travel : α)
    (feed : Option α) : Option (α × List α) := do
  let feeds ← feeds c units travels travel feed
  let ramps ← ramps c units last feeds
  match feed with
  | some f => return (Timing.rampedTime (Scalar.norm last / Scalar.sixty) (f / Scalar.sixty)
      (Scalar.maxOf ramps) travel, feeds)
  | none => return (Scalar.maxOf (← rapidTimes last travels feeds ramps), feeds)

/-- The time of a move and the axis feeds that it ends with. -/
def duration (c : Config α) (s : Settings α) (last : Option (List α)) (travels : List α)
    (travel : α) (feed : Option α) : Option (α × Option (List α)) :=
  if travel ≤ 0 then some (0, last)
  else
    let before := last.getD (travels.map fun _ => 0)
    match feed.filter (0 < ·), s.inverseFeed with
    | some f, true => do
      let time ← inverseTime c s.units travels f
      return (time, some (Timing.feedsOver travels time))
    | feed, _ => do
      let (time, feeds) ← timed c s.units before travels travel feed
      return (time, some feeds)

/-! ### Checked moves -/

/-- The position that a move ends at. -/
def destination (s : State α) (targets : List (Option α)) : Option (List α) :=
  collect s.axes.length fun axis =>
    match targets[axis]?.join with
    | some target => some target
    | none => s.work[axis]?

/-- The envelope after a move of `n` axes: the start and the end of each named axis are
observed in both frames, and the axis is marked. -/
def addMove (n : Nat) (e : Envelope α) (targets : List (Option α))
    (work work' machine machine' : List α) : Option (Envelope α) :=
  forAxes n e fun e axis =>
    match targets[axis]?.join with
    | some _ => do
      let here ← work[axis]?
      let there ← work'[axis]?
      let machineHere ← machine[axis]?
      let machineThere ← machine'[axis]?
      let moved ← write e.moved axis true
      return ⟨(e.work.widen axis here).widen axis there,
        (e.machine.widen axis machineHere).widen axis machineThere, moved⟩
    | none => some e

/-- Carries out a move and records it. -/
def perform (c : Config α) (s : State α) (motion : Motion) (targets : List (Option α))
    (feed : Option α) (travel : Option α) (geometry : Geometry α) :
    Option (State α × Event α) := do
  let work ← destination s targets
  let travels := s.axisTravels work
  let (time, axisFeeds) ←
    duration c s.settings s.axisFeeds travels (travel.getD (Scalar.norm travels)) feed
  let time := Scalar.max time c.minMoveTime
  let machine := s.frame.toMachine work
  let envelope ← addMove s.axes.length s.envelope targets s.work work s.machine machine
  let s' := { s with work, machine, envelope, axisFeeds, totalTime := s.totalTime + time }
  return (s', s.event s' motion geometry time)

/-- Carries out a straight move. -/
def straight (c : Config α) (s : State α) (motion : Motion) (targets : List (Option α))
    (feed : Option α) (notes : List (Note α)) : Option (Performed α) := do
  let r ← perform c s motion targets feed none .line
  return ⟨r.1, [r.2], notes⟩

/-- The distance that an arc travels along the normal of its plane. -/
def helicalTravel (s : State α) (normal : Option Nat) (finish : List α) : Option α :=
  match normal with
  | some axis => do return (← finish[axis]?) - (← s.work[axis]?)
  | none => some 0

/-- Carries out an arc whose plane and centre are known. -/
def arcWith (c : Config α) (s : State α) (motion : Motion) (targets : List (Option α))
    (first second : Nat) (centre : Centre α) : Option (Performed α) := do
  let finish ← destination s targets
  let arc := PlaneArc.resolve ⟨← s.work[first]?, ← s.work[second]?⟩
    ⟨← finish[first]?, ← finish[second]?⟩ centre (motion = .arcClockwise) s.catalogue.lines
  let position ← write (← write s.work first arc.1.centre.x) second arc.1.centre.y
  let helical ← helicalTravel s (s.axisIndex? s.settings.plane.normal) finish
  let travel := if c.arcLengthTravel then some (arc.1.length helical) else none
  let r ← perform c s motion targets s.feed? travel
    (.arc position (s.frame.toMachine position) arc.1.clockwise s.settings.plane)
  return ⟨r.1, [r.2], s.feedNotes ++ arc.2⟩

/-- Carries out an arc. -/
def arc (c : Config α) (s : State α) (b : Block α) (motion : Motion)
    (targets : List (Option α)) : Option (Performed α) :=
  let plane := s.settings.plane
  match s.axisIndex? plane.first, s.axisIndex? plane.second with
  | some first, some second =>
    match State.centre? plane b with
    | some centre => arcWith c s motion targets first second centre
    | none => straight c s motion targets s.feed? (s.feedNotes ++ [s.noCentre motion])
  | none, _ => straight c s motion targets s.feed? (s.feedNotes ++ [s.noAxis plane.first])
  | some _, none => straight c s motion targets s.feed? (s.feedNotes ++ [s.noAxis plane.second])

/-- Carries out a return to a reference position. -/
def goHome (c : Config α) (s : State α) (motion : Motion) (targets : List (Option α))
    (reference : List α) : Option (Performed α) :=
  if anyNamed targets then do
    let via ← perform c s motion targets none none .line
    let last ← perform c via.1 motion ((via.1.frame.toWork reference).map some) none none .line
    return ⟨last.1, [via.2, last.2], []⟩
  else straight c s motion ((s.frame.toWork reference).map some) none []

/-- Carries out a motion; one that is not supported gives nothing back. -/
def runMotion? (c : Config α) (s : State α) (b : Block α) (motion : Motion)
    (targets : List (Option α)) : Option (Option (Performed α)) :=
  match motion with
  | .rapid => (straight c s motion targets none []).map some
  | .linear => (straight c s motion targets s.feed? s.feedNotes).map some
  | .arcClockwise | .arcCounterclockwise => (arc c s b motion targets).map some
  | .home => (goHome c s motion targets s.home).map some
  | .secondaryHome => (goHome c s motion targets s.secondaryHome).map some
  | .unsupported _ => some none

/-! ### Checked lines -/

/-- What a prepared line does. -/
def step (c : Config α) (s : State α) (b : Block α) : Option (State.Outcome α) :=
  let codes := b.codes 'G'
  match Action.ofCodes? codes with
  | some action => do
    let s' ← act s b action
    return s'.idle action.changesFrame (actionNotes s.catalogue.lines s b action)
  | none =>
    match s.blockMotion? b with
    | some motion => do
      let s := s.selectMotion codes
      match ← runMotion? c s b motion (s.blockTargets b) with
      | some p => return ⟨p.state, some motion, true, false, p.events, p.notes⟩
      | none => return ⟨s, some motion, false, false, [],
          [.skipped (.unsupportedMotion s.catalogue.lines motion.text b.source)]⟩
    | none => some (s.step c b)

/-- Evaluates one line. Counting it, its modal words and the end of a program use no
index. -/
def evaluate (c : Config α) (s : State α) (b : Block α) : Option (Evaluation α) := do
  let prepared := s.prepare b
  let outcome ← step c prepared b
  let final := outcome.state.finish b
  return {
    state := final
    result := {
      isMotion := outcome.isMotion
      motion := outcome.motion
      changedFrame := modalChangesFrame b || outcome.changedFrame || endsProgram (b.codes 'M')
      time := final.totalTime - s.totalTime
      events := outcome.events }
    notes := modalNotes prepared.catalogue.lines b ++ outcome.notes }

end Checked

end DryRun
