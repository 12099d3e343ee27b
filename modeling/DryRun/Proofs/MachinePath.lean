import DryRun.Number.Double
import DryRun.Proofs.Run
import Mathlib.Data.List.Chain

/-!
# The path of the machine

The events of a run, taken together, are one path of the machine: each move starts where the
one before ended. This module proves it exactly, as an equation of positions and not up to
rounding, and says what can stand between two moves.

* In machine coordinates only a homing line does: it sets the axes that it names to zero
  (`homed`). Changing the frame, storing a reference and ending the program do not move the
  machine.
* In work coordinates the next move starts where the one before ended as long as no line in
  between changes the frame or homes an axis (`Quiet`).

The events of one line form a `Path` in the frame that its modal words leave in force
(`evaluate_traced`); the paths of the lines are then joined along the run
(`head_eventLog`, `isChain_eventLog`).
-/

namespace DryRun

variable {α : Type}

/-! ### The log of a run -/

/-- The events of a record in order, each with the index of its line. -/
def eventLog : List (Block α × LineResult α) → List (Nat × Event α)
  | [] => []
  | line :: lines =>
    line.2.events.map (fun e => (0, e)) ++ (eventLog lines).map fun x => (x.1 + 1, x.2)

/-- The log holds the events of all lines, in order. -/
theorem map_snd_eventLog (lines : List (Block α × LineResult α)) :
    (eventLog lines).map Prod.snd = lines.flatMap fun line => line.2.events := by
  induction lines with
  | nil => rfl
  | cons line lines ih =>
      rw [eventLog, List.map_append, List.map_map, List.map_map, List.flatMap_cons, ← ih]
      congr 1
      exact List.map_id _

/-- The log gives every event the index of the line that made it. -/
theorem mem_eventLog {lines : List (Block α × LineResult α)} {x : Nat × Event α} :
    x ∈ eventLog lines ↔ ∃ line, lines[x.1]? = some line ∧ x.2 ∈ line.2.events := by
  obtain ⟨k, e⟩ := x
  induction lines generalizing k with
  | nil => simp [eventLog]
  | cons line lines ih =>
      cases k with
      | zero => simp [eventLog]
      | succ k => simp [eventLog, ih]

/-- The first event of a log comes from the first line or is the first event of the rest. -/
theorem head?_eventLog_cons (line : Block α × LineResult α)
    (lines : List (Block α × LineResult α)) {x : Nat × Event α}
    (hx : x ∈ (eventLog (line :: lines)).head?) :
    (x.1 = 0 ∧ x.2 ∈ line.2.events.head?) ∨
      (line.2.events = [] ∧ ∃ y ∈ (eventLog lines).head?, x = (y.1 + 1, y.2)) := by
  rw [eventLog] at hx
  cases hevents : line.2.events with
  | nil =>
      rw [hevents, List.map_nil, List.nil_append, List.head?_map, Option.mem_def,
        Option.map_eq_some_iff] at hx
      obtain ⟨y, hy, rfl⟩ := hx
      exact .inr ⟨rfl, y, hy, rfl⟩
  | cons e events =>
      rw [hevents, List.map_cons, List.cons_append, List.head?_cons, Option.mem_some] at hx
      obtain rfl := hx
      exact .inl ⟨rfl, rfl⟩

/-! ### Lines that home axes -/

variable [Scalar α]

/-- Whether a line homes the axes that it names. -/
def Block.homes (b : Block α) : Bool := decide (Action.ofCodes? (b.codes 'G') = some .homeAxes)

/-- A machine position after some lines, as far as homing goes: an axis that one of them homes
is at zero, the others are where they were. -/
def homed (axes : List Char) (bs : List (Block α)) (machine : List α) : List α :=
  machine.mapIdx fun axis here =>
    if bs.any fun b => b.homes && b.names axes axis then 0 else here

/-- Lines that do not home leave the machine where it is. -/
theorem homed_of_not_homes {bs : List (Block α)} (h : ∀ b ∈ bs, b.homes = false)
    (axes : List Char) (machine : List α) : homed axes bs machine = machine := by
  have hany (axis : Nat) : (bs.any fun b => b.homes && b.names axes axis) = false := by
    rw [List.any_eq_false]
    intro b hb
    simp [h b hb]
  refine List.ext_getElem? fun axis => ?_
  simp [homed, hany]

@[simp] theorem homed_nil (axes : List Char) (machine : List α) :
    homed axes [] machine = machine :=
  homed_of_not_homes (by simp) axes machine

/-- A line that does not home leaves the machine where it is. -/
theorem homed_singleton_of_not_homes {b : Block α} (h : b.homes = false) (axes : List Char)
    (machine : List α) : homed axes [b] machine = machine :=
  homed_of_not_homes (by simpa using h) axes machine

/-- Homing can be followed line by line. -/
theorem homed_append (axes : List Char) (bs bs' : List (Block α)) (machine : List α) :
    homed axes (bs ++ bs') machine = homed axes bs' (homed axes bs machine) := by
  rw [homed, homed, homed, List.mapIdx_mapIdx]
  congr 1
  funext axis here
  rw [Function.comp_apply, List.any_append]
  cases bs'.any fun b => b.homes && b.names axes axis with
  | true => rw [Bool.or_true, if_pos rfl, if_pos rfl]
  | false => rw [Bool.or_false, if_neg Bool.false_ne_true]

namespace State

/-- Of all actions only homing moves the machine. -/
theorem machine_act (s : State α) {b : Block α} {a : Action}
    (ha : Action.ofCodes? (b.codes 'G') = some a) :
    (s.act b a).machine = homed s.axes [b] s.machine := by
  have hb : b.homes = decide (a = .homeAxes) := by simp [Block.homes, ha]
  cases a with
  | homeAxes => simp [act, homeAxes, deriveWork, homed, hb, isSome_join_axisWords]
  | setSystem =>
      obtain ⟨frame, work, h⟩ := setSystem_eq s b
      rw [homed_singleton_of_not_homes hb, act, h]
  | origin command =>
      obtain ⟨frame, work, h⟩ := applyOrigin_eq s (axisWords s.axes b) command
      rw [homed_singleton_of_not_homes hb, act, h]
  | storeHome | storeSecondaryHome => rw [homed_singleton_of_not_homes hb, act]

/-- An action that neither changes the frame nor homes keeps the work position. -/
theorem work_act (s : State α) {b : Block α} {a : Action}
    (ha : Action.ofCodes? (b.codes 'G') = some a) (hframe : a.changesFrame = false)
    (hb : b.homes = false) : (s.act b a).work = s.work := by
  cases a with
  | setSystem | origin _ => simp [Action.changesFrame] at hframe
  | homeAxes => simp [Block.homes, ha] at hb
  | storeHome | storeSecondaryHome => rfl

end State

/-! ### The path of a line -/

/-- **Paths.** Moves in one frame, from a work and a machine position to others, each of which
starts where the one before ended. -/
inductive Path (f : Frame α) : List α → List α → List (Event α) → List α → List α → Prop
  | nil (work machine : List α) : Path f work machine [] work machine
  | cons {e : Event α} {events : List (Event α)} {work machine : List α}
      (htarget : e.machineTarget = f.toMachine e.target)
      (hpath : Path f e.target e.machineTarget events work machine) :
      Path f e.source e.machineSource (e :: events) work machine

namespace Path

variable {f : Frame α} {work machine work' machine' : List α} {events : List (Event α)}

/-- A path without moves stays where it is. -/
theorem eq_of_nil (h : Path f work machine [] work' machine') :
    work' = work ∧ machine' = machine := by
  cases h with
  | nil => exact ⟨rfl, rfl⟩

/-- A path begins at its first position. -/
theorem head (h : Path f work machine events work' machine') :
    ∀ e ∈ events.head?, e.source = work ∧ e.machineSource = machine := by
  cases h with
  | nil => simp
  | cons htarget hpath => simp

/-- A path ends at its last position. -/
theorem getLast (h : Path f work machine events work' machine') :
    ∀ e ∈ events.getLast?, e.target = work' ∧ e.machineTarget = machine' := by
  induction h with
  | nil => simp
  | @cons e events work machine htarget hpath ih =>
      cases events with
      | nil =>
          obtain ⟨rfl, rfl⟩ := hpath.eq_of_nil
          simp
      | cons e' events => rwa [List.getLast?_cons_cons]

/-- Along a path each move starts where the one before ended. -/
theorem isChain (h : Path f work machine events work' machine') :
    events.IsChain fun e e' => e'.machineSource = e.machineTarget ∧ e'.source = e.target := by
  induction h with
  | nil => exact .nil
  | cons htarget hpath ih =>
      refine List.isChain_cons.2 ⟨?_, ih⟩
      intro e' he'
      exact (hpath.head e' he').symm

/-- Along a path the ends of a move are one point in two frames. -/
theorem machineTarget (h : Path f work machine events work' machine') :
    ∀ e ∈ events, e.machineTarget = f.toMachine e.target := by
  induction h with
  | nil => simp
  | cons htarget hpath ih => exact List.forall_mem_cons.2 ⟨htarget, ih⟩

end Path

namespace State

/-- A chain of moves is a path in the frame of its first state, and names the same axes. -/
theorem Performs.path {c : Config α} {s s' : State α}
    {moves : List (List (Option α) × Event α)} (h : Performs c s moves s') :
    Path s.frame s.work s.machine (moves.map Prod.snd) s'.work s'.machine ∧
      s'.axes = s.axes := by
  induction h with
  | done s => exact ⟨.nil _ _, rfl⟩
  | @move s s' targets moves motion feed travel geometry hleg hmoves ih =>
      have hpath := Path.cons (e := (s.perform c motion targets feed travel geometry).2) rfl ih.1
      exact ⟨hpath, ih.2⟩

/-- What the events of a prepared line say about the state after it. -/
structure Outcome.Traced (s : State α) (b : Block α) (o : Outcome α) (work machine : List α) :
    Prop where
  path : Path s.frame s.work s.machine o.events work machine
  axes : o.state.axes = s.axes
  machine_eq : o.state.machine = homed s.axes [b] machine
  work_eq : o.changedFrame = false → b.homes = false → o.state.work = work
  still : o.changedFrame = true ∨ b.homes = true → o.events = []

/-- What a prepared line does is traced by its events. -/
theorem step_traced (c : Config α) (s : State α) (b : Block α) :
    ∃ work machine, (s.step c b).Traced s b work machine := by
  have hstep := step_stepped c s b
  generalize s.step c b = o at hstep
  -- a line without an action does not home
  have hhomes (ha : Action.ofCodes? (b.codes 'G') = none) : b.homes = false := by
    simp [Block.homes, ha]
  cases hstep with
  | action a notes ha =>
      obtain ⟨work, machine, frame, home, secondaryHome, hact⟩ := act_eq s b a
      refine ⟨s.work, s.machine, .nil _ _, ?_, machine_act s ha, work_act s ha, fun _ => rfl⟩
      simp only [idle, hact]
  | motion m p ha hm hp =>
      obtain ⟨moves, hperf, hevents, -⟩ := hp
      obtain ⟨hpath, haxes⟩ := hperf.path
      rw [← hevents] at hpath
      refine ⟨p.state.work, p.state.machine, hpath, haxes, ?_, fun _ _ => rfl, ?_⟩
      · exact (homed_singleton_of_not_homes (hhomes ha) _ _).symm
      · simp [hhomes ha]
  | skipped code notes ha hm =>
      refine ⟨s.work, s.machine, .nil _ _, rfl, ?_, fun _ _ => rfl, fun _ => rfl⟩
      exact (homed_singleton_of_not_homes (hhomes ha) _ _).symm
  | nothing notes ha hm =>
      refine ⟨s.work, s.machine, .nil _ _, rfl, ?_, fun _ _ => rfl, fun _ => rfl⟩
      exact (homed_singleton_of_not_homes (hhomes ha) _ _).symm

end State

/-- A line that neither changes the frame nor homes an axis. -/
def Quiet (line : Block α × LineResult α) : Prop :=
  line.2.changedFrame = false ∧ line.1.homes = false

/-- What the events of a line say about the states before and after it. -/
structure Traced (c : Config α) (s : State α) (b : Block α) (work machine : List α) : Prop where
  path : Path (s.prepare b).frame (s.prepare b).work s.machine (evaluate c s b).result.events
    work machine
  axes : (evaluate c s b).state.axes = s.axes
  machine_eq : (evaluate c s b).state.machine = homed s.axes [b] machine
  work_eq_of_quiet : Quiet (b, (evaluate c s b).result) →
    (s.prepare b).work = s.work ∧ (evaluate c s b).state.work = work
  work_eq_of_moved : (evaluate c s b).result.events ≠ [] → endsProgram (b.codes 'M') = false →
    (evaluate c s b).state.work = work
  not_homes_of_moved : (evaluate c s b).result.events ≠ [] → b.homes = false

/-- **A line is traced by its events**: they are a path from where its modal words leave the
machine, and the line ends where they do, unless it homes, changes the frame or ends the
program. -/
theorem evaluate_traced (c : Config α) (s : State α) (b : Block α) :
    ∃ work machine, Traced c s b work machine := by
  obtain ⟨work, machine, h⟩ := State.step_traced c (s.prepare b) b
  have haxes := State.axes_prepare s b
  obtain ⟨frame', finalWork, axisFeeds, hend⟩ :=
    State.finish_eq ((s.prepare b).step c b).state b
  have hfinish (hb : endsProgram (b.codes 'M') = false) :
      (evaluate c s b).state = ((s.prepare b).step c b).state := by
    simp [evaluate, State.finish, hb]
  refine ⟨work, machine, ?_, ?_, ?_, ?_, ?_, ?_⟩
  · rw [← State.machine_prepare s b]
    exact h.path
  · rw [← haxes, ← h.axes]
    exact congrArg Pose.axes hend
  · rw [← haxes, ← h.machine_eq]
    exact State.machine_finish _ b
  · rintro ⟨hchanged, hhomes⟩
    simp only [evaluate, Bool.or_eq_false_iff] at hchanged
    obtain ⟨⟨hmodal, hstep⟩, hends⟩ := hchanged
    refine ⟨congrArg Pose.work (State.pose_prepare_of_not_changesFrame hmodal s), ?_⟩
    rw [hfinish hends]
    exact h.work_eq hstep hhomes
  · intro hevents hends
    rw [hfinish hends]
    refine h.work_eq ?_ ?_
    · exact Bool.eq_false_iff.2 fun hstep => hevents (h.still (.inl hstep))
    · exact Bool.eq_false_iff.2 fun hhomes => hevents (h.still (.inr hhomes))
  · intro hevents
    exact Bool.eq_false_iff.2 fun hhomes => hevents (h.still (.inr hhomes))

/-! ### The path of a run -/

/-- The first event of a run starts where the run does. -/
theorem head_eventLog (c : Config α) (s : State α) (bs : List (Block α)) :
    ∀ x ∈ (eventLog (s.record c bs)).head?,
      x.2.machineSource = homed s.axes (bs.take x.1) s.machine ∧
      ((∀ line ∈ (s.record c bs).take (x.1 + 1), Quiet line) → x.2.source = s.work) := by
  induction bs generalizing s with
  | nil => simp [eventLog]
  | cons b bs ih =>
      obtain ⟨work, machine, h⟩ := evaluate_traced c s b
      intro x hx
      rcases head?_eventLog_cons _ _ hx with ⟨hzero, hhead⟩ | ⟨hnil, y, hy, rfl⟩
      · obtain ⟨hsource, hmachine⟩ := h.path.head x.2 hhead
        rw [hzero, hmachine, List.take_zero, homed_nil]
        refine ⟨rfl, fun hquiet => ?_⟩
        obtain ⟨hprep, -⟩ := h.work_eq_of_quiet (hquiet _ (by simp))
        rw [hsource, hprep]
      · -- the line made no move: what it left behind is where it found the machine
        have hpath := h.path
        rw [hnil] at hpath
        obtain ⟨hwork, hmachine⟩ := hpath.eq_of_nil
        obtain ⟨ihmachine, ihwork⟩ := ih _ y hy
        constructor
        · rw [ihmachine, h.axes, h.machine_eq, hmachine, ← homed_append]
          rfl
        · intro hquiet
          rw [State.record_cons, List.take_succ_cons, List.forall_mem_cons] at hquiet
          obtain ⟨hprep, hstate⟩ := h.work_eq_of_quiet hquiet.1
          rw [ihwork hquiet.2, hstate, hwork, hprep]

/-- **Each event of a run starts where the one before ended**, but for the axes that lines in
between home; and also in work coordinates, if the earlier line does not end the program and
the later ones are quiet. -/
theorem isChain_eventLog (c : Config α) (s : State α) (bs : List (Block α)) :
    (eventLog (s.record c bs)).IsChain fun x y =>
      y.2.machineSource = homed s.axes ((bs.take y.1).drop (x.1 + 1)) x.2.machineTarget ∧
      ((∀ b, bs[x.1]? = some b → endsProgram (b.codes 'M') = false) →
        (∀ line ∈ ((s.record c bs).take (y.1 + 1)).drop (x.1 + 1), Quiet line) →
        y.2.source = x.2.target) := by
  induction bs generalizing s with
  | nil => exact .nil
  | cons b bs ih =>
      obtain ⟨work, machine, h⟩ := evaluate_traced c s b
      rw [State.record_cons, eventLog, List.isChain_append, List.isChain_map, List.isChain_map]
      refine ⟨?_, ?_, ?_⟩
      · refine h.path.isChain.imp fun e e' he => ⟨?_, fun _ _ => he.2⟩
        rw [List.take_zero, List.drop_nil, homed_nil]
        exact he.1
      · rw [← h.axes]
        exact ih (evaluate c s b).state
      · intro x hx y hy
        rw [List.getLast?_map, Option.mem_def, Option.map_eq_some_iff] at hx
        rw [List.head?_map, Option.mem_def, Option.map_eq_some_iff] at hy
        obtain ⟨e, he, rfl⟩ := hx
        obtain ⟨y, hy, rfl⟩ := hy
        have hmoved : (evaluate c s b).result.events ≠ [] := by
          rintro hnil
          simp [hnil] at he
        obtain ⟨htarget, hmachine⟩ := h.path.getLast e he
        obtain ⟨hhead, hwork⟩ := head_eventLog c (evaluate c s b).state bs y hy
        constructor
        · rw [hhead, h.axes, h.machine_eq, hmachine,
            homed_singleton_of_not_homes (h.not_homes_of_moved hmoved)]
          rfl
        · intro hends hquiet
          rw [hwork hquiet, h.work_eq_of_moved hmoved (hends b rfl), htarget]

/-- Each event of a run ends at one point in both frames, as the frame that the modal words
of its line leave in force has it. -/
theorem machineTarget_eventLog (c : Config α) (s : State α) (bs : List (Block α)) :
    ∀ x ∈ eventLog (s.record c bs), ∃ b, bs[x.1]? = some b ∧
      x.2 ∈ (evaluate c (s.run c (bs.take x.1)) b).result.events ∧
      x.2.machineTarget = ((s.run c (bs.take x.1)).prepare b).frame.toMachine x.2.target := by
  intro x hx
  obtain ⟨line, hline, hmem⟩ := mem_eventLog.1 hx
  rw [State.getElem?_record, Option.map_eq_some_iff] at hline
  obtain ⟨b, hb, rfl⟩ := hline
  obtain ⟨work, machine, h⟩ := evaluate_traced c (s.run c (bs.take x.1)) b
  exact ⟨b, hb, hmem, h.path.machineTarget x.2 hmem⟩

namespace State

/-- **The events of a run are one path of the machine.** In every run from an accepted
configuration, the first event starts at the first machine position and every other one where
the event before it ended, but for the axes that a line in between homes, which start at
zero. Each event ends at one point in both frames. In work coordinates, too, an event starts
where the one before it ended, if the line of that one does not end the program and the lines
after it, up to the line of the event, are quiet. -/
theorem events_continuous {c : Config α} (hc : c.validate = .ok ()) :
    ∃ s₀, start? c = .ok s₀ ∧ ∀ bs : List (Block α),
      (eventLog (s₀.record c bs)).map Prod.snd =
        (s₀.record c bs).flatMap (fun line => line.2.events) ∧
      (∀ x ∈ (eventLog (s₀.record c bs)).head?,
        x.2.machineSource = homed s₀.axes (bs.take x.1) s₀.machine) ∧
      ((eventLog (s₀.record c bs)).IsChain fun x y =>
        y.2.machineSource = homed s₀.axes ((bs.take y.1).drop (x.1 + 1)) x.2.machineTarget) ∧
      (∀ x ∈ eventLog (s₀.record c bs), ∃ b, bs[x.1]? = some b ∧
        x.2 ∈ (evaluate c (s₀.run c (bs.take x.1)) b).result.events ∧
        x.2.machineTarget = ((s₀.run c (bs.take x.1)).prepare b).frame.toMachine x.2.target) ∧
      (eventLog (s₀.record c bs)).IsChain fun x y =>
        (∀ b, bs[x.1]? = some b → endsProgram (b.codes 'M') = false) →
        (∀ line ∈ ((s₀.record c bs).take (y.1 + 1)).drop (x.1 + 1), Quiet line) →
        y.2.source = x.2.target := by
  refine ⟨start c, start?_of_validate hc, fun bs => ?_⟩
  have hhead := head_eventLog c (start c) bs
  have hchain := isChain_eventLog c (start c) bs
  refine ⟨map_snd_eventLog _, ?_, ?_, machineTarget_eventLog c _ bs, ?_⟩
  · intro x hx
    exact (hhead x hx).1
  · exact hchain.imp fun x y h => h.1
  · exact hchain.imp fun x y h => h.2

/-- A program that moves, shifts the origin, homes an axis and moves again. -/
def homingProgram : List (Block Float) :=
  [.ofWords [⟨'G', 1⟩, ⟨'X', 2⟩, ⟨'Y', 5⟩, ⟨'F', 100⟩], .ofWords [⟨'G', 92⟩, ⟨'Y', 1⟩],
    .ofWords [⟨'G', 28.2⟩, ⟨'X', 0⟩], .ofWords [⟨'G', 0⟩, ⟨'Z', 3⟩]]

/-- Between the two events of the program above one axis is homed and the others stay. -/
theorem events_continuous_homing :
    (Config.standard : Config Float).validate = .ok () ∧
      ∃ s₀ log, start? Config.standard = .ok s₀ ∧
        log = eventLog (s₀.record .standard homingProgram) ∧
        (log.map fun x => (x.1, x.2.machineSource, x.2.machineTarget)) =
          [(0, [0, 0, 0], [2, 5, 0]), (3, [0, 5, 0], [0, 5, 3])] ∧
        log.IsChain fun x y => y.2.machineSource =
          homed s₀.axes ((homingProgram.take y.1).drop (x.1 + 1)) x.2.machineTarget := by
  have hc : (Config.standard : Config Float).validate = .ok () := by decide +kernel
  obtain ⟨s₀, hstart, hrun⟩ := events_continuous hc
  obtain rfl : start Config.standard = s₀ :=
    Except.ok.inj ((start?_of_validate hc).symm.trans hstart)
  obtain ⟨-, -, hchain, -, -⟩ := hrun homingProgram
  exact ⟨hc, _, _, hstart, rfl, by decide +kernel, hchain⟩

end State

end DryRun
