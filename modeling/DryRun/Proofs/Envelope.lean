import DryRun.Number.Double
import DryRun.Proofs.Bounds
import DryRun.Proofs.Shape

/-!
# The envelope of a run

The envelope of a machine is updated move by move, from the targets that a line names. This
module says what it amounts to in terms of the events alone: it is the envelope of the ends
of those events that *specify* an axis (`specified`), which are the events of a line that has
a word for the axis, and the last event of a return to a reference position.

## Main results

* `State.run_records`: after every run the envelope records the values that its events
  visit, in their order (`Envelope.Records`).
* `State.envelope_exact`: so on every axis the bounds are the least and the greatest visited
  value, if all of them are numbers, and an axis has moved if and only if a value was visited
  on it.
-/

namespace DryRun

variable {α : Type}

/-! ### What a record visits -/

/-- The start and the end of a move, in work coordinates. -/
def Event.workEnds (e : Event α) : List (List α) := [e.source, e.target]

/-- The start and the end of a move, in machine coordinates. -/
def Event.machineEnds (e : Event α) : List (List α) := [e.machineSource, e.machineTarget]

/-- The events of a line that specify an axis: all of them if it names the axis, and otherwise
only the return to a reference position, which comes last. -/
def specified (axes : List Char) (line : Block α × LineResult α) (axis : Nat) :
    List (Event α) :=
  if line.1.names axes axis then line.2.events
  else if line.2.motion.any Motion.isReturn then line.2.events.getLast?.toList
  else []

/-- The values that events visit on an axis, in order. -/
def endsOn (ends : Event α → List (List α)) (axis : Nat) (events : List (Event α)) : List α :=
  events.flatMap fun e => (ends e).filterMap (·[axis]?)

/-- The values that a record visits on an axis: those of the events that specify it. -/
def visited (ends : Event α → List (List α)) (axes : List Char)
    (lines : List (Block α × LineResult α)) (axis : Nat) : List α :=
  lines.flatMap fun line => endsOn ends axis (specified axes line axis)

/-- What the first line visits comes first. -/
theorem visited_cons (ends : Event α → List (List α)) (axes : List Char)
    (line : Block α × LineResult α) (lines : List (Block α × LineResult α)) (axis : Nat) :
    visited ends axes (line :: lines) axis =
      visited ends axes [line] axis ++ visited ends axes lines axis := by
  simp [visited]

/-- A line without events visits nothing. -/
theorem visited_singleton_of_idle {line : Block α × LineResult α} (h : line.2.events = [])
    (ends : Event α → List (List α)) (axes : List Char) (axis : Nat) :
    visited ends axes [line] axis = [] := by
  simp [visited, specified, endsOn, h]

/-- On an axis of both ends, a move observes its ends if it names the axis. -/
theorem movePoints_eq (targets : List (Option α)) {start finish : List α} {axis : Nat}
    (hstart : axis < start.length) (hfinish : axis < finish.length) :
    movePoints targets start finish axis =
      if (targets[axis]?.join).isSome then [start, finish].filterMap (·[axis]?) else [] := by
  cases htarget : targets[axis]?.join with
  | none => exact movePoints_of_unnamed htarget start finish
  | some target =>
      rw [movePoints_of_named htarget (List.getElem?_eq_getElem hstart)
        (List.getElem?_eq_getElem hfinish)]
      simp [hstart, hfinish]

/-- The values on an axis at the ends of those moves that name it. -/
def namedEnds (ends : Event α → List (List α)) (axis : Nat)
    (moves : List (List (Option α) × Event α)) : List α :=
  moves.flatMap fun m =>
    if (m.1[axis]?.join).isSome then (ends m.2).filterMap (·[axis]?) else []

/-- The values of the first move come first. -/
theorem namedEnds_cons (ends : Event α → List (List α)) (axis : Nat)
    (m : List (Option α) × Event α) (moves : List (List (Option α) × Event α)) :
    namedEnds ends axis (m :: moves) = namedEnds ends axis [m] ++ namedEnds ends axis moves := by
  simp [namedEnds]

/-- A move to a reference position adds its ends on all axes. -/
theorem namedEnds_map_some {position : List α} {axis : Nat} (h : axis < position.length)
    (ends : Event α → List (List α)) (e : Event α) :
    namedEnds ends axis [(position.map some, e)] = endsOn ends axis [e] := by
  simp [namedEnds, endsOn, h]

namespace State

/-- The reference positions have a coordinate for each axis. -/
theorem length_reference? {c : Config α} {s : State α} (hs : s.pose.Shaped c) {m : Motion}
    {reference : List α} (h : s.reference? m = some reference) :
    reference.length = c.axisCount := by
  cases m with
  | home => exact Option.some.inj h ▸ hs.home
  | secondaryHome => exact Option.some.inj h ▸ hs.secondaryHome
  | rapid | linear | arcClockwise | arcCounterclockwise | unsupported _ =>
      simp [reference?] at h

end State

/-! ### Envelopes of values -/

variable [Scalar α]

/-- Bounds that come from observing some values, in order, on an axis. -/
structure Bounds.Records (b : Bounds α) (axis : Nat) (values : List α) : Prop where
  min : b.min[axis]? = some (values.foldl lower none)
  max : b.max[axis]? = some (values.foldl upper none)

/-- An envelope that comes from being at some values, in order, on an axis. -/
structure Envelope.Records (e : Envelope α) (axis : Nat) (values machineValues : List α) :
    Prop where
  work : e.work.Records axis values
  machine : e.machine.Records axis machineValues
  moved : e.moved[axis]? = some (!values.isEmpty)

/-- Further values are observed after those before. -/
theorem Bounds.Records.observe {b : Bounds α} {axis : Nat} {values : List α}
    (h : b.Records axis values) (f : Nat → List α) :
    (b.observe f).Records axis (values ++ f axis) := by
  constructor
  · rw [getElem?_observe_min, h.min, List.foldl_append, Option.map_some]
  · rw [getElem?_observe_max, h.max, List.foldl_append, Option.map_some]

namespace Envelope

/-- The envelope of no motion records nothing. -/
theorem records_empty {n axis : Nat} (haxis : axis < n) :
    (empty n : Envelope α).Records axis [] [] := by
  have hnone : (List.replicate n (none : Option α))[axis]? = some none := by
    rw [List.getElem?_replicate, if_pos haxis]
  refine ⟨⟨hnone, hnone⟩, ⟨hnone, hnone⟩, ?_⟩
  simp [empty, haxis]

/-- A move adds its ends on the axes that it names. -/
theorem Records.addMove {e : Envelope α} {axis : Nat} {values machineValues : List α}
    (h : e.Records axis values machineValues) (targets : List (Option α))
    (htargets : axis < targets.length) {work work' machine machine' : List α}
    (hwork : axis < work.length) (hwork' : axis < work'.length)
    (hmachine : axis < machine.length) (hmachine' : axis < machine'.length) :
    (e.addMove targets work work' machine machine').Records axis
      (values ++ if (targets[axis]?.join).isSome then [work, work'].filterMap (·[axis]?) else [])
      (machineValues ++
        if (targets[axis]?.join).isSome then [machine, machine'].filterMap (·[axis]?) else []) := by
  rw [← movePoints_eq targets hwork hwork', ← movePoints_eq targets hmachine hmachine']
  refine ⟨h.work.observe _, h.machine.observe _, ?_⟩
  rw [movePoints_eq targets hwork hwork', Envelope.addMove, List.getElem?_zipWith, h.moved,
    List.getElem?_eq_getElem htargets]
  cases targets[axis] with
  | none => simp
  | some target => simp [hwork]

end Envelope

/-! ### The values of a chain of moves -/

namespace State

variable {c : Config α} {s s' : State α} {axis : Nat}

/-- A chain of moves adds the ends of its moves on the axes that they name. -/
theorem Performs.records {moves : List (List (Option α) × Event α)}
    (hmoves : Performs c s moves s') (hs : s.pose.Shaped c) (haxis : axis < c.axisCount)
    {values machineValues : List α} (h : s.envelope.Records axis values machineValues) :
    s'.envelope.Records axis (values ++ namedEnds Event.workEnds axis moves)
      (machineValues ++ namedEnds Event.machineEnds axis moves) := by
  induction hmoves generalizing values machineValues with
  | done s =>
      rw [namedEnds, namedEnds, List.flatMap_nil, List.flatMap_nil, List.append_nil,
        List.append_nil]
      exact h
  | @move s s' targets moves motion feed travel geometry hleg hmoves ih =>
      have htargets := hs.length_leg hleg
      have hs' := hs.move htargets feed travel
      have hmove := h.addMove targets (htargets ▸ haxis) (hs.work ▸ haxis)
        (hs'.work ▸ haxis) (hs.machine ▸ haxis) (hs'.machine ▸ haxis)
      have hrest := ih hs' hmove
      rw [List.append_assoc, List.append_assoc] at hrest
      exact hrest

/-- A move to the point that a line names adds its ends on the axes that the line names. -/
theorem namedEnds_blockTargets (hs : s.pose.Shaped c) (haxis : axis < c.axisCount) (b : Block α)
    (ends : Event α → List (List α)) (e : Event α) :
    namedEnds ends axis [(s.blockTargets b, e)] =
      if b.names s.axes axis then endsOn ends axis [e] else [] := by
  have hbound : axis < (if (b.codes 'G').contains 530 then s.machine else s.work).length := by
    split
    · exact hs.machine ▸ haxis
    · exact hs.work ▸ haxis
  rw [namedEnds, List.flatMap_singleton, isSome_join_blockTargets, decide_eq_true hbound,
    Bool.and_true, endsOn, List.flatMap_singleton]

/-- **The moves of a line name an axis in the events that specify it.** -/
theorem namedEnds_legs (hs : s.pose.Shaped c) (haxis : axis < c.axisCount) {b : Block α}
    {r : LineResult α} {m : Motion} {moves : List (List (Option α) × Event α)}
    (hmotion : r.motion = some m) (hevents : r.events = moves.map Prod.snd)
    (hlegs : moves.map Prod.fst = s.legs m (s.blockTargets b))
    (ends : Event α → List (List α)) :
    namedEnds ends axis moves = endsOn ends axis (specified s.axes (b, r) axis) := by
  rw [specified, hmotion, Option.any_some, ← isSome_reference? s, hevents]
  rw [legs] at hlegs
  cases href : s.reference? m with
  | none =>
      rw [href] at hlegs
      obtain ⟨⟨_, e⟩, rfl, rfl⟩ := List.map_eq_singleton_iff.1 hlegs
      rw [namedEnds_blockTargets hs haxis]
      cases b.names s.axes axis <;> rfl
  | some reference =>
      have hlength : axis < (s.frame.toWork reference).length := by
        rwa [Frame.length_toWork, length_reference? hs href]
      rw [href] at hlegs
      simp only at hlegs
      split at hlegs
      · -- the named point comes first: both events specify the axis, or only the second one
        obtain ⟨⟨_, e⟩, rest, rfl, rfl, hrest⟩ := List.map_eq_cons_iff.1 hlegs
        obtain ⟨⟨_, e'⟩, rfl, rfl⟩ := List.map_eq_singleton_iff.1 hrest
        rw [namedEnds_cons, namedEnds_blockTargets hs haxis, namedEnds_map_some hlength]
        cases b.names s.axes axis <;> simp [endsOn]
      · obtain ⟨⟨_, e⟩, rfl, rfl⟩ := List.map_eq_singleton_iff.1 hlegs
        rw [namedEnds_map_some hlength]
        cases b.names s.axes axis <;> rfl

/-- A prepared line adds the values that its events visit. -/
theorem step_records (hs : s.pose.Shaped c) (haxis : axis < c.axisCount) {b : Block α}
    {r : LineResult α} (hmotion : r.motion = (s.step c b).motion)
    (hevents : r.events = (s.step c b).events) {values machineValues : List α}
    (h : s.envelope.Records axis values machineValues) :
    (s.step c b).state.envelope.Records axis
      (values ++ visited Event.workEnds s.axes [(b, r)] axis)
      (machineValues ++ visited Event.machineEnds s.axes [(b, r)] axis) := by
  have hstep := step_stepped c s b
  generalize s.step c b = o at hstep hmotion hevents ⊢
  have hidle (henvelope : o.state.envelope = s.envelope) (hnil : r.events = []) :
      o.state.envelope.Records axis (values ++ visited Event.workEnds s.axes [(b, r)] axis)
        (machineValues ++ visited Event.machineEnds s.axes [(b, r)] axis) := by
    rw [visited_singleton_of_idle hnil, visited_singleton_of_idle hnil, List.append_nil,
      List.append_nil, henvelope]
    exact h
  cases hstep with
  | action a notes ha =>
      obtain ⟨work, machine, frame, home, secondaryHome, hact⟩ := act_eq s b a
      refine hidle ?_ hevents
      rw [idle, hact]
  | motion m p ha hm hp =>
      obtain ⟨moves, hmoves, hp, hlegs⟩ := hp
      have hrec := hmoves.records hs haxis h
      rw [visited, visited, List.flatMap_singleton, List.flatMap_singleton,
        ← namedEnds_legs hs haxis hmotion (hevents.trans hp) hlegs,
        ← namedEnds_legs hs haxis hmotion (hevents.trans hp) hlegs]
      exact hrec
  | skipped code notes ha hm => exact hidle rfl hevents
  | nothing notes ha hm => exact hidle rfl hevents

/-- **A line adds the values that its events visit**: its modal words and the end of the
program do not touch the envelope. -/
theorem evaluate_records (hs : s.pose.Shaped c) (haxis : axis < c.axisCount) (b : Block α)
    {values machineValues : List α} (h : s.envelope.Records axis values machineValues) :
    (evaluate c s b).state.envelope.Records axis
      (values ++ visited Event.workEnds s.axes [(b, (evaluate c s b).result)] axis)
      (machineValues ++ visited Event.machineEnds s.axes [(b, (evaluate c s b).result)] axis) := by
  obtain ⟨frame, work, hprep⟩ := prepare_eq s b
  have henvelope : (s.prepare b).envelope = s.envelope := congrArg Pose.envelope hprep
  obtain ⟨frame', work', axisFeeds, hend⟩ := finish_eq ((s.prepare b).step c b).state b
  have hfinish : (evaluate c s b).state.envelope = ((s.prepare b).step c b).state.envelope :=
    congrArg Pose.envelope hend
  rw [hfinish, ← axes_prepare s b]
  rw [← henvelope] at h
  exact step_records (hs.prepare b) haxis rfl rfl h

/-- **The envelope after a run records the values that its events visit.** -/
theorem run_records (hs : s.pose.Shaped c) (haxis : axis < c.axisCount) (bs : List (Block α))
    {values machineValues : List α} (h : s.envelope.Records axis values machineValues) :
    (s.run c bs).envelope.Records axis
      (values ++ visited Event.workEnds s.axes (s.record c bs) axis)
      (machineValues ++ visited Event.machineEnds s.axes (s.record c bs) axis) := by
  induction bs generalizing s values machineValues with
  | nil =>
      rw [record_nil, visited, visited, List.flatMap_nil, List.flatMap_nil, List.append_nil,
        List.append_nil]
      exact h
  | cons b bs ih =>
      have hs' := (Pose.shaped_invariant c).evaluate b hs
      have haxes : (evaluate c s b).state.axes = s.axes := hs'.axes.trans hs.axes.symm
      have hrun := ih hs' (evaluate_records hs haxis b h)
      rw [List.append_assoc, List.append_assoc, haxes, ← visited_cons, ← visited_cons] at hrun
      exact hrun

end State

/-! ### Exact bounds -/

/-- The bounds of an axis are the envelope of some values: there are none if there is no
value, and otherwise they are the least and the greatest of them. -/
structure Bounds.Encloses (b : Bounds α) (axis : Nat) (values : List α) : Prop where
  unset : values = [] → b.min[axis]? = some none ∧ b.max[axis]? = some none
  extrema : values ≠ [] → ∃ least greatest, b.min[axis]? = some (some least) ∧
    b.max[axis]? = some (some greatest) ∧ IsLeast {v | v ∈ values} least ∧
    IsGreatest {v | v ∈ values} greatest ∧ least ≤ greatest

/-- Bounds that record numbers are the envelope of them. -/
theorem Bounds.Records.encloses [Scalar.OrderedNumbers α] {b : Bounds α} {axis : Nat}
    {values : List α} (h : b.Records axis values)
    (hn : ∀ v ∈ values, Scalar.isNaN v = false) : b.Encloses axis values := by
  constructor
  · rintro rfl
    exact ⟨h.min, h.max⟩
  · intro hne
    obtain ⟨least, hmin, hleast⟩ := isLeast_foldl_lower hne hn
    obtain ⟨greatest, hmax, hgreatest⟩ := isGreatest_foldl_upper hne hn
    refine ⟨least, greatest, ?_, ?_, hleast, hgreatest, hgreatest.2 hleast.1⟩
    · rw [h.min, hmin]
    · rw [h.max, hmax]

namespace State

/-- **The reported bounds are exactly the envelope of the emitted motion.** In every run from
an accepted configuration and on every axis, the bounds in work coordinates are the least and
the greatest of the ends of the events that specify the axis, if these are numbers; the
bounds in machine coordinates are those of the same events in machine coordinates; and the
axis is marked as moved if and only if there is such an event. -/
theorem envelope_exact [Scalar.OrderedNumbers α] {c : Config α} (hc : c.validate = .ok ()) :
    ∃ s₀, start? c = .ok s₀ ∧ ∀ (bs : List (Block α)) (axis : Nat), axis < c.axisCount →
      ((∀ v ∈ visited Event.workEnds s₀.axes (s₀.record c bs) axis, Scalar.isNaN v = false) →
        (s₀.run c bs).envelope.work.Encloses axis
          (visited Event.workEnds s₀.axes (s₀.record c bs) axis)) ∧
      ((∀ v ∈ visited Event.machineEnds s₀.axes (s₀.record c bs) axis,
          Scalar.isNaN v = false) →
        (s₀.run c bs).envelope.machine.Encloses axis
          (visited Event.machineEnds s₀.axes (s₀.record c bs) axis)) ∧
      (s₀.run c bs).envelope.moved[axis]? =
        some (!(visited Event.workEnds s₀.axes (s₀.record c bs) axis).isEmpty) := by
  refine ⟨start c, start?_of_validate hc, ?_⟩
  intro bs axis haxis
  obtain ⟨hwork, hmachine, hmoved⟩ :=
    run_records (Pose.shaped_start hc) haxis bs (Envelope.records_empty haxis)
  exact ⟨hwork.encloses, hmachine.encloses, hmoved⟩

/-- A program that moves one axis and then returns home by way of a point that names another
one. -/
def returnProgram : List (Block Float) :=
  [.ofWords [⟨'G', 1⟩, ⟨'X', 3⟩, ⟨'F', 100⟩], .ofWords [⟨'G', 28⟩, ⟨'Y', -2⟩]]

/-- The return counts for the axis that the point on its way does not name, the way to the
point does not. -/
theorem envelope_exact_return :
    (Config.standard : Config Float).validate = .ok () ∧
      ∃ s₀ : State Float, start? Config.standard = .ok s₀ ∧
        visited Event.workEnds s₀.axes (s₀.record .standard returnProgram) 0 = [0, 3, 3, 0] ∧
        (s₀.run .standard returnProgram).envelope.work.Encloses 0 [0, 3, 3, 0] ∧
        (s₀.run .standard returnProgram).envelope.moved[0]? = some true := by
  have hc : (Config.standard : Config Float).validate = .ok () := by decide +kernel
  obtain ⟨s₀, hstart, hrun⟩ := envelope_exact hc
  obtain rfl : start Config.standard = s₀ :=
    Except.ok.inj ((start?_of_validate hc).symm.trans hstart)
  have hvisited : visited Event.workEnds (start (.standard : Config Float)).axes
      ((start .standard).record .standard returnProgram) 0 = [0, 3, 3, 0] := by
    decide +kernel
  obtain ⟨hwork, -, hmoved⟩ := hrun returnProgram 0 (by decide)
  rw [hvisited] at hwork hmoved
  exact ⟨hc, _, hstart, hvisited, hwork (by decide +kernel), hmoved⟩

end State

end DryRun
