import DryRun.Proofs.Run

/-!
# The shape of a state

A state keeps more than a dozen lists that have one entry for each axis. They come from
three places: the defaults, a start state that may give only some of them, and the lists
that lines put together from older ones. `Pose.Shaped` says that all of them have the length
that the configuration asks for, and that there are exactly as many work coordinate systems
as commands to select one.

## Main results

* `Pose.shaped_start`: an accepted configuration starts with a shaped state.
* `Pose.shaped_invariant`: no part of a line changes the shape.
-/

namespace DryRun

variable {α : Type}

/-- The lists of a frame have one entry for each of `n` axes, there is an offset list for
each work coordinate system, and the active one is among them. -/
structure Frame.Shaped (n : Nat) (f : Frame α) : Prop where
  active : f.active < systemCount
  systems : f.systems.length = systemCount
  system : ∀ offsets ∈ f.systems, offsets.length = n
  offset : f.offset.length = n

/-- Bounds are kept on both sides for each of `n` axes. -/
structure Bounds.Shaped (n : Nat) (b : Bounds α) : Prop where
  min : b.min.length = n
  max : b.max.length = n

/-- The lists of an envelope have one entry for each of `n` axes. -/
structure Envelope.Shaped (n : Nat) (e : Envelope α) : Prop where
  work : e.work.Shaped n
  machine : e.machine.Shaped n
  moved : e.moved.length = n

/-- All lists of a pose have the length that the configuration asks for. -/
structure Pose.Shaped (c : Config α) (p : Pose α) : Prop where
  axes : p.axes = c.axes.map Char.toLower
  work : p.work.length = c.axisCount
  machine : p.machine.length = c.axisCount
  frame : p.frame.Shaped c.axisCount
  home : p.home.length = c.axisCount
  secondaryHome : p.secondaryHome.length = c.axisCount
  axisFeeds : ∀ feeds, p.axisFeeds = some feeds → feeds.length = c.axisCount
  envelope : p.envelope.Shaped c.axisCount

/-- The envelope of no motion is shaped. -/
theorem Envelope.shaped_empty (n : Nat) : (empty n : Envelope α).Shaped n := by
  simp only [empty, Bounds.empty]
  exact ⟨⟨List.length_replicate, List.length_replicate⟩,
    ⟨List.length_replicate, List.length_replicate⟩, List.length_replicate⟩

/-! ### Lists with one entry for each axis -/

/-- There is a word or none for each axis. -/
@[simp] theorem length_axisWords (axes : List Char) (b : Block α) :
    (axisWords axes b).length = axes.length :=
  List.length_map _

namespace Frame.Shaped

variable {n : Nat} {f : Frame α}

/-- Selecting an existing system keeps the shape of a frame. -/
theorem select (hf : f.Shaped n) {index : Nat} (h : f.hasSystem index = true) :
    Shaped n { f with active := index } := by
  have hindex : index < f.systems.length := of_decide_eq_true h
  exact ⟨hf.systems ▸ hindex, hf.systems, hf.system, hf.offset⟩

/-- New offsets of the same length keep the shape of a frame. -/
theorem modify (hf : f.Shaped n) (index : Nat) {g : List α → List α}
    (hg : ∀ offsets, (g offsets).length = offsets.length) :
    Shaped n { f with systems := f.systems.modify index g } := by
  refine ⟨hf.active, (List.length_modify ..).trans hf.systems, ?_, hf.offset⟩
  intro offsets ho
  obtain ⟨k, hk⟩ := List.mem_iff_getElem?.mp ho
  rw [List.getElem?_modify] at hk
  obtain ⟨old, hold, rfl⟩ := Option.map_eq_some_iff.mp hk
  have hlength := hf.system old (List.mem_of_getElem? hold)
  split
  · exact (hg old).trans hlength
  · exact hlength

/-- Another override offset of the same length keeps the shape of a frame. -/
theorem override (hf : f.Shaped n) {offset : List α} (ho : offset.length = n) (enabled : Bool) :
    Shaped n { f with offset, offsetEnabled := enabled } :=
  ⟨hf.active, hf.systems, hf.system, ho⟩

end Frame.Shaped

namespace Pose.Shaped

variable {c : Config α} {s : State α}

/-- There are as many axes as the configuration names. -/
theorem length_axes {p : Pose α} (h : p.Shaped c) : p.axes.length = c.axisCount := by
  rw [h.axes, List.length_map, Config.axisCount]

/-- A move ends at a position with one coordinate for each axis. -/
theorem length_destination (hs : s.pose.Shaped c) {targets : List (Option α)}
    (ht : targets.length = c.axisCount) : (s.destination targets).length = c.axisCount := by
  have hwork : s.work.length = c.axisCount := hs.work
  simp [State.destination, ht, hwork]

end Pose.Shaped

/-! ### Accepted configurations -/

namespace StartState

/-- A list that is found to have no fault has one entry for each axis. -/
theorem lengthFault?_eq_none {field : String} {n : Nat} {values : List α} :
    lengthFault? field n values = none ↔ values.length = n := by
  simp [lengthFault?]

/-- What is checked of the active work coordinate system. -/
theorem systemFault?_eq_none {i : StartState α} :
    i.systemFault? = none ↔ ∀ index, i.system = some index → index < systemCount := by
  unfold systemFault?
  split
  · next hi => simp [hi]
  · next hi => simp [hi]

/-- What is checked of the offsets of the work coordinate systems. -/
theorem systemsFault?_eq_none {i : StartState α} {n : Nat} :
    i.systemsFault? n = none ↔ ∀ systems, i.systems = some systems →
      systems.length ≤ systemCount ∧ ∀ offsets ∈ systems, offsets.length = n := by
  unfold systemsFault?
  split
  · next systems hi =>
      by_cases hcount : systemCount < systems.length
      · simp [hi, hcount, Nat.not_le.mpr hcount]
      · simp [hi, hcount, Nat.not_lt.mp hcount, lengthFault?_eq_none]
  · next hi => simp [hi]

/-- What is checked of the reference positions. -/
theorem referencesFault?_eq_none {i : StartState α} {n : Nat} :
    i.referencesFault? n = none ↔ ∀ r, i.references = some r → r.1.length = n ∧ r.2.length = n := by
  unfold referencesFault?
  split
  · next hi => simp [hi, lengthFault?_eq_none]
  · next hi => simp [hi]

/-- A start state whose lists fit `n` axes. -/
structure Fits (n : Nat) (i : StartState α) : Prop where
  system : ∀ index, i.system = some index → index < systemCount
  systems : ∀ systems, i.systems = some systems → ∀ offsets ∈ systems, offsets.length = n
  offset : ∀ offset, i.offset = some offset → offset.length = n
  references : ∀ r, i.references = some r → r.1.length = n ∧ r.2.length = n
  machine : ∀ machine, i.machine = some machine → machine.length = n

/-- A start state that gives nothing fits any number of axes. -/
theorem fits_empty (n : Nat) : Fits n (empty : StartState α) := by
  constructor <;> intro _ h <;> cases h

variable [Scalar α]

/-- A start state without a fault fits the axes. -/
theorem fits_of_fault?_eq_none {i : StartState α} {n : Nat} (h : i.fault? n = none) :
    i.Fits n := by
  simp only [fault?, Option.or_eq_none_iff, Option.bind_eq_none_iff, lengthFault?_eq_none] at h
  obtain ⟨⟨⟨⟨⟨hsystem, hsystems⟩, hoffset⟩, hreferences⟩, hmachine⟩, -⟩ := h
  exact ⟨systemFault?_eq_none.mp hsystem,
    fun systems hi => (systemsFault?_eq_none.mp hsystems systems hi).2, hoffset,
    referencesFault?_eq_none.mp hreferences, hmachine⟩

end StartState

namespace Config

variable [Scalar α]

/-- The start state of an accepted configuration fits its axes, also if there is none. -/
theorem fits_start {c : Config α} (hc : c.validate = .ok ()) :
    (c.start.getD .empty).Fits c.axisCount := by
  have h := validate_eq_ok.mp hc
  simp only [fault?, Option.or_eq_none_iff] at h
  cases hs : c.start with
  | none => exact StartState.fits_empty _
  | some i =>
      rw [hs] at h
      exact StartState.fits_of_fault?_eq_none h.2

end Config

/-! ### The state that a run starts from -/

variable [Scalar α]

/-- A list that is given or else is zero on all axes. -/
theorem length_getD_replicate {n : Nat} {given : Option (List α)}
    (h : ∀ values, given = some values → values.length = n) :
    (given.getD (List.replicate n 0)).length = n := by
  cases given with
  | none => exact List.length_replicate
  | some values => exact h values rfl

/-- The frames at power-on are shaped. -/
theorem Frame.shaped_startFrame {n : Nat} {i : StartState α} (hi : i.Fits n) :
    (State.startFrame n i).Shaped n where
  active := by
    change i.system.getD 0 < systemCount
    cases hs : i.system with
    | none => decide
    | some index => exact hi.system index hs
  systems := by simp [State.startFrame]
  system := by
    intro offsets ho
    simp only [State.startFrame, List.mem_map] at ho
    obtain ⟨k, -, rfl⟩ := ho
    refine length_getD_replicate fun values hv => ?_
    cases hs : i.systems with
    | none => simp [hs] at hv
    | some systems =>
        rw [hs] at hv
        exact hi.systems systems hs values (List.mem_of_getElem? hv)
  offset := length_getD_replicate hi.offset

/-- **An accepted configuration starts with a shaped state.** -/
theorem Pose.shaped_start {c : Config α} (hc : c.validate = .ok ()) :
    (State.start c).pose.Shaped c := by
  have hi := Config.fits_start hc
  have hmachine : ((c.start.getD .empty).machine.getD (List.replicate c.axisCount 0)).length =
      c.axisCount := length_getD_replicate hi.machine
  refine ⟨rfl, ?_, hmachine, Frame.shaped_startFrame hi, ?_, ?_, ?_, Envelope.shaped_empty _⟩
  · exact List.length_mapIdx.trans hmachine
  · refine length_getD_replicate fun values hv => ?_
    obtain ⟨r, hr, rfl⟩ := Option.map_eq_some_iff.mp hv
    exact (hi.references r hr).1
  · refine length_getD_replicate fun values hv => ?_
    obtain ⟨r, hr, rfl⟩ := Option.map_eq_some_iff.mp hv
    exact (hi.references r hr).2
  · intro feeds hf
    cases hf

/-! ### Lines keep the shape -/

/-- A conversion keeps the number of axes. -/
@[simp] theorem Frame.length_toWork (f : Frame α) (position : List α) :
    (f.toWork position).length = position.length :=
  List.length_mapIdx

/-- A conversion keeps the number of axes. -/
@[simp] theorem Frame.length_toMachine (f : Frame α) (position : List α) :
    (f.toMachine position).length = position.length :=
  List.length_mapIdx

/-- The axis feeds after a move have one entry for each axis that it was timed for. -/
theorem Timing.length_duration {c : Config α} {settings : Settings α} {last : Option (List α)}
    {travels feeds : List α} {travel : α} {feed : Option α}
    (hlast : ∀ feeds, last = some feeds → feeds.length = travels.length)
    (h : (duration c settings last travels travel feed).2 = some feeds) :
    feeds.length = travels.length := by
  simp only [duration] at h
  split at h
  · exact hlast feeds h
  · split at h
    · split at h
      · obtain rfl := Option.some.inj h
        exact List.length_map _
      · obtain rfl := Option.some.inj h
        exact List.length_map _
    · obtain rfl := Option.some.inj h
      exact List.length_mapIdx

/-- Clearing the override offset keeps the shape of a frame. -/
theorem Frame.Shaped.clearOffset {n : Nat} {f : Frame α} (hf : f.Shaped n) :
    f.clearOffset.Shaped n :=
  hf.override ((List.length_map _).trans hf.offset) false

/-- A move between positions of all axes keeps the shape of an envelope. -/
theorem Envelope.Shaped.addMove {n : Nat} {e : Envelope α} (he : e.Shaped n)
    {targets : List (Option α)} (ht : targets.length = n) (work work' machine machine' : List α) :
    (e.addMove targets work work' machine machine').Shaped n := by
  refine ⟨⟨?_, ?_⟩, ⟨?_, ?_⟩, ?_⟩
  · exact List.length_mapIdx.trans he.work.min
  · exact List.length_mapIdx.trans he.work.max
  · exact List.length_mapIdx.trans he.machine.min
  · exact List.length_mapIdx.trans he.machine.max
  · simp [Envelope.addMove, he.moved, ht]

namespace Pose.Shaped

variable {c : Config α} {s : State α}

/-- The targets of every leg have one entry for each axis. -/
theorem length_leg (hs : s.pose.Shaped c) {targets : List (Option α)} (h : s.Leg targets) :
    targets.length = c.axisCount := by
  have haxes : s.axes.length = c.axisCount := hs.length_axes
  have hwork : s.work.length = c.axisCount := hs.work
  have hmachine : s.machine.length = c.axisCount := hs.machine
  cases h with
  | words machineFrame b =>
      cases machineFrame <;>
        simp [State.targets, State.machineWordsToWork, haxes, hwork, hmachine]
  | home => exact (List.length_map _).trans ((Frame.length_toWork _ _).trans hs.home)
  | secondaryHome =>
      exact (List.length_map _).trans ((Frame.length_toWork _ _).trans hs.secondaryHome)

/-- Changing the frame keeps the shape. -/
theorem setFrame (hs : s.pose.Shaped c) {f : Frame α} (hf : f.Shaped c.axisCount) :
    (s.setFrame f).pose.Shaped c :=
  { hs with
    frame := hf
    work := (f.length_toWork s.machine).trans hs.machine }

/-- Selecting a system keeps the shape. -/
theorem selectSystem (hs : s.pose.Shaped c) (index : Nat) :
    (s.selectSystem index).pose.Shaped c := by
  rw [State.selectSystem]
  split
  · next h => exact hs.setFrame (hs.frame.select h)
  · exact hs

/-- Setting the offsets of a system keeps the shape. -/
theorem setOffsets (hs : s.pose.Shaped c) (fromPosition : Bool) (index : Nat)
    (words : List (Option α)) : (s.setOffsets fromPosition index words).pose.Shaped c := by
  have hf : Frame.Shaped c.axisCount { s.frame with
      systems := s.frame.systems.modify index (s.newOffsets fromPosition words) } :=
    hs.frame.modify index fun _ => List.length_mapIdx
  simp only [State.setOffsets]
  split
  · exact hs.setFrame hf
  · exact { hs with frame := hf }

/-- Homing axes keeps the shape. -/
theorem homeAxes (hs : s.pose.Shaped c) (words : List (Option α)) :
    (s.homeAxes words).pose.Shaped c := by
  have hmachine : (s.homeAxes words).machine.length = c.axisCount :=
    List.length_mapIdx.trans hs.machine
  exact { hs with
    machine := hmachine
    work := (Frame.length_toWork _ _).trans hmachine }

/-- An origin command keeps the shape. -/
theorem applyOrigin (hs : s.pose.Shaped c) (words : List (Option α)) (command : OriginCommand) :
    (s.applyOrigin words command).pose.Shaped c := by
  cases command with
  | set => exact hs.setFrame (hs.frame.override (List.length_mapIdx.trans hs.frame.offset) true)
  | clear => exact hs.setFrame hs.frame.clearOffset
  | suspend => exact hs.setFrame (hs.frame.override hs.frame.offset false)
  | restore => exact hs.setFrame (hs.frame.override hs.frame.offset true)

/-- An action keeps the shape. -/
theorem act (hs : s.pose.Shaped c) (b : Block α) (a : Action) : (s.act b a).pose.Shaped c := by
  cases a with
  | setSystem =>
      simp only [State.act, State.setSystem]
      split
      · exact hs.setOffsets _ _ _
      · exact hs
  | storeHome => exact { hs with home := hs.machine }
  | storeSecondaryHome => exact { hs with secondaryHome := hs.machine }
  | homeAxes => exact hs.homeAxes _
  | origin command => exact hs.applyOrigin _ command

/-- A move has a distance for each axis. -/
theorem length_axisTravels (hs : s.pose.Shaped c) {targets : List (Option α)}
    (ht : targets.length = c.axisCount) :
    (s.axisTravels (s.destination targets)).length = c.axisCount := by
  have hwork : s.work.length = c.axisCount := hs.work
  simp [State.axisTravels, hs.length_destination ht, hwork]

/-- A move of all axes keeps the shape. -/
theorem move (hs : s.pose.Shaped c) {targets : List (Option α)}
    (ht : targets.length = c.axisCount) (feed travel : Option α) :
    (s.move c targets feed travel).pose.Shaped c := by
  have hwork := hs.length_destination ht
  have htravels := hs.length_axisTravels ht
  refine { hs with
    work := hwork
    machine := (Frame.length_toMachine _ _).trans hwork
    envelope := hs.envelope.addMove ht _ _ _ _
    axisFeeds := ?_ }
  intro feeds hf
  rw [← htravels]
  refine Timing.length_duration (fun last hl => ?_) hf
  rw [htravels]
  exact hs.axisFeeds last hl

/-- Modal words keep the shape. -/
theorem prepare (hs : s.pose.Shaped c) (b : Block α) : (s.prepare b).pose.Shaped c :=
  State.prepare_induction (fun _ index hs => hs.selectSystem index) b hs

/-- The end of a program keeps the shape. -/
theorem endProgram (hs : s.pose.Shaped c) : s.endProgram.pose.Shaped c := by
  have hf := hs.frame.clearOffset
  exact { hs with
    frame := ⟨Nat.zero_lt_succ 5, hf.systems, hf.system, hf.offset⟩
    work := (Frame.length_toWork _ _).trans hs.machine
    axisFeeds := fun _ h => nomatch h }

end Pose.Shaped

/-- **No part of a line changes the shape of a state.** -/
theorem Pose.shaped_invariant (c : Config α) : Invariant c (Shaped c) where
  selectSystem _ index hs := hs.selectSystem index
  act _ b a hs := hs.act b a
  move _ _ feed travel hleg hs := hs.move (hs.length_leg hleg) feed travel
  endProgram _ hs := hs.endProgram

end DryRun
