import DryRun.Evaluate

/-!
# What one line does to a machine

A line is evaluated by many small functions, and most of them leave the machine where it
is. This module says once what each stage of a line can do to the **pose** of a machine
(`State.pose`): its positions, its frames and references, the axis feeds of its last move
and the envelope of its motion. The settings, the sticky motion, the time and the catalogue
are left out of it.

* Counting a line and all of its modal words but those that select a work coordinate
  system keep the pose (`pose_applyG`, `prepare_induction`).
* What a prepared line does is one of four things (`Stepped`): an action, a motion, a
  motion that is skipped, or nothing.
* A motion is a chain of at most two moves (`Performs`), each along a *leg*: to the point
  that the line names, or to a reference position (`Leg`, `legs`).
* So a property of poses that selecting, acting, moving and ending the program preserve is
  preserved by every line (`Pose.Invariant.evaluate`).
-/

namespace DryRun

variable {α : Type}

/-- The part of a state that only a move, an action or a change of the frame can change. -/
structure Pose (α : Type) where
  axes : List Char
  work : List α
  machine : List α
  frame : Frame α
  home : List α
  secondaryHome : List α
  axisFeeds : Option (List α)
  envelope : Envelope α

/-- Whether a line has a word for an axis. -/
def Block.names (b : Block α) (axes : List Char) (axis : Nat) : Bool := (axes[axis]?).any b.has

/-- The axes that a line names are those that it gives a value. -/
theorem isSome_join_axisWords [Scalar α] (axes : List Char) (b : Block α) (axis : Nat) :
    ((axisWords axes b)[axis]?.join).isSome = b.names axes axis := by
  rw [axisWords, List.getElem?_map, Block.names]
  cases axes[axis]? with
  | none => rfl
  | some letter =>
      rw [Bool.eq_iff_iff]
      simp [Block.get?, Block.has]

/-- The word of an axis is the one with its label. -/
theorem getElem?_axisWords {axes : List Char} {axis : Nat} {label : Char}
    (h : axes[axis]? = some label) (b : Block α) :
    (axisWords axes b)[axis]? = some (b.get? label) := by
  rw [axisWords, List.getElem?_map, h, Option.map_some]

/-- Words name an axis if one of them has a value. -/
theorem anyNamed_iff [Scalar α] {words : List (Option α)} :
    anyNamed words = true ↔ ∃ axis : Nat, (words[axis]?.join).isSome = true := by
  rw [anyNamed, List.any_eq_true]
  constructor
  · rintro ⟨word, hword, hsome⟩
    obtain ⟨axis, haxis⟩ := List.mem_iff_getElem?.1 hword
    refine ⟨axis, ?_⟩
    rw [haxis]
    exact hsome
  · rintro ⟨axis, haxis⟩
    obtain ⟨value, hvalue⟩ := Option.isSome_iff_exists.1 haxis
    exact ⟨some value, List.mem_of_getElem? (Option.join_eq_some_iff.1 hvalue), rfl⟩

/-! ### Commands and their codes -/

/-- A command that is found by its code stands in the table with this code. -/
theorem mem_of_lookup_eq_some {β : Type} {table : List (Int × β)} {code : Int} {command : β}
    (h : table.lookup code = some command) : (code, command) ∈ table := by
  obtain ⟨before, rest, rfl, -⟩ := List.lookup_eq_some_iff.1 h
  simp

/-- A command that stands only once in its table is read from its own code alone. -/
theorem lookup_eq_some_iff_eq {β : Type} {table : List (Int × β)} {own code : Int} {command : β}
    (honly : ∀ x ∈ table, x.2 = command → x.1 = own) (hown : table.lookup own = some command) :
    table.lookup code = some command ↔ code = own := by
  constructor
  · intro h
    exact honly _ (mem_of_lookup_eq_some h) rfl
  · rintro rfl
    exact hown

/-- A choice in which the first case gives something. -/
theorem ite_some_eq_none_iff {β : Type} {p : Prop} [Decidable p] {x : β} {o : Option β} :
    (if p then some x else o) = none ↔ ¬p ∧ o = none := by
  split
  · next h => simp [h]
  · next h => simp [h]

/-- The `G` codes of the origin commands. -/
def originCodes : List Int := [920, 921, 922, 923]

/-- The `G` codes of the actions. -/
def actionCodes : List Int := [100, 281, 301, 282, 283] ++ originCodes

/-- The origin commands are read from their codes. -/
theorem OriginCommand.ofCode?_eq_none_iff {code : Int} :
    ofCode? code = none ↔ code ∉ originCodes := by
  simp [ofCode?, originCodes, ite_some_eq_none_iff]

/-- A line has no action exactly if it has none of their codes. -/
theorem Action.ofCodes?_eq_none_iff {codes : List Int} :
    ofCodes? codes = none ↔ ∀ code ∈ actionCodes, code ∉ codes := by
  have horigin : codes.findSome? OriginCommand.ofCode? = none ↔
      ∀ code ∈ originCodes, code ∉ codes := by
    simp only [List.findSome?_eq_none_iff, OriginCommand.ofCode?_eq_none_iff]
    exact ⟨fun h code hcode hmem => h code hmem hcode, fun h code hmem hcode => h code hcode hmem⟩
  rw [actionCodes, List.forall_mem_append, ← horigin]
  simp only [ofCodes?, ite_some_eq_none_iff, Option.map_eq_none_iff, Bool.or_eq_true, not_or,
    List.contains_iff_mem, List.forall_mem_cons, List.not_mem_nil, false_implies, implies_true,
    and_true, and_assoc]

/-! ### The modal motion group -/

/-- No code of the modal motion group is a modal command. -/
theorem Motion.modal_of_ofCode? {code : Int} {m : Motion} (h : ofCode? code = some m) :
    ModalCommand.ofCode? code = none := by
  have htable : ModalCommand.table.all (fun x => (ofCode? x.1).isNone) = true := by decide
  refine Option.eq_none_iff_forall_ne_some.2 fun command hcommand => ?_
  have hnone := List.all_eq_true.1 htable _ (mem_of_lookup_eq_some hcommand)
  rw [h] at hnone
  cases hnone

/-- No code of the modal motion group is read for anything but the motion. -/
theorem Motion.ne_of_ofCode? {code : Int} {m : Motion} (h : ofCode? code = some m) {code' : Int}
    (hcode' : code' ∈ actionCodes ++ [280, 300, 530]) : code' ≠ code := by
  have hothers : (actionCodes ++ [280, 300, 530]).all (fun x => (ofCode? x).isNone) = true := by
    decide
  rintro rfl
  have hnone := List.all_eq_true.1 hothers _ hcode'
  rw [h] at hnone
  cases hnone

/-! ### Returns -/

/-- Whether a motion is a return to a reference position. -/
def Motion.isReturn : Motion → Bool
  | .home | .secondaryHome => true
  | _ => false

/-- No code of the modal motion group is a return. -/
theorem Motion.isReturn_of_ofCode? {code : Int} {m : Motion} (h : ofCode? code = some m) :
    m.isReturn = false := by
  unfold ofCode? at h
  repeat' split at h
  all_goals cases h <;> rfl

/-- An arc is no return. -/
theorem Motion.isReturn_of_isArc {m : Motion} (h : m.isArc = true) : m.isReturn = false := by
  cases m with
  | home | secondaryHome => cases h
  | rapid | linear | arcClockwise | arcCounterclockwise | unsupported _ => rfl

/-- No line makes a return stay in force. -/
theorem isReturn_motionInForce {current : Option Motion}
    (h : ∀ m ∈ current, m.isReturn = false) (codes : List Int) :
    ∀ m ∈ motionInForce current codes, m.isReturn = false := by
  intro m hm
  simp only [motionInForce] at hm
  split at hm
  · exact h m hm
  · rcases Option.or_eq_some_iff.1 hm with hselected | ⟨-, hcurrent⟩
    · obtain ⟨code, -, hcode⟩ := List.exists_of_findSome?_eq_some hselected
      exact Motion.isReturn_of_ofCode? hcode
    · exact h m hcurrent

namespace State

/-- The pose of a machine. -/
def pose (s : State α) : Pose α :=
  ⟨s.axes, s.work, s.machine, s.frame, s.home, s.secondaryHome, s.axisFeeds, s.envelope⟩

/-! ### Modal words -/

/-- Two states that differ in nothing but their settings and their catalogues. -/
def SameButSettings (s s' : State α) : Prop :=
  ∃ settings catalogue, s' = { s with settings, catalogue }

namespace SameButSettings

variable {s s' s'' : State α}

theorem trans (h : s.SameButSettings s') (h' : s'.SameButSettings s'') :
    s.SameButSettings s'' := by
  obtain ⟨_, _, rfl⟩ := h
  obtain ⟨settings, catalogue, rfl⟩ := h'
  exact ⟨settings, catalogue, rfl⟩

/-- What each of several steps leaves alone all of them do. -/
theorem foldl {β : Type} {f : State α → β → State α} (h : ∀ s x, SameButSettings s (f s x))
    (xs : List β) (s : State α) : s.SameButSettings (xs.foldl f s) := by
  induction xs generalizing s with
  | nil => exact ⟨s.settings, s.catalogue, rfl⟩
  | cons x xs ih => exact (h s x).trans (ih (f s x))

theorem pose (h : s.SameButSettings s') : s'.pose = s.pose := by
  obtain ⟨_, _, rfl⟩ := h
  rfl

end SameButSettings

/-- An `M` code is about the settings or the catalogue. -/
theorem applyM_same (s : State α) (code : Int) : s.SameButSettings (s.applyM code) := by
  rw [applyM]
  split
  · next command _ => cases command <;> exact ⟨_, _, rfl⟩
  · exact ⟨_, _, rfl⟩

variable [Scalar α]

/-- Counting a line keeps the pose. -/
@[simp] theorem pose_count (s : State α) (b : Block α) : (s.count b).pose = s.pose := rfl

/-- Waiting keeps the pose. -/
theorem pose_dwell (s : State α) (b : Block α) : (s.dwell b).pose = s.pose := by
  rw [dwell]
  split <;> rfl

/-- A `G` code selects a work coordinate system or keeps the pose. -/
theorem pose_applyG (s : State α) (b : Block α) (code : Int) :
    (s.applyG b code).pose = s.pose ∨
      ∃ index, ModalCommand.ofCode? code = some (.system index) ∧
        s.applyG b code = s.selectSystem index := by
  rw [applyG]
  cases hc : ModalCommand.ofCode? code with
  | none => exact .inl rfl
  | some command =>
      cases command with
      | system index => exact .inr ⟨index, rfl, rfl⟩
      | dwell => exact .inl (pose_dwell s b)
      | feedMode _ | plane _ | units _ | cancelMotion | distanceMode _ => exact .inl rfl

/-- A feed is about the settings and the catalogue. -/
theorem applyFeed_same (s : State α) (b : Block α) : s.SameButSettings (s.applyFeed b) := by
  rw [applyFeed]
  split <;> exact ⟨_, _, rfl⟩

/-- A spindle speed is about the settings and the catalogue. -/
theorem applySpeed_same (s : State α) (b : Block α) : s.SameButSettings (s.applySpeed b) := by
  rw [applySpeed]
  split <;> exact ⟨_, _, rfl⟩

/-- Of all modal words only the `G` codes change more than the settings and the catalogue. -/
theorem prepare_same (s : State α) (b : Block α) :
    ((b.codes 'G').foldl (applyG b) (s.count b)).SameButSettings (s.prepare b) :=
  (applyFeed_same _ b).trans <| (applySpeed_same _ b).trans <|
    (SameButSettings.foldl (fun _ _ => ⟨_, _, rfl⟩) _ _).trans (.foldl applyM_same _ _)

/-- Of all modal words only the `G` codes matter for the pose. -/
theorem pose_prepare (s : State α) (b : Block α) :
    (s.prepare b).pose = ((b.codes 'G').foldl (applyG b) (s.count b)).pose :=
  (prepare_same s b).pose

/-- What selecting a work coordinate system preserves is preserved by the `G` codes of a
line, one after the other. -/
theorem foldl_applyG_induction {P : Pose α → Prop}
    (hselect : ∀ (s : State α) (index : Nat), P s.pose → P (s.selectSystem index).pose)
    (b : Block α) (codes : List Int) {s : State α} (hs : P s.pose) :
    P (codes.foldl (applyG b) s).pose := by
  induction codes generalizing s with
  | nil => exact hs
  | cons code codes ih =>
      refine ih ?_
      rcases pose_applyG s b code with h | ⟨index, -, h⟩
      · rwa [h]
      · rw [h]
        exact hselect s index hs

/-- What selecting a work coordinate system preserves is preserved by the modal words of a
line. -/
theorem prepare_induction {P : Pose α → Prop}
    (hselect : ∀ (s : State α) (index : Nat), P s.pose → P (s.selectSystem index).pose)
    {s : State α} (b : Block α) (hs : P s.pose) : P (s.prepare b).pose := by
  rw [pose_prepare]
  exact foldl_applyG_induction hselect b (b.codes 'G') hs

/-- Without a word that selects a work coordinate system the modal words keep the pose. -/
theorem pose_prepare_of_not_changesFrame {b : Block α} (h : modalChangesFrame b = false)
    (s : State α) : (s.prepare b).pose = s.pose := by
  rw [pose_prepare, ← pose_count s b]
  generalize s.count b = s
  rw [modalChangesFrame] at h
  generalize b.codes 'G' = codes at h ⊢
  induction codes generalizing s with
  | nil => rfl
  | cons code codes ih =>
      simp only [List.any_cons, Bool.or_eq_false_iff] at h
      rw [List.foldl_cons, ih _ h.2]
      rcases pose_applyG s b code with hs | ⟨index, hc, -⟩
      · exact hs
      · simp [hc, ModalCommand.changesFrame] at h

/-- Selecting a work coordinate system changes nothing but the frame and, with it, the work
position. -/
theorem selectSystem_eq (s : State α) (index : Nat) :
    ∃ frame work, s.selectSystem index = { s with frame, work } := by
  rw [selectSystem]
  split
  · exact ⟨_, _, rfl⟩
  · exact ⟨_, _, rfl⟩

/-- Modal words change nothing of the pose but the frame and the work position. -/
theorem prepare_eq (s : State α) (b : Block α) :
    ∃ frame work, (s.prepare b).pose = { s.pose with frame, work } := by
  refine prepare_induction (P := fun p => ∃ frame work, p = { s.pose with frame, work }) ?_ b
    ⟨_, _, rfl⟩
  rintro s' index ⟨frame, work, h⟩
  obtain ⟨frame', work', h'⟩ := selectSystem_eq s' index
  refine ⟨frame', work', ?_⟩
  rw [h']
  exact congrArg (fun p : Pose α => { p with frame := frame', work := work' }) h

/-- Modal words change nothing of the frame but which system is active. -/
theorem frame_prepare (s : State α) (b : Block α) :
    ∃ active, (s.prepare b).frame = { s.frame with active } := by
  refine prepare_induction (P := fun p => ∃ active, p.frame = { s.frame with active }) ?_ b ⟨_, rfl⟩
  rintro s' index ⟨active, hframe⟩
  rw [selectSystem]
  split
  · exact ⟨index, congrArg (fun f : Frame α => { f with active := index }) hframe⟩
  · exact ⟨active, hframe⟩

/-- Modal words keep the labels of the axes. -/
theorem axes_prepare (s : State α) (b : Block α) : (s.prepare b).axes = s.axes := by
  obtain ⟨frame, work, h⟩ := prepare_eq s b
  exact congrArg Pose.axes h

/-- Modal words leave the machine where it is. -/
theorem machine_prepare (s : State α) (b : Block α) : (s.prepare b).machine = s.machine := by
  obtain ⟨frame, work, h⟩ := prepare_eq s b
  exact congrArg Pose.machine h

/-! ### Actions -/

/-- Setting the offsets of a system changes nothing but the frame and, with it, the work
position. -/
theorem setSystem_eq (s : State α) (b : Block α) :
    ∃ frame work, s.setSystem b = { s with frame, work } := by
  rw [setSystem]
  split
  · rw [setOffsets]
    split
    · exact ⟨_, _, rfl⟩
    · exact ⟨_, _, rfl⟩
  · exact ⟨_, _, rfl⟩

/-- An origin command changes nothing but the frame and, with it, the work position. -/
theorem applyOrigin_eq (s : State α) (words : List (Option α)) (command : OriginCommand) :
    ∃ frame work, s.applyOrigin words command = { s with frame, work } := by
  cases command with
  | set | clear | suspend | restore => exact ⟨_, _, rfl⟩

/-- An action changes nothing but positions, the frame and the references. -/
theorem act_eq (s : State α) (b : Block α) (a : Action) :
    ∃ work machine frame home secondaryHome,
      s.act b a = { s with work, machine, frame, home, secondaryHome } := by
  cases a with
  | setSystem =>
      obtain ⟨frame, work, h⟩ := setSystem_eq s b
      exact ⟨work, s.machine, frame, s.home, s.secondaryHome, h⟩
  | origin command =>
      obtain ⟨frame, work, h⟩ := applyOrigin_eq s (axisWords s.axes b) command
      exact ⟨work, s.machine, frame, s.home, s.secondaryHome, h⟩
  | storeHome | storeSecondaryHome | homeAxes => exact ⟨_, _, _, _, _, rfl⟩

/-! ### Moves -/

/-- The targets of a move that a machine can be told to make: the point that the axis words
of a line name, or a reference position, on all axes. -/
inductive Leg (s : State α) : List (Option α) → Prop
  | words (machineFrame : Bool) (b : Block α) :
      Leg s (s.targets machineFrame (axisWords s.axes b))
  | home : Leg s ((s.frame.toWork s.home).map some)
  | secondaryHome : Leg s ((s.frame.toWork s.secondaryHome).map some)

/-- The chains of moves between two states, each move with its targets and its event. -/
inductive Performs (c : Config α) : State α → List (List (Option α) × Event α) → State α → Prop
  | done (s : State α) : Performs c s [] s
  | move {s s' : State α} {targets : List (Option α)}
      {moves : List (List (Option α) × Event α)} (motion : Motion) (feed travel : Option α)
      (geometry : Geometry α) (hleg : s.Leg targets)
      (hmoves : Performs c (s.perform c motion targets feed travel geometry).1 moves s') :
      Performs c s ((targets, (s.perform c motion targets feed travel geometry).2) :: moves) s'

/-- A chain of moves changes nothing but positions, the time, the axis feeds and the envelope. -/
theorem Performs.state_eq {c : Config α} {s s' : State α}
    {moves : List (List (Option α) × Event α)} (h : Performs c s moves s') :
    ∃ work machine totalTime axisFeeds envelope,
      s' = { s with work, machine, totalTime, axisFeeds, envelope } := by
  induction h with
  | done s => exact ⟨_, _, _, _, _, rfl⟩
  | move motion feed travel geometry hleg _ ih =>
      obtain ⟨work, machine, totalTime, axisFeeds, envelope, rfl⟩ := ih
      exact ⟨work, machine, totalTime, axisFeeds, envelope, rfl⟩

/-- The reference position that a motion returns to. -/
def reference? (s : State α) : Motion → Option (List α)
  | .home => some s.home
  | .secondaryHome => some s.secondaryHome
  | _ => none

omit [Scalar α] in
/-- The returns are the motions with a reference position. -/
theorem isSome_reference? (s : State α) (m : Motion) :
    (s.reference? m).isSome = m.isReturn := by
  cases m <;> rfl

omit [Scalar α] in
/-- A motion that is no return has no reference position. -/
theorem reference?_of_not_isReturn (s : State α) {m : Motion} (h : m.isReturn = false) :
    s.reference? m = none := by
  rw [← Option.not_isSome_iff_eq_none, isSome_reference?, h]
  exact Bool.false_ne_true

/-- A move keeps the reference positions. -/
theorem reference?_move (c : Config α) (s : State α) (targets : List (Option α))
    (feed travel : Option α) (motion : Motion) :
    (s.move c targets feed travel).reference? motion = s.reference? motion := by
  cases motion <;> rfl

/-- The targets of each move of a motion: a return to a reference position passes through
the named point, if there is one. -/
def legs (s : State α) (motion : Motion) (targets : List (Option α)) :
    List (List (Option α)) :=
  match s.reference? motion with
  | some reference =>
    (if anyNamed targets then [targets] else []) ++ [(s.frame.toWork reference).map some]
  | none => [targets]

/-- A motion has one leg, or two if it returns through a named point. -/
theorem length_legs (s : State α) (m : Motion) (targets : List (Option α)) :
    (s.legs m targets).length = if (s.reference? m).isSome && anyNamed targets then 2 else 1 := by
  rw [legs]
  cases s.reference? m with
  | none => rfl
  | some reference => cases anyNamed targets <;> rfl

/-- A chain of one move. -/
theorem Performs.single {c : Config α} {s : State α} {targets : List (Option α)}
    (motion : Motion) (feed travel : Option α) (geometry : Geometry α) (hleg : s.Leg targets) :
    Performs c s [(targets, (s.perform c motion targets feed travel geometry).2)]
      (s.perform c motion targets feed travel geometry).1 :=
  .move motion feed travel geometry hleg (.done _)

/-- What is known of a performed motion: it is a chain of moves along the given legs. -/
def Follows (c : Config α) (s : State α) (legs : List (List (Option α))) (p : Performed α) :
    Prop :=
  ∃ moves, Performs c s moves p.state ∧ p.events = moves.map Prod.snd ∧ moves.map Prod.fst = legs

/-- A performed motion has an event for each leg. -/
theorem Follows.length_events {c : Config α} {s : State α} {legs : List (List (Option α))}
    {p : Performed α} (h : Follows c s legs p) : p.events.length = legs.length := by
  obtain ⟨moves, -, hevents, rfl⟩ := h
  rw [hevents, List.length_map, List.length_map]

/-- A straight move has one leg. -/
theorem straight_follows (c : Config α) {s : State α} (motion : Motion)
    {targets : List (Option α)} (feed : Option α) (notes : List (Note α))
    (hleg : s.Leg targets) : Follows c s [targets] (s.straight c motion targets feed notes) :=
  ⟨_, .single motion feed none .line hleg, rfl, rfl⟩

/-- An arc has one leg, whatever its shape. -/
theorem arc_follows (c : Config α) {s : State α} (b : Block α) (motion : Motion)
    {targets : List (Option α)} (hleg : s.Leg targets) :
    Follows c s [targets] (s.arc c b motion targets) := by
  simp only [arc]
  split
  · split
    · exact ⟨_, .single motion _ _ _ hleg, rfl, rfl⟩
    · exact straight_follows c motion _ _ hleg
  · exact straight_follows c motion _ _ hleg
  · exact straight_follows c motion _ _ hleg

/-- The way to the reference position of a motion is a leg. -/
theorem leg_of_reference? {s : State α} {motion : Motion} {reference : List α}
    (h : s.reference? motion = some reference) :
    s.Leg ((s.frame.toWork reference).map some) := by
  cases motion with
  | home =>
      obtain rfl : s.home = reference := Option.some.inj h
      exact .home
  | secondaryHome =>
      obtain rfl : s.secondaryHome = reference := Option.some.inj h
      exact .secondaryHome
  | rapid | linear | arcClockwise | arcCounterclockwise | unsupported _ =>
      simp [reference?] at h

/-- A return to a reference position has the legs that `legs` says. A move keeps the frame
and the references, so that the second leg is one of the state after the first. -/
theorem goHome_follows (c : Config α) {s : State α} {motion : Motion}
    {targets : List (Option α)} {reference : List α}
    (href : s.reference? motion = some reference) (hleg : s.Leg targets) :
    Follows c s (s.legs motion targets) (s.goHome c motion targets reference) := by
  have href' := (reference?_move c s targets none none motion).trans href
  simp only [goHome, legs, href]
  by_cases hany : anyNamed targets
  · rw [if_pos hany, if_pos hany]
    exact ⟨_, .move motion none none .line hleg
      (.single motion none none .line (leg_of_reference? href')), rfl, rfl⟩
  · rw [if_neg hany, if_neg hany]
    exact ⟨_, .single motion none none .line (leg_of_reference? href), rfl, rfl⟩

/-- A motion that is carried out follows its legs. -/
theorem runMotion?_follows {c : Config α} {s : State α} {b : Block α} {motion : Motion}
    {targets : List (Option α)} {p : Performed α} (hleg : s.Leg targets)
    (h : s.runMotion? c b motion targets = some p) : Follows c s (s.legs motion targets) p := by
  cases motion with
  | rapid =>
      obtain rfl := Option.some.inj h
      exact straight_follows c _ _ _ hleg
  | linear =>
      obtain rfl := Option.some.inj h
      exact straight_follows c _ _ _ hleg
  | arcClockwise | arcCounterclockwise =>
      obtain rfl := Option.some.inj h
      exact arc_follows c b _ hleg
  | home | secondaryHome =>
      obtain rfl := Option.some.inj h
      exact goHome_follows c rfl hleg
  | unsupported _ => simp [runMotion?] at h

/-! ### What a prepared line does -/

/-- The motion that a prepared line performs. -/
def blockMotion? (s : State α) (b : Block α) : Option Motion :=
  lineMotion? (s.selectMotion (b.codes 'G')).motion (b.codes 'G') b (axisWords s.axes b)

/-- The targets that the axis words of a prepared line name. -/
def blockTargets (s : State α) (b : Block α) : List (Option α) :=
  s.targets ((b.codes 'G').contains 530) (axisWords s.axes b)

/-- The targets of a line name the axes that it has words for, as far as the position that they
are counted from goes. -/
theorem isSome_join_blockTargets (s : State α) (b : Block α) (axis : Nat) :
    ((s.blockTargets b)[axis]?.join).isSome = (b.names s.axes axis &&
      axis < (if (b.codes 'G').contains 530 then s.machine else s.work).length) := by
  rw [← isSome_join_axisWords, blockTargets, targets]
  generalize axisWords s.axes b = words
  split
  · by_cases hmachine : axis < s.machine.length
    · cases hword : words[axis]? <;>
        simp [machineWordsToWork, Frame.toWork, Frame.convert, List.getElem?_zipWith, hword,
          hmachine]
    · rw [List.getElem?_eq_none]
      · simp [hmachine]
      · simp only [machineWordsToWork, Frame.toWork, Frame.convert, List.length_zipWith,
          List.length_mapIdx]
        omega
  · by_cases hwork : axis < s.work.length
    · cases hword : words[axis]? <;> simp [List.getElem?_zipWith, hword, hwork]
    · rw [List.getElem?_eq_none]
      · simp [hwork]
      · rw [List.length_zipWith]
        omega

/-- The four things that a prepared line can do. -/
inductive Stepped (c : Config α) (s : State α) (b : Block α) : Outcome α → Prop
  | action (a : Action) (notes : List (Note α)) (ha : Action.ofCodes? (b.codes 'G') = some a) :
      Stepped c s b ((s.act b a).idle a.changesFrame notes)
  | motion (m : Motion) (p : Performed α) (ha : Action.ofCodes? (b.codes 'G') = none)
      (hm : s.blockMotion? b = some m)
      (hp : Follows c (s.selectMotion (b.codes 'G')) (s.legs m (s.blockTargets b)) p) :
      Stepped c s b ⟨p.state, some m, true, false, p.events, p.notes⟩
  | skipped (code : Int) (notes : List (Note α))
      (ha : Action.ofCodes? (b.codes 'G') = none)
      (hm : s.blockMotion? b = some (.unsupported code)) :
      Stepped c s b
        ⟨s.selectMotion (b.codes 'G'), some (.unsupported code), false, false, [], notes⟩
  | nothing (notes : List (Note α)) (ha : Action.ofCodes? (b.codes 'G') = none)
      (hm : s.blockMotion? b = none) :
      Stepped c s b ((s.selectMotion (b.codes 'G')).idle false notes)

/-- A line without an action performs its motion, if it has one. -/
theorem step_of_no_action (c : Config α) (s : State α) {b : Block α}
    (ha : Action.ofCodes? (b.codes 'G') = none) :
    s.step c b = match s.blockMotion? b with
      | some m => (s.selectMotion (b.codes 'G')).moveLine c b m (s.blockTargets b)
      | none => (s.selectMotion (b.codes 'G')).idle false
          (idleNotes s.catalogue.lines (s.selectMotion (b.codes 'G')).motion (b.codes 'G') b) := by
  simp only [step, ha]
  rfl

/-- Only an unsupported motion is not carried out. -/
theorem runMotion?_eq_none {c : Config α} {s : State α} {b : Block α} {motion : Motion}
    {targets : List (Option α)} (h : s.runMotion? c b motion targets = none) :
    ∃ code, motion = .unsupported code := by
  cases motion with
  | unsupported code => exact ⟨code, rfl⟩
  | rapid | linear | arcClockwise | arcCounterclockwise | home | secondaryHome =>
      simp [runMotion?] at h

/-- A prepared line does one of the four things. -/
theorem step_stepped (c : Config α) (s : State α) (b : Block α) :
    Stepped c s b (s.step c b) := by
  cases ha : Action.ofCodes? (b.codes 'G') with
  | some a =>
      simp only [step, ha]
      exact .action a _ ha
  | none =>
      rw [step_of_no_action c s ha]
      cases hm : s.blockMotion? b with
      | none => exact .nothing _ ha hm
      | some m =>
          have hleg : (s.selectMotion (b.codes 'G')).Leg (s.blockTargets b) := .words _ b
          simp only [moveLine]
          cases hp : (s.selectMotion (b.codes 'G')).runMotion? c b m (s.blockTargets b) with
          | some p => exact .motion m p ha hm (runMotion?_follows hleg hp)
          | none =>
              obtain ⟨code, rfl⟩ := runMotion?_eq_none hp
              exact .skipped code _ ha hm

/-- A prepared line with an action carries it out. -/
theorem state_step_of_action (c : Config α) (s : State α) {b : Block α} {a : Action}
    (ha : Action.ofCodes? (b.codes 'G') = some a) : (s.step c b).state = s.act b a := by
  simp only [step, ha, idle]

/-! ### The end of a line -/

/-- The end of a line changes nothing of the pose but the frame, the work position and the
axis feeds. -/
theorem finish_eq (s : State α) (b : Block α) :
    ∃ frame work axisFeeds, (s.finish b).pose = { s.pose with frame, work, axisFeeds } := by
  rw [finish]
  split
  · exact ⟨_, _, _, rfl⟩
  · exact ⟨_, _, _, rfl⟩

/-- The end of a line leaves the machine where it is. -/
theorem machine_finish (s : State α) (b : Block α) : (s.finish b).machine = s.machine := by
  obtain ⟨frame, work, axisFeeds, h⟩ := finish_eq s b
  exact congrArg Pose.machine h

end State

/-! ### Invariants of poses -/

variable [Scalar α]

/-- A property of poses that every part of a line preserves. -/
structure Pose.Invariant (c : Config α) (P : Pose α → Prop) : Prop where
  selectSystem : ∀ (s : State α) (index : Nat), P s.pose → P (s.selectSystem index).pose
  act : ∀ (s : State α) (b : Block α) (a : Action), P s.pose → P (s.act b a).pose
  move : ∀ (s : State α) (targets : List (Option α)) (feed travel : Option α),
    s.Leg targets → P s.pose → P (s.move c targets feed travel).pose
  endProgram : ∀ s : State α, P s.pose → P s.endProgram.pose

namespace Pose.Invariant

variable {c : Config α} {P : Pose α → Prop}

/-- An invariant holds after a chain of moves. -/
theorem performs (h : Invariant c P) {s s' : State α}
    {moves : List (List (Option α) × Event α)} (hm : State.Performs c s moves s')
    (hs : P s.pose) : P s'.pose := by
  induction hm with
  | done s => exact hs
  | move motion feed travel geometry hleg _ ih => exact ih (h.move _ _ feed travel hleg hs)

/-- An invariant holds after what a prepared line does. -/
theorem step (h : Invariant c P) {s : State α} (b : Block α) (hs : P s.pose) :
    P (s.step c b).state.pose := by
  have hstep := State.step_stepped c s b
  generalize s.step c b = o at hstep
  cases hstep with
  | action a notes ha => exact h.act s b a hs
  | motion m p ha hm hp =>
      obtain ⟨moves, hperf, -, -⟩ := hp
      exact h.performs hperf hs
  | skipped code notes ha hm => exact hs
  | nothing notes ha hm => exact hs

/-- An invariant holds after the end of a line. -/
theorem finish (h : Invariant c P) {s : State α} (b : Block α) (hs : P s.pose) :
    P (s.finish b).pose := by
  rw [State.finish]
  split
  · exact h.endProgram s hs
  · exact hs

/-- **An invariant of poses holds after every line.** -/
theorem evaluate (h : Invariant c P) {s : State α} (b : Block α) (hs : P s.pose) :
    P (evaluate c s b).state.pose :=
  h.finish b (h.step b (State.prepare_induction h.selectSystem b hs))

end Pose.Invariant

end DryRun
