import DryRun.Proofs.Run
import Mathlib.Data.List.Forall2

/-!
# Two machines side by side

Some properties of a machine compare two runs: nothing that only one of two machines knows
may show in what both of them do. Such a property is proved by following the two machines
line by line with a relation between their states. This module says once which parts of a
line the relation has to survive.

* Two lines are **parallel** (`Block.Parallel`) if they have the same letters and differ at
  most in the values of axis words, so that they give the same commands.
* Two states have the same **sight** (`State.Sight`) if a motion reads the same of them: the
  axes, the work position, the motion in force, the plane, the feed and the line count.
* A relation is in **lockstep** for two lines (`Lockstep`) if each part of the lines leads
  from related states to related states, and each move of them has events that look alike.

## Main results

* `Lockstep.evaluate`: related states stay related, and the results of the lines are alike.
* `State.Paired.run`: what each pair of lines preserves, two programs preserve.
-/

namespace DryRun

variable {α : Type}

/-! ### Lines that give the same commands -/

/-- Of its line a `G` code reads nothing but the time to wait. -/
theorem State.applyG_congr [Scalar α] {b b' : Block α} (h : b'.get? 'P' = b.get? 'P') :
    (applyG b' : State α → Int → State α) = applyG b := by
  funext s code
  simp only [applyG, applyModal, dwell, dwellTime?, h]

namespace Block

/-- The first value of a letter is the first of all its values. -/
theorem get?_eq_head? (b : Block α) (letter : Char) : b.get? letter = (b.values letter).head? := by
  rw [get?, values, List.head?_map, List.head?_filter]

/-- A letter occurs if it is among the letters. -/
theorem has_eq_any_letters (b : Block α) (letter : Char) :
    b.has letter = b.letters.any (· = letter.toUpper) := by
  rw [has, letters, List.any_map]
  rfl

/-- Two lines with the same letters that differ at most in the values of axis words. -/
structure Parallel (b b' : Block α) : Prop where
  letters : b'.letters = b.letters
  values : ∀ letter ∈ reservedLetters, b'.values letter = b.values letter

/-- A line is parallel to itself. -/
theorem Parallel.refl (b : Block α) : b.Parallel b := ⟨rfl, fun _ _ => rfl⟩

namespace Parallel

variable {b b' : Block α}

/-- Parallel lines have the same letters. -/
theorem has (h : b.Parallel b') (letter : Char) : b'.has letter = b.has letter := by
  rw [has_eq_any_letters, has_eq_any_letters, h.letters]

/-- Parallel lines give the same value to a letter with a meaning of its own. -/
theorem get? (h : b.Parallel b') {letter : Char} (hl : letter ∈ reservedLetters) :
    b'.get? letter = b.get? letter := by
  rw [get?_eq_head?, get?_eq_head?, h.values letter hl]

/-- Parallel lines name axes or do not. -/
theorem anyNamed_axisWords (h : b.Parallel b') (axes : List Char) :
    anyNamed (axisWords axes b') = anyNamed (axisWords axes b) := by
  have hsome (b : Block α) (letter : Char) : (b.get? letter).isSome = b.has letter := by
    rw [Bool.eq_iff_iff]
    simp [Block.get?, Block.has]
  simp only [anyNamed, axisWords, List.any_map, Function.comp_def, hsome, h.has]

variable [Scalar α]

/-- Parallel lines have the same codes. -/
theorem codes (h : b.Parallel b') {letter : Char} (hl : letter ∈ reservedLetters) :
    b'.codes letter = b.codes letter := by
  rw [Block.codes, Block.codes, h.values letter hl]

/-- Parallel lines give the same centre. -/
theorem centre? (h : b.Parallel b') (plane : Plane) :
    State.centre? plane b' = State.centre? plane b := by
  have hr : b'.get? 'R' = b.get? 'R' := h.get? (by decide)
  have hfirst : b'.get? plane.firstOffset = b.get? plane.firstOffset :=
    h.get? (by cases plane <;> decide)
  have hsecond : b'.get? plane.secondOffset = b.get? plane.secondOffset :=
    h.get? (by cases plane <;> decide)
  simp only [State.centre?, Block.getD, h.has, hr, hfirst, hsecond]

/-- The modal words of parallel lines do the same. -/
theorem applyModalWords (h : b.Parallel b') (s : State α) :
    s.applyModalWords b' = s.applyModalWords b := by
  have hmodal := State.applyG_congr (h.get? (show 'P' ∈ reservedLetters by decide))
  have hf : b'.get? 'F' = b.get? 'F' := h.get? (by decide)
  have hs : b'.get? 'S' = b.get? 'S' := h.get? (by decide)
  have ht : b'.values 'T' = b.values 'T' := h.values 'T' (by decide)
  simp only [State.applyModalWords, State.applyFeed, State.applySpeed, State.applyTools, hmodal,
    hf, hs, ht, h.codes (show 'G' ∈ reservedLetters by decide),
    h.codes (show 'M' ∈ reservedLetters by decide)]

end Parallel

end Block

/-! ### What is compared -/

/-- What a motion reads of a state is the same in two states, apart from what its time depends
on. -/
structure State.Sight (s s' : State α) : Prop where
  axes : s'.axes = s.axes
  work : s'.work = s.work
  motion : s'.motion = s.motion
  plane : s'.settings.plane = s.settings.plane
  feed : s'.settings.feed = s.settings.feed
  lines : s'.catalogue.lines = s.catalogue.lines

/-- Results of two lines that are the same but for the time and for what `view` leaves out of
the events. -/
structure LineResult.Alike (view : Event α → Event α) (r r' : LineResult α) : Prop where
  isMotion : r'.isMotion = r.isMotion
  motion : r'.motion = r.motion
  changedFrame : r'.changedFrame = r.changedFrame
  events : r'.events.map view = r.events.map view

/-- Results that are alike and have the same time are the same but for what `view` leaves out. -/
theorem LineResult.Alike.map_events {view : Event α → Event α} {r r' : LineResult α}
    (h : r.Alike view r') (htime : r'.time = r.time) :
    { r' with events := r'.events.map view } = { r with events := r.events.map view } := by
  rw [h.isMotion, h.motion, h.changedFrame, h.events, htime]

/-! ### The obligations -/

variable [Scalar α]

/-- **Lockstep.** A relation between the states of two machines that every part of two lines
preserves, where `view` is what is compared of the events and `shape` what is compared of
their shapes. If the machines time arcs alike, they are asked to move over the same travel. -/
structure Lockstep (c c' : Config α) (R : State α → State α → Prop) (view : Event α → Event α)
    (shape : Geometry α → Geometry α) (b b' : Block α) : Prop where
  parallel : b.Parallel b'
  sight : ∀ {s s'}, R s s' → s.Sight s'
  count : ∀ {s s'}, R s s' → R (s.count b) (s'.count b')
  modal : ∀ {s s' : State α} {code : Int} {command : ModalCommand}, code ∈ b.codes 'G' →
    ModalCommand.ofCode? code = some command → R s s' →
    R (s.applyModal b command) (s'.applyModal b command)
  feed : ∀ {s s'}, R s s' → R (s.applyFeed b) (s'.applyFeed b)
  speed : ∀ {s s'}, R s s' → R (s.applySpeed b) (s'.applySpeed b)
  tool : ∀ {s s'} (tool : Nat), R s s' → R (s.selectTool tool) (s'.selectTool tool)
  switch : ∀ {s s'} (command : SwitchCommand), R s s' →
    R (s.applySwitch command) (s'.applySwitch command)
  select : ∀ {s s'}, R s s' →
    R (s.selectMotion (b.codes 'G')) (s'.selectMotion (b.codes 'G'))
  act : ∀ {s s' : State α} {a : Action}, Action.ofCodes? (b.codes 'G') = some a → R s s' →
    R (s.act b a) (s'.act b' a)
  centre : ∀ {s s' : State α}, R s s' → ∀ (position : List α) (clockwise : Bool) (plane : Plane),
    shape (.arc position (s'.frame.toMachine position) clockwise plane) =
      shape (.arc position (s.frame.toMachine position) clockwise plane)
  perform : ∀ {s s' : State α} (motion : Motion) (targets : List (Option α)) (feed : Option α)
    {travel travel' : Option α} {g g' : Geometry α}, R s s' →
    (c'.arcLengthTravel = c.arcLengthTravel → travel' = travel) → shape g' = shape g →
    R (s.perform c motion targets feed travel g).1
        (s'.perform c' motion targets feed travel' g').1 ∧
      view (s'.perform c' motion targets feed travel' g').2 =
        view (s.perform c motion targets feed travel g).2
  returns : ∀ {s s' : State α} {m : Motion}, R s s' → s.blockMotion? b = some m →
    (s'.reference? m).map s'.frame.toWork = (s.reference? m).map s.frame.toWork
  finish : ∀ {s s'}, R s s' → R (s.finish b) (s'.finish b')

namespace Lockstep

variable {c c' : Config α} {R : State α → State α → Prop} {view : Event α → Event α}
  {shape : Geometry α → Geometry α} {b b' : Block α} {s s' : State α}

/-! ### Modal words -/

/-- Related states are related after the modal words. -/
theorem prepare (h : Lockstep c c' R view shape b b') (hs : R s s') :
    R (s.prepare b) (s'.prepare b') := by
  have hg : ∀ code ∈ b.codes 'G', ∀ s s' : State α, R s s' →
      R (s.applyG b code) (s'.applyG b code) := by
    intro code hcode s s' hs
    rw [State.applyG, State.applyG]
    cases hc : ModalCommand.ofCode? code with
    | none => exact hs
    | some command => exact h.modal hcode hc hs
  have hm : ∀ code ∈ b.codes 'M', ∀ s s' : State α, R s s' →
      R (s.applyM code) (s'.applyM code) := by
    intro code _ s s' hs
    rw [State.applyM, State.applyM]
    cases SwitchCommand.ofCode? code with
    | none => exact hs
    | some command => exact h.switch command hs
  rw [State.prepare, State.prepare, h.parallel.applyModalWords]
  have hwords := h.speed (h.feed (List.foldl_rel (h.count hs) hg))
  exact List.foldl_rel (List.foldl_rel hwords fun tool _ _ _ hs => h.tool tool hs) hm

/-! ### Motions -/

/-- What is compared of two motions: the states after them and their events. -/
def Performs (R : State α → State α → Prop) (view : Event α → Event α) (p p' : Performed α) :
    Prop :=
  R p.state p'.state ∧ p'.events.map view = p.events.map view

/-- Straight moves over their own distance are alike. -/
theorem line (h : Lockstep c c' R view shape b b') (hs : R s s') (motion : Motion)
    (targets : List (Option α)) (feed : Option α) :
    R (s.perform c motion targets feed none .line).1
        (s'.perform c' motion targets feed none .line).1 ∧
      view (s'.perform c' motion targets feed none .line).2 =
        view (s.perform c motion targets feed none .line).2 :=
  h.perform motion targets feed hs (fun _ => rfl) rfl

/-- Straight motions are alike. -/
theorem straight (h : Lockstep c c' R view shape b b') (hs : R s s') (motion : Motion)
    (targets : List (Option α)) (feed : Option α) (notes notes' : List (Note α)) :
    Performs R view (s.straight c motion targets feed notes)
      (s'.straight c' motion targets feed notes') := by
  obtain ⟨hstate, hevent⟩ := h.line hs motion targets feed
  exact ⟨hstate, congrArg (fun e => [e]) hevent⟩

/-- Arcs with a centre are alike. The machines may time them differently. -/
theorem arcWith (h : Lockstep c c' R view shape b b') (hs : R s s') (motion : Motion)
    (targets : List (Option α)) (first second : Nat) (centre : Centre α) :
    Performs R view (s.arcWith c motion targets first second centre)
      (s'.arcWith c' motion targets first second centre) := by
  obtain ⟨haxes, hwork, -, hplane, hfeed, hlines⟩ := h.sight hs
  simp only [State.arcWith, State.destination, State.planeArc, State.centrePosition,
    State.helicalTravel, State.axisIndex?, State.feed?, haxes, hwork, hplane, hfeed, hlines]
  refine (h.perform motion targets _ hs ?_ (h.centre hs _ _ _)).imp_right
    (congrArg fun e => [e])
  intro harc
  rw [harc]

/-- Arcs are alike, also those that are straight moves. -/
theorem arc (h : Lockstep c c' R view shape b b') (hs : R s s') (motion : Motion)
    (targets : List (Option α)) :
    Performs R view (s.arc c b motion targets) (s'.arc c' b' motion targets) := by
  obtain ⟨haxes, -, -, hplane, hfeed, -⟩ := h.sight hs
  simp only [State.arc, State.axisIndex?, State.feed?, haxes, hplane, hfeed, h.parallel.centre?]
  split
  · split
    · exact h.arcWith hs motion targets _ _ _
    · exact h.straight hs motion targets _ _ _
  · exact h.straight hs motion targets _ _ _
  · exact h.straight hs motion targets _ _ _

/-- Returns to a reference position are alike, if it is the same work position for both. A
move keeps the frame, so that it is still the same after the way to the named point. -/
theorem goHome (h : Lockstep c c' R view shape b b') (hs : R s s') (motion : Motion)
    (targets : List (Option α)) {reference reference' : List α}
    (href : s'.frame.toWork reference' = s.frame.toWork reference) :
    Performs R view (s.goHome c motion targets reference)
      (s'.goHome c' motion targets reference') := by
  have hframe (c : Config α) (s : State α) :
      (s.perform c motion targets none none .line).1.frame = s.frame := rfl
  simp only [State.goHome, State.goToReference, hframe, href]
  split
  · obtain ⟨hvia, hevent⟩ := h.line hs motion targets none
    obtain ⟨hstate, hevent'⟩ := h.line hvia motion ((s.frame.toWork reference).map some) none
    refine ⟨hstate, ?_⟩
    rw [List.map_cons, List.map_singleton, hevent, hevent']
    rfl
  · exact h.straight hs motion _ none [] []

/-- Motions are alike. -/
theorem runMotion? (h : Lockstep c c' R view shape b b') (hs : R s s') {motion : Motion}
    (targets : List (Option α))
    (href : (s'.reference? motion).map s'.frame.toWork =
      (s.reference? motion).map s.frame.toWork) :
    Option.Rel (Performs R view) (s.runMotion? c b motion targets)
      (s'.runMotion? c' b' motion targets) := by
  have hfeed : s'.feed? = s.feed? := by rw [State.feed?, State.feed?, (h.sight hs).feed]
  cases motion with
  | rapid => exact .some (h.straight hs _ targets _ _ _)
  | linear =>
      simp only [State.runMotion?, hfeed]
      exact .some (h.straight hs _ targets _ _ _)
  | arcClockwise | arcCounterclockwise => exact .some (h.arc hs _ targets)
  | home | secondaryHome => exact .some (h.goHome hs _ targets (Option.some.inj href))
  | unsupported code => exact .none

/-! ### Lines -/

/-- What prepared lines do is alike, if they name the same targets. -/
theorem step (h : Lockstep c c' R view shape b b') (hs : R s s')
    (htargets : s'.blockTargets b' = s.blockTargets b) :
    R (s.step c b).state (s'.step c' b').state ∧
      (s'.step c' b').isMotion = (s.step c b).isMotion ∧
      (s'.step c' b').motion = (s.step c b).motion ∧
      (s'.step c' b').changedFrame = (s.step c b).changedFrame ∧
      (s'.step c' b').events.map view = (s.step c b).events.map view := by
  have hcodes : b'.codes 'G' = b.codes 'G' := h.parallel.codes (by decide)
  cases ha : Action.ofCodes? (b.codes 'G') with
  | some a =>
      simp only [State.step, hcodes, ha]
      exact ⟨h.act ha hs, rfl, rfl, rfl, rfl⟩
  | none =>
      have ha' : Action.ofCodes? (b'.codes 'G') = none := by rw [hcodes, ha]
      have hmotion : s'.blockMotion? b' = s.blockMotion? b := by
        obtain ⟨haxes, -, hmotion, -, -, -⟩ := h.sight hs
        simp only [State.blockMotion?, State.selectMotion, lineMotion?, hasCentre, hcodes, haxes,
          hmotion, h.parallel.anyNamed_axisWords, h.parallel.has]
      have hselect := h.select hs
      rw [State.step_of_no_action c s ha, State.step_of_no_action c' s' ha', hmotion, hcodes,
        htargets]
      cases hm : s.blockMotion? b with
      | none => exact ⟨hselect, rfl, rfl, rfl, rfl⟩
      | some m =>
          have href := h.returns hs hm
          have hrun := h.runMotion? hselect (s.blockTargets b) href
          simp only [State.moveLine]
          generalize State.runMotion? c (s.selectMotion (b.codes 'G')) b m (s.blockTargets b) = p
            at hrun ⊢
          generalize State.runMotion? c' (s'.selectMotion (b.codes 'G')) b' m (s.blockTargets b) =
            p' at hrun ⊢
          cases hrun with
          | some hp => exact ⟨hp.1, rfl, rfl, rfl, hp.2⟩
          | none => exact ⟨hselect, rfl, rfl, rfl, rfl⟩

/-- **Related states stay related, and the results of the lines are alike**, if the lines name
the same targets. -/
theorem evaluate (h : Lockstep c c' R view shape b b') (hs : R s s')
    (htargets : (s'.prepare b').blockTargets b' = (s.prepare b).blockTargets b) :
    R (evaluate c s b).state (evaluate c' s' b').state ∧
      (evaluate c s b).result.Alike view (evaluate c' s' b').result := by
  obtain ⟨hstate, hisMotion, hmotion, hchanged, hevents⟩ := h.step (h.prepare hs) htargets
  refine ⟨h.finish hstate, hisMotion, hmotion, ?_, hevents⟩
  simp only [DryRun.evaluate, modalChangesFrame, hchanged,
    h.parallel.codes (show 'G' ∈ reservedLetters by decide),
    h.parallel.codes (show 'M' ∈ reservedLetters by decide)]

end Lockstep

/-- The time of a line is what it adds to the time of the run. -/
theorem evaluate_time_eq {c c' : Config α} {s s' : State α} {b b' : Block α}
    (hbefore : s'.totalTime = s.totalTime)
    (hafter : (evaluate c' s' b').state.totalTime = (evaluate c s b).state.totalTime) :
    (evaluate c' s' b').result.time = (evaluate c s b).result.time := by
  change (evaluate c' s' b').state.totalTime - s'.totalTime = _
  rw [hbefore, hafter]
  rfl

/-! ### Runs -/

namespace State

/-- Two programs of as many lines, compared line by line along the run of the first: `L` holds
of each pair of lines in the state that the first machine is in before it. -/
inductive Paired (c : Config α) (L : State α → Block α → Block α → Prop) :
    State α → List (Block α) → List (Block α) → Prop
  | nil (s : State α) : Paired c L s [] []
  | cons {s : State α} {b b' : Block α} {bs bs' : List (Block α)} (hline : L s b b')
      (hlines : Paired c L (evaluate c s b).state bs bs') : Paired c L s (b :: bs) (b' :: bs')

/-- A program is paired with itself. -/
theorem paired_self (c : Config α) {P : Block α → Prop} {bs : List (Block α)}
    (h : ∀ b ∈ bs, P b) (s : State α) : Paired c (fun _ b b' => b' = b ∧ P b) s bs bs := by
  induction bs generalizing s with
  | nil => exact .nil s
  | cons b bs ih =>
      obtain ⟨hb, hbs⟩ := List.forall_mem_cons.1 h
      exact .cons ⟨rfl, hb⟩ (ih hbs _)

/-- Programs are paired if their lines are related one by one, whatever the states. -/
theorem paired_of_forall₂ (c : Config α) {L : Block α → Block α → Prop} {bs bs' : List (Block α)}
    (h : List.Forall₂ L bs bs') (s : State α) : Paired c (fun _ => L) s bs bs' := by
  induction h generalizing s with
  | nil => exact .nil s
  | cons hline _ ih => exact .cons hline (ih _)

/-- The first lines of paired programs are paired. -/
theorem Paired.take {c : Config α} {L : State α → Block α → Block α → Prop} {s : State α}
    {bs bs' : List (Block α)} (h : s.Paired c L bs bs') (k : Nat) :
    s.Paired c L (bs.take k) (bs'.take k) := by
  induction h generalizing k with
  | nil s =>
      rw [List.take_nil]
      exact .nil s
  | cons hline _ ih =>
      cases k with
      | zero => exact .nil _
      | succ k => exact .cons hline (ih k)

/-- **What each pair of lines preserves, paired programs preserve**: related states stay
related, and what is read of the results is the same line by line. -/
theorem Paired.run {β : Type} {c c' : Config α} {L : State α → Block α → Block α → Prop}
    {R : State α → State α → Prop} {read : LineResult α → β}
    (hline : ∀ {s s' b b'}, R s s' → L s b b' →
      R (evaluate c s b).state (evaluate c' s' b').state ∧
        read (evaluate c' s' b').result = read (evaluate c s b).result)
    {s s' : State α} {bs bs' : List (Block α)} (h : s.Paired c L bs bs') (hs : R s s') :
    R (s.run c bs) (s'.run c' bs') ∧
      (s'.record c' bs').map (fun line => read line.2) =
        (s.record c bs).map fun line => read line.2 := by
  induction h generalizing s' with
  | nil s => exact ⟨hs, rfl⟩
  | cons hpair _ ih =>
      obtain ⟨hstate, hresult⟩ := hline hs hpair
      obtain ⟨hrun, hrecord⟩ := ih hstate
      refine ⟨hrun, ?_⟩
      rw [record_cons, record_cons, List.map_cons, List.map_cons, hresult, hrecord]

/-- What each line preserves, a program preserves that both machines run. -/
theorem run_alike {β : Type} {c c' : Config α} {R : State α → State α → Prop}
    {read : LineResult α → β} {P : Block α → Prop}
    (hline : ∀ {s s' b}, R s s' → P b →
      R (evaluate c s b).state (evaluate c' s' b).state ∧
        read (evaluate c' s' b).result = read (evaluate c s b).result)
    {s s' : State α} {bs : List (Block α)} (hbs : ∀ b ∈ bs, P b) (hs : R s s') :
    R (s.run c bs) (s'.run c' bs) ∧
      (s'.record c' bs).map (fun line => read line.2) =
        (s.record c bs).map fun line => read line.2 := by
  refine (paired_self c hbs s).run ?_ hs
  rintro s s' b b' hs ⟨rfl, hb⟩
  exact hline hs hb

end State

end DryRun
