import DryRun.Proofs.FrameIndependence
import DryRun.Proofs.Homogeneity
import DryRun.Proofs.Labels
import DryRun.Proofs.Shape

/-!
# Inches and millimetres

A program in inches can be restated in millimetres: its first line selects the other units, and
every length and feed of the lines after it is multiplied by the number of millimetres in an
inch (`Word.metric`). In exact numbers the two programs take the same time, line by line and
move by move, and the positions, offsets and bounds of the second are those of the first in the
other units.

The limits of a machine are the only lengths that a run does not read off its program. They are
converted where they are used, so that a machine in inches compares everything in inches
(`Config.maxFeedIn_mm`, `Config.accelerationIn_mm`). Arcs are timed over their chord here: the
centre that is found for a radius is compared with a fixed tolerance, which is not converted,
so the shape of an arc, its length and the notes on it are not compared.

## Main results

* `State.SameLengths.evaluate`: a line and the restated line lead from a state and the same
  state in millimetres to such states, in the same time.
* `State.units_invisible`: so do programs that begin by selecting their units.
-/

open DryRun.Units (mmPerInch)

namespace DryRun

open Lengths

/-- The feed limit of an axis in both units. -/
theorem Config.maxFeedIn_mm (c : Config ℝ) (axis : Nat) :
    c.maxFeedIn .mm axis = mmPerInch * c.maxFeedIn .inch axis :=
  (mul_div_cancel₀ _ Units.mmPerInch_pos.ne').symm

/-- The acceleration of an axis in both units. -/
theorem Config.accelerationIn_mm (c : Config ℝ) (axis : Nat) :
    c.accelerationIn .mm axis = mmPerInch * c.accelerationIn .inch axis :=
  (mul_div_cancel₀ _ Units.mmPerInch_pos.ne').symm

/-! ### Restated lines -/

/-- Whether the value of a letter is a length or a feed. -/
def isLength (axes : List Char) (letter : Char) : Bool :=
  (axisIndex? axes letter).isSome || ['F', 'I', 'J', 'K', 'R'].contains letter

/-- A word in inches, restated in millimetres. -/
noncomputable def Word.metric (axes : List Char) (w : Word ℝ) : Word ℝ :=
  if isLength axes w.letter then { w with value := mmPerInch * w.value } else w

/-- Letter case does not matter for which letters name an axis. -/
theorem isLength_map_toLower (axes : List Char) (letter : Char) :
    isLength (axes.map Char.toLower) letter = isLength axes letter := by
  simp only [isLength, axisIndex?, List.findIdx?_map, Function.comp_def, Label.toLower_toLower]

section Restated

variable {axes : List Char} {b b' : Block ℝ} (hwords : b'.words = b.words.map (Word.metric axes))

include hwords

/-- The values of a letter in a restated line. -/
theorem Block.values_metric (letter : Char) :
    b'.values letter =
      if isLength axes letter.toUpper then scale mmPerInch (b.values letter)
      else b.values letter := by
  have hletter (w : Word ℝ) : (w.metric axes).letter = w.letter := by
    rw [Word.metric]
    split <;> rfl
  have hfilter : b'.words.filter (·.letter = letter.toUpper) =
      (b.words.filter (·.letter = letter.toUpper)).map (Word.metric axes) := by
    rw [hwords, List.filter_map]
    simp only [Function.comp_def, hletter]
  have hvalues : (b.words.filter (·.letter = letter.toUpper)).map
        ((·.value) ∘ Word.metric axes) =
      (b.words.filter (·.letter = letter.toUpper)).map fun w =>
        if isLength axes letter.toUpper then mmPerInch * w.value else w.value := by
    refine List.map_congr_left fun w hw => ?_
    rw [← of_decide_eq_true (List.mem_filter.1 hw).2, Function.comp_apply, Word.metric]
    split <;> rfl
  rw [values, hfilter, List.map_map, hvalues]
  split
  · rw [scale, values, List.map_map]
    rfl
  · rfl

/-- A letter occurs in a restated line if it does in the line. -/
theorem Block.has_metric (letter : Char) : b'.has letter = b.has letter := by
  have hletters : b'.letters = b.letters := by
    rw [letters, letters, hwords, List.map_map]
    refine List.map_congr_left fun w _ => ?_
    rw [Function.comp_apply, Word.metric]
    split <;> rfl
  rw [has_eq_any_letters, has_eq_any_letters, hletters]

variable (haxes : Config.labelFault? [] axes = none)

/-- The value of a length in a restated line. -/
theorem Block.get?_metric {letter : Char} (hlength : isLength axes letter.toUpper = true) :
    b'.get? letter = (b.get? letter).map (mmPerInch * ·) := by
  rw [get?_eq_head?, get?_eq_head?, values_metric hwords, if_pos hlength, scale, List.head?_map]

include haxes

/-- What is no length in a restated line is as it was. -/
theorem Block.values_metric_of_reserved {letter : Char} (hl : letter ∈ reservedLetters)
    (hlength : letter ∉ ['F', 'I', 'J', 'K', 'R']) : b'.values letter = b.values letter := by
  have hnot : isLength axes letter.toUpper = false := by
    rw [toUpper_of_reserved hl, isLength, axisIndex?_of_reserved haxes hl]
    simpa using hlength
  rw [values_metric hwords, hnot, if_neg Bool.false_ne_true]

/-- A letter that is neither an axis nor a length has the same first value. -/
theorem Block.get?_metric_of_reserved {letter : Char} (hl : letter ∈ reservedLetters)
    (hlength : letter ∉ ['F', 'I', 'J', 'K', 'R']) : b'.get? letter = b.get? letter := by
  rw [get?_eq_head?, get?_eq_head?, values_metric_of_reserved hwords haxes hl hlength]

/-- A letter that is neither an axis nor a length has the same codes. -/
theorem Block.codes_metric {letter : Char} (hl : letter ∈ reservedLetters)
    (hlength : letter ∉ ['F', 'I', 'J', 'K', 'R']) : b'.codes letter = b.codes letter := by
  rw [codes, codes, values_metric_of_reserved hwords haxes hl hlength]

/-- The axis words of a restated line. -/
theorem axisWords_metric : axisWords axes b' = scale? mmPerInch (axisWords axes b) := by
  rw [axisWords, axisWords, scale?, List.map_map]
  refine List.map_congr_left fun axis haxis => ?_
  obtain ⟨index, hindex⟩ := List.getElem?_of_mem haxis
  refine Block.get?_metric hwords ?_
  rw [isLength, axisIndex?_toUpper haxes hindex]
  rfl

end Restated

/-- The same axes are named. -/
theorem anyNamed_scale? (k : ℝ) (words : List (Option ℝ)) :
    anyNamed (scale? k words) = anyNamed words := by
  simp only [anyNamed, scale?, List.any_map, Function.comp_def, Option.isSome_map]

/-- The time of a line and the times of its moves. -/
def LineResult.times (r : LineResult ℝ) : ℝ × List ℝ := (r.time, r.events.map Event.time)

/-- Whether a modal command selects units, or the mode in which a feed is no length in a time. -/
def ModalCommand.changesMeasure : ModalCommand → Bool
  | .units _ => true
  | .feedMode inverse => inverse
  | _ => false

/-- The `G` codes of these commands. -/
def measureCodes : List Int := [200, 210, 930]

namespace State

/-! ### States in millimetres -/

/-- A state in inches, restated in millimetres and with a catalogue of its own. -/
noncomputable def metric (s : State ℝ) (catalogue : Catalogue ℝ) : State ℝ :=
  { s with
    work := scale mmPerInch s.work
    machine := scale mmPerInch s.machine
    frame := s.frame.scale mmPerInch
    home := scale mmPerInch s.home
    secondaryHome := scale mmPerInch s.secondaryHome
    settings := { s.settings with units := .mm, feed := mmPerInch * s.settings.feed }
    axisFeeds := s.axisFeeds.map (scale mmPerInch)
    envelope := s.envelope.scale mmPerInch
    catalogue }

/-- A state of a machine with these axes that is in inches, and a state that is the same in
millimetres, apart from the catalogue. -/
structure SameLengths (axes : List Char) (s s' : State ℝ) : Prop where
  axes : s.axes = axes
  units : s.settings.units = .inch
  inverseFeed : s.settings.inverseFeed = false
  metric : ∃ catalogue, s' = s.metric catalogue

section Lines

variable (s : State ℝ) (catalogue : Catalogue ℝ)

/-- The machine stands still while the frame changes. -/
theorem setFrame_metric (f : Frame ℝ) :
    (s.metric catalogue).setFrame (f.scale mmPerInch) = (s.setFrame f).metric catalogue := by
  simp only [setFrame, deriveWork, metric, Frame.toWork_scale]

/-- Selecting a work coordinate system in millimetres. -/
theorem selectSystem_metric (index : Nat) :
    (s.metric catalogue).selectSystem index = (s.selectSystem index).metric catalogue := by
  have hsystem : (s.metric catalogue).frame.hasSystem index = s.frame.hasSystem index := by
    simp only [metric, Frame.hasSystem, Frame.scale, List.length_map]
  rw [selectSystem, selectSystem, hsystem]
  by_cases hindex : s.frame.hasSystem index = true
  · rw [if_pos hindex, if_pos hindex]
    exact setFrame_metric s catalogue { s.frame with active := index }
  · rw [if_neg hindex, if_neg hindex]

/-! ### Actions -/

/-- The offsets that a line gives or takes from the position. -/
theorem newOffsets_metric (fromPosition : Bool) (words : List (Option ℝ)) (offsets : List ℝ) :
    (s.metric catalogue).newOffsets fromPosition (scale? mmPerInch words)
        (scale mmPerInch offsets) =
      scale mmPerInch (s.newOffsets fromPosition words offsets) := by
  have horigin (axis : Nat) :
      (s.metric catalogue).originOffset axis = mmPerInch * s.originOffset axis := by
    change ((scale mmPerInch s.machine)[axis]?).getD 0 - (s.frame.scale mmPerInch).overrideAt axis
      = _
    rw [getD_getElem?_scale, Frame.overrideAt_scale, ← mul_sub]
    rfl
  apply List.ext_getElem?
  intro i
  simp only [newOffsets, List.getElem?_mapIdx, getElem?_scale, join_getElem?_scale?, horigin]
  cases offsets[i]? with
  | none => rfl
  | some old =>
      cases words[i]?.join with
      | none => rfl
      | some value => cases fromPosition <;> rfl

/-- Setting the offsets of a system in millimetres. -/
theorem setOffsets_metric (fromPosition : Bool) (index : Nat) (words : List (Option ℝ)) :
    (s.metric catalogue).setOffsets fromPosition index (scale? mmPerInch words) =
      (s.setOffsets fromPosition index words).metric catalogue := by
  have hsystems : (s.frame.systems.map (scale mmPerInch)).modify index
        ((s.metric catalogue).newOffsets fromPosition (scale? mmPerInch words)) =
      (s.frame.systems.modify index (s.newOffsets fromPosition words)).map (scale mmPerInch) := by
    apply List.ext_getElem?
    intro i
    simp only [List.getElem?_modify, List.getElem?_map]
    cases s.frame.systems[i]? with
    | none => rfl
    | some offsets =>
        by_cases hi : index = i
        · simp [hi, newOffsets_metric]
        · simp [hi]
  by_cases hindex : index = s.frame.active
  · have h : s.setOffsets fromPosition index words = s.setFrame { s.frame with
        systems := s.frame.systems.modify index (s.newOffsets fromPosition words) } :=
      if_pos hindex
    have h' : (s.metric catalogue).setOffsets fromPosition index (scale? mmPerInch words) =
        (s.metric catalogue).setFrame { s.frame.scale mmPerInch with
          systems := (s.frame.systems.map (scale mmPerInch)).modify index
            ((s.metric catalogue).newOffsets fromPosition (scale? mmPerInch words)) } :=
      if_pos hindex
    rw [h, h', hsystems]
    exact setFrame_metric s catalogue { s.frame with
      systems := s.frame.systems.modify index (s.newOffsets fromPosition words) }
  · have h : s.setOffsets fromPosition index words = { s with frame := { s.frame with
        systems := s.frame.systems.modify index (s.newOffsets fromPosition words) } } :=
      if_neg hindex
    have h' : (s.metric catalogue).setOffsets fromPosition index (scale? mmPerInch words) =
        { s.metric catalogue with frame := { s.frame.scale mmPerInch with
          systems := (s.frame.systems.map (scale mmPerInch)).modify index
            ((s.metric catalogue).newOffsets fromPosition (scale? mmPerInch words)) } } :=
      if_neg hindex
    rw [h, h', hsystems]
    rfl

/-- Homed axes are at zero in all units. -/
theorem homeAxes_metric (words : List (Option ℝ)) :
    (s.metric catalogue).homeAxes (scale? mmPerInch words) =
      (s.homeAxes words).metric catalogue := by
  have hmachine : (scale mmPerInch s.machine).mapIdx (fun axis here =>
        if ((scale? mmPerInch words)[axis]?.join).isSome then 0 else here) =
      scale mmPerInch (s.machine.mapIdx fun axis here =>
        if (words[axis]?.join).isSome then 0 else here) := by
    apply List.ext_getElem?
    intro i
    simp only [List.getElem?_mapIdx, getElem?_scale, join_getElem?_scale?, Option.isSome_map]
    cases s.machine[i]? with
    | none => rfl
    | some here =>
        simp only [Option.map_some]
        split
        · rw [mul_zero]
        · rfl
  change deriveWork { s.metric catalogue with machine := (scale mmPerInch s.machine).mapIdx _ } = _
  rw [hmachine]
  simp only [homeAxes, deriveWork, metric, Frame.toWork_scale]

/-- The offset that makes the position read as a line says. -/
theorem shiftedOffset_metric (words : List (Option ℝ)) :
    (s.metric catalogue).shiftedOffset (scale? mmPerInch words) =
      scale mmPerInch (s.shiftedOffset words) := by
  have hsystem (axis : Nat) :
      Frame.component (s.frame.systems.map (scale mmPerInch))[s.frame.active]? axis =
        mmPerInch * Frame.component s.frame.systems[s.frame.active]? axis := by
    rw [List.getElem?_map, Frame.component_scale]
  apply List.ext_getElem?
  intro i
  change ((scale mmPerInch s.frame.offset).mapIdx _)[i]? = _
  simp only [shiftedOffset, List.getElem?_mapIdx, getElem?_scale, join_getElem?_scale?]
  cases s.frame.offset[i]? with
  | none => rfl
  | some old =>
      cases words[i]?.join with
      | none => rfl
      | some value =>
          change some (((scale mmPerInch s.machine)[i]?).getD 0 -
            Frame.component (s.frame.systems.map (scale mmPerInch))[s.frame.active]? i -
              mmPerInch * value) = some (mmPerInch * _)
          rw [getD_getElem?_scale, hsystem, ← mul_sub, ← mul_sub]

/-- An origin command in millimetres. -/
theorem applyOrigin_metric (words : List (Option ℝ)) (command : OriginCommand) :
    (s.metric catalogue).applyOrigin (scale? mmPerInch words) command =
      (s.applyOrigin words command).metric catalogue := by
  cases command with
  | set =>
      rw [applyOrigin, shiftedOffset_metric]
      exact setFrame_metric s catalogue
        { s.frame with offset := s.shiftedOffset words, offsetEnabled := true }
  | clear =>
      change (s.metric catalogue).setFrame (s.frame.scale mmPerInch).clearOffset = _
      rw [Frame.clearOffset_scale]
      exact setFrame_metric s catalogue s.frame.clearOffset
  | suspend => exact setFrame_metric s catalogue { s.frame with offsetEnabled := false }
  | restore => exact setFrame_metric s catalogue { s.frame with offsetEnabled := true }

/-! ### Moves -/

/-- Where targets lead in millimetres. -/
theorem destination_metric (targets : List (Option ℝ)) :
    (s.metric catalogue).destination (scale? mmPerInch targets) =
      scale mmPerInch (s.destination targets) :=
  zipWith_getD_scale targets s.work

/-- How far each axis travels in millimetres. -/
theorem axisTravels_metric (finish : List ℝ) :
    (s.metric catalogue).axisTravels (scale mmPerInch finish) =
      scale mmPerInch (s.axisTravels finish) := by
  have habs (there here : ℝ) : Scalar.abs (mmPerInch * there - mmPerInch * here) =
      mmPerInch * Scalar.abs (there - here) := by
    change |mmPerInch * there - mmPerInch * here| = mmPerInch * |there - here|
    rw [← mul_sub, abs_mul, abs_of_pos Units.mmPerInch_pos]
  apply List.ext_getElem?
  intro i
  change (List.zipWith _ (scale mmPerInch finish) (scale mmPerInch s.work))[i]? = _
  simp only [axisTravels, getElem?_scale, List.getElem?_zipWith]
  rcases finish[i]? with _ | there
  · rfl
  · rcases s.work[i]? with _ | here
    · rfl
    · exact congrArg some (habs there here)

section Timed

variable (c : Config ℝ) (hunits : s.settings.units = .inch)
  (hinverse : s.settings.inverseFeed = false) (targets : List (Option ℝ)) (feed : Option ℝ)

include hunits hinverse

/-- A straight move takes the same time, and ends with the same feeds in millimetres. -/
theorem moveDuration_metric :
    (s.metric catalogue).moveDuration c (scale? mmPerInch targets) (feed.map (mmPerInch * ·)) none =
      ((s.moveDuration c targets feed none).1,
        (s.moveDuration c targets feed none).2.map (scale mmPerInch)) := by
  have hfeed (axis : Nat) : c.maxFeedIn (s.metric catalogue).settings.units axis =
      mmPerInch * c.maxFeedIn s.settings.units axis := by
    rw [hunits]
    exact c.maxFeedIn_mm axis
  have hacceleration (axis : Nat) : c.accelerationIn (s.metric catalogue).settings.units axis =
      mmPerInch * c.accelerationIn s.settings.units axis := by
    rw [hunits]
    exact c.accelerationIn_mm axis
  have hinverse' : (s.metric catalogue).settings.inverseFeed = false := hinverse
  have hduration := Timing.duration_scale Units.mmPerInch_pos hinverse hinverse' hfeed
    hacceleration s.axisFeeds (s.axisTravels (s.destination targets))
    (Scalar.norm (s.axisTravels (s.destination targets))) feed
  rw [← norm_scale Units.mmPerInch_pos, ← axisTravels_metric s catalogue,
    ← destination_metric s catalogue] at hduration
  exact hduration

/-- A move takes the same time. -/
theorem moveTime_metric :
    (s.metric catalogue).moveTime c (scale? mmPerInch targets) (feed.map (mmPerInch * ·)) none =
      s.moveTime c targets feed none := by
  rw [moveTime, moveTime, moveDuration_metric s catalogue c hunits hinverse]

/-- A move ends in the same place and with the same feeds. -/
theorem move_metric :
    (s.metric catalogue).move c (scale? mmPerInch targets) (feed.map (mmPerInch * ·)) none =
      (s.move c targets feed none).metric catalogue := by
  rw [move, moveTime_metric s catalogue c hunits hinverse,
    moveDuration_metric s catalogue c hunits hinverse, destination_metric]
  change { s.metric catalogue with
    work := scale mmPerInch (s.destination targets)
    machine := (s.frame.scale mmPerInch).toMachine (scale mmPerInch (s.destination targets))
    envelope := (s.envelope.scale mmPerInch).addMove (scale? mmPerInch targets)
      (scale mmPerInch s.work) (scale mmPerInch (s.destination targets))
      (scale mmPerInch s.machine)
      ((s.frame.scale mmPerInch).toMachine (scale mmPerInch (s.destination targets)))
    axisFeeds := (s.moveDuration c targets feed none).2.map (scale mmPerInch)
    totalTime := s.totalTime + s.moveTime c targets feed none } = _
  rw [Frame.toMachine_scale, Envelope.addMove_scale Units.mmPerInch_pos]
  rfl

end Timed

/-- Targets that a line gives in machine coordinates. -/
theorem machineWordsToWork_metric (words : List (Option ℝ)) :
    (s.metric catalogue).machineWordsToWork (scale? mmPerInch words) =
      scale? mmPerInch (s.machineWordsToWork words) := by
  have hgiven (values : List ℝ) :
      List.zipWith (fun value word => word.map fun _ => value) (scale mmPerInch values)
          (scale? mmPerInch words) =
        scale? mmPerInch
          (List.zipWith (fun value word => word.map fun _ => value) values words) := by
    apply List.ext_getElem?
    intro i
    simp only [getElem?_scale, getElem?_scale?, List.getElem?_zipWith]
    rcases values[i]? with _ | value <;> rcases words[i]? with _ | _ | word <;> rfl
  rw [machineWordsToWork, machineWordsToWork, ← hgiven, ← Frame.toWork_scale, ← zipWith_getD_scale]
  rfl

/-- The targets of a restated line. -/
theorem targets_metric (machineFrame : Bool) (words : List (Option ℝ)) :
    (s.metric catalogue).targets machineFrame (scale? mmPerInch words) =
      scale? mmPerInch (s.targets machineFrame words) := by
  cases machineFrame with
  | true => exact machineWordsToWork_metric s catalogue words
  | false =>
      apply List.ext_getElem?
      intro i
      change (List.zipWith _ (scale? mmPerInch words) (scale mmPerInch s.work))[i]? =
        (scale? mmPerInch (List.zipWith _ words s.work))[i]?
      simp only [getElem?_scale, getElem?_scale?, List.getElem?_zipWith]
      rcases words[i]? with _ | _ | v <;> rcases s.work[i]? with _ | here <;> try rfl
      change some (some (if s.settings.incremental then mmPerInch * here + mmPerInch * v
        else mmPerInch * v)) = some (some (mmPerInch * _))
      split
      · rw [← mul_add]
      · rfl

/-- The feed of a feed move in millimetres. -/
theorem feed?_metric :
    (s.metric catalogue).feed? = s.feed?.map (mmPerInch * ·) := by
  change (if 0 < mmPerInch * s.settings.feed then some (mmPerInch * s.settings.feed) else none) = _
  rw [feed?, if_congr (mul_pos_iff_of_pos_left Units.mmPerInch_pos) rfl rfl]
  split <;> rfl

end Lines

/-! ### Lines -/

namespace SameLengths

variable {axes : List Char} {s s' : State ℝ} {b b' : Block ℝ}

/-- The same time has passed. -/
theorem totalTime (h : SameLengths axes s s') : s'.totalTime = s.totalTime := by
  obtain ⟨-, -, -, catalogue, rfl⟩ := h
  rfl

/-- Modal commands other than those that change what is measured. -/
theorem applyModal (h : SameLengths axes s s') (hp : b'.get? 'P' = b.get? 'P')
    {command : ModalCommand} (hcommand : command.changesMeasure = false) :
    SameLengths axes (s.applyModal b command) (s'.applyModal b' command) := by
  obtain ⟨haxes, hunits, hinverse, catalogue, rfl⟩ := h
  cases command with
  | units u => cases hcommand
  | feedMode inverse =>
      obtain rfl : inverse = false := hcommand
      exact ⟨haxes, hunits, rfl, catalogue, rfl⟩
  | system index =>
      obtain ⟨frame, work, hselect⟩ := selectSystem_eq s index
      change SameLengths axes (s.selectSystem index) ((s.metric catalogue).selectSystem index)
      rw [selectSystem_metric, hselect]
      exact ⟨haxes, hunits, hinverse, catalogue, rfl⟩
  | dwell =>
      have hdwell : dwellTime? b' = dwellTime? b := by rw [dwellTime?, dwellTime?, hp]
      change SameLengths axes (s.dwell b) ((s.metric catalogue).dwell b')
      rw [dwell, dwell, hdwell]
      cases dwellTime? b <;> exact ⟨haxes, hunits, hinverse, catalogue, rfl⟩
  | plane _ | cancelMotion | distanceMode _ => exact ⟨haxes, hunits, hinverse, catalogue, rfl⟩

/-- The `G` codes of a line, as far as they are modal. -/
theorem foldl_applyG (h : SameLengths axes s s') (hp : b'.get? 'P' = b.get? 'P')
    {codes : List Int} (hcodes : ∀ code ∈ codes, ∀ command, ModalCommand.ofCode? code =
      some command → command.changesMeasure = false) :
    SameLengths axes (codes.foldl (applyG b) s) (codes.foldl (applyG b') s') := by
  induction codes generalizing s s' with
  | nil => exact h
  | cons code codes ih =>
      obtain ⟨hcode, hcodes⟩ := List.forall_mem_cons.1 hcodes
      rw [List.foldl_cons, List.foldl_cons]
      refine ih ?_ hcodes
      rw [applyG, applyG]
      cases hc : ModalCommand.ofCode? code with
      | none => exact h
      | some command => exact h.applyModal hp (hcode command hc)

/-- The feed of a line. -/
theorem applyFeed (h : SameLengths axes s s')
    (hf : b'.get? 'F' = (b.get? 'F').map (mmPerInch * ·)) :
    SameLengths axes (s.applyFeed b) (s'.applyFeed b') := by
  obtain ⟨haxes, hunits, hinverse, catalogue, rfl⟩ := h
  have hfilter : (b'.get? 'F').filter (0 ≤ ·) =
      ((b.get? 'F').filter (0 ≤ ·)).map (mmPerInch * ·) := by
    rw [hf]
    cases b.get? 'F' with
    | none => rfl
    | some f => simp [Option.filter, mul_nonneg_iff_of_pos_left Units.mmPerInch_pos, apply_ite]
  rw [State.applyFeed, State.applyFeed, hfilter]
  cases (b.get? 'F').filter (0 ≤ ·) with
  | none => exact ⟨haxes, hunits, hinverse, catalogue, rfl⟩
  | some feed => exact ⟨haxes, hunits, hinverse, _, rfl⟩

/-- The spindle speed of a line. -/
theorem applySpeed (h : SameLengths axes s s') (hs : b'.get? 'S' = b.get? 'S') :
    SameLengths axes (s.applySpeed b) (s'.applySpeed b') := by
  obtain ⟨haxes, hunits, hinverse, catalogue, rfl⟩ := h
  rw [State.applySpeed, State.applySpeed, hs]
  cases (b.get? 'S').filter (0 ≤ ·) with
  | none => exact ⟨haxes, hunits, hinverse, catalogue, rfl⟩
  | some speed => exact ⟨haxes, hunits, hinverse, _, rfl⟩

/-- The tools of a line. -/
theorem applyTools (h : SameLengths axes s s') (ht : b'.values 'T' = b.values 'T') :
    SameLengths axes (s.applyTools b) (s'.applyTools b') := by
  rw [State.applyTools, State.applyTools, ht]
  induction (b.values 'T').filterMap toolOf? generalizing s s' with
  | nil => exact h
  | cons tool tools ih =>
      refine ih ?_
      obtain ⟨haxes, hunits, hinverse, catalogue, rfl⟩ := h
      exact ⟨haxes, hunits, hinverse, _, rfl⟩

/-- The `M` codes of a line. -/
theorem foldl_applyM (h : SameLengths axes s s') (codes : List Int) :
    SameLengths axes (codes.foldl applyM s) (codes.foldl applyM s') := by
  induction codes generalizing s s' with
  | nil => exact h
  | cons code codes ih =>
      rw [List.foldl_cons, List.foldl_cons]
      refine ih ?_
      obtain ⟨haxes, hunits, hinverse, catalogue, rfl⟩ := h
      rw [applyM, applyM]
      cases SwitchCommand.ofCode? code with
      | none => exact ⟨haxes, hunits, hinverse, catalogue, rfl⟩
      | some command => cases command <;> exact ⟨haxes, hunits, hinverse, _, rfl⟩

section Restated

variable (hlabels : Config.labelFault? [] axes = none)
  (hwords : b'.words = b.words.map (Word.metric axes))

include hlabels hwords

/-- **The modal words of a line.** -/
theorem prepare (h : SameLengths axes s s') (hmeasure : b.lacks 'G' measureCodes = true) :
    SameLengths axes (s.prepare b) (s'.prepare b') := by
  have hp : b'.get? 'P' = b.get? 'P' :=
    Block.get?_metric_of_reserved hwords hlabels (by decide) (by decide)
  have hs : b'.get? 'S' = b.get? 'S' :=
    Block.get?_metric_of_reserved hwords hlabels (by decide) (by decide)
  have ht : b'.values 'T' = b.values 'T' :=
    Block.values_metric_of_reserved hwords hlabels (by decide) (by decide)
  have hf : b'.get? 'F' = (b.get? 'F').map (mmPerInch * ·) :=
    Block.get?_metric hwords (by simp [isLength])
  have hcount : SameLengths axes (s.count b) (s'.count b') := by
    obtain ⟨haxes, hunits, hinverse, catalogue, rfl⟩ := h
    exact ⟨haxes, hunits, hinverse, _, rfl⟩
  rw [State.prepare, State.prepare, applyModalWords, applyModalWords,
    Block.codes_metric hwords hlabels (by decide) (by decide),
    Block.codes_metric hwords hlabels (by decide) (by decide)]
  refine foldl_applyM (applyTools (applySpeed (applyFeed ?_ hf) hs) ht) _
  exact hcount.foldl_applyG hp fun code hcode command hc =>
    Block.command_of_lacks (by decide) hmeasure hcode hc

/-- **The action of a line.** -/
theorem act (h : SameLengths axes s s') (a : Action) :
    SameLengths axes (s.act b a) (s'.act b' a) := by
  obtain ⟨rfl, hunits, hinverse, catalogue, rfl⟩ := h
  have hact : (s.metric catalogue).act b' a = (s.act b a).metric catalogue := by
    have haxisWords := axisWords_metric hwords hlabels
    cases a with
    | setSystem =>
        have hp : b'.get? 'P' = b.get? 'P' :=
          Block.get?_metric_of_reserved hwords hlabels (by decide) (by decide)
        have hl : b'.codes 'L' = b.codes 'L' :=
          Block.codes_metric hwords hlabels (by decide) (by decide)
        have hsystem : (s.metric catalogue).offsetSystem? b' = s.offsetSystem? b := by
          simp only [offsetSystem?, givesOffsets, takesOffsets, Block.hasCode, hp, hl]
          rfl
        have htakes : takesOffsets b' = takesOffsets b := by
          simp only [takesOffsets, Block.hasCode, hl]
        change (s.metric catalogue).setSystem b' = (s.setSystem b).metric catalogue
        rw [setSystem, setSystem, hsystem, htakes]
        cases s.offsetSystem? b with
        | none => rfl
        | some index =>
            change (s.metric catalogue).setOffsets _ index (axisWords s.axes b') = _
            rw [haxisWords]
            exact setOffsets_metric s catalogue _ index _
    | storeHome => rfl
    | storeSecondaryHome => rfl
    | homeAxes =>
        change (s.metric catalogue).homeAxes (axisWords s.axes b') = _
        rw [haxisWords]
        exact homeAxes_metric s catalogue _
    | origin command =>
        change (s.metric catalogue).applyOrigin (axisWords s.axes b') command = _
        rw [haxisWords]
        exact applyOrigin_metric s catalogue _ command
  obtain ⟨work, machine, frame, home, secondaryHome, heq⟩ := act_eq s b a
  rw [hact, heq]
  exact ⟨rfl, hunits, hinverse, catalogue, rfl⟩

/-! ### Motions -/

omit hlabels hwords

/-- **One move.** Nothing of its shape matters but its targets. -/
theorem perform (h : SameLengths axes s s') (c : Config ℝ) (motion : Motion)
    (targets : List (Option ℝ)) (feed : Option ℝ) (geometry geometry' : Geometry ℝ) :
    SameLengths axes (s.perform c motion targets feed none geometry).1
        (s'.perform c motion (scale? mmPerInch targets) (feed.map (mmPerInch * ·)) none
          geometry').1 ∧
      (s'.perform c motion (scale? mmPerInch targets) (feed.map (mmPerInch * ·)) none
        geometry').2.time = (s.perform c motion targets feed none geometry).2.time := by
  obtain ⟨haxes, hunits, hinverse, catalogue, rfl⟩ := h
  exact ⟨⟨haxes, hunits, hinverse, catalogue,
    move_metric s catalogue c hunits hinverse targets feed⟩,
    moveTime_metric s catalogue c hunits hinverse targets feed⟩

/-- Motions that lead to such states, with moves that take the same times. -/
def Performs (axes : List Char) (p p' : Performed ℝ) : Prop :=
  SameLengths axes p.state p'.state ∧ p'.events.map Event.time = p.events.map Event.time

/-- A line of motion that is one move. -/
theorem single (h : SameLengths axes s s') (c : Config ℝ) (motion : Motion)
    (targets : List (Option ℝ)) (feed : Option ℝ) (geometry geometry' : Geometry ℝ)
    (notes notes' : List (Note ℝ)) :
    Performs axes
      ⟨(s.perform c motion targets feed none geometry).1,
        [(s.perform c motion targets feed none geometry).2], notes⟩
      ⟨(s'.perform c motion (scale? mmPerInch targets) (feed.map (mmPerInch * ·)) none
          geometry').1,
        [(s'.perform c motion (scale? mmPerInch targets) (feed.map (mmPerInch * ·)) none
          geometry').2], notes'⟩ := by
  obtain ⟨hstate, htime⟩ := h.perform c motion targets feed geometry geometry'
  exact ⟨hstate, congrArg (· :: []) htime⟩

/-- The feed of a feed move from a state of the same lengths. -/
theorem feed? (h : SameLengths axes s s') : s'.feed? = s.feed?.map (mmPerInch * ·) := by
  obtain ⟨-, -, -, catalogue, rfl⟩ := h
  exact feed?_metric s catalogue

/-- An arc that is timed over its chord. -/
theorem arc (h : SameLengths axes s s') {c : Config ℝ} (hchord : c.arcLengthTravel = false)
    (hhas : ∀ letter, b'.has letter = b.has letter) (motion : Motion)
    (targets : List (Option ℝ)) :
    Performs axes (s.arc c b motion targets) (s'.arc c b' motion (scale? mmPerInch targets)) := by
  have hplane : s'.settings.plane = s.settings.plane := by
    obtain ⟨-, -, -, catalogue, rfl⟩ := h
    rfl
  have hindex (label : Char) : s'.axisIndex? label = s.axisIndex? label := by
    obtain ⟨-, -, -, catalogue, rfl⟩ := h
    rfl
  have hcentre : (centre? s.settings.plane b').isSome = (centre? s.settings.plane b).isSome := by
    have hsome (b : Block ℝ) : (b.get? 'R').isSome = b.has 'R' := by
      rw [Bool.eq_iff_iff]
      simp [Block.get?, Block.has]
    rw [centre?, centre?, hhas, hhas]
    split
    · rfl
    · rw [Option.isSome_map, Option.isSome_map, hsome, hsome, hhas]
  have hstraight (notes notes' : List (Note ℝ)) :
      Performs axes (s.straight c motion targets s.feed? notes)
        (s'.straight c motion (scale? mmPerInch targets) s'.feed? notes') := by
    rw [h.feed?]
    exact h.single c motion targets s.feed? .line .line notes notes'
  rw [State.arc, State.arc, hplane]
  simp only [hindex]
  cases s.axisIndex? s.settings.plane.first with
  | none => exact hstraight _ _
  | some first =>
      cases s.axisIndex? s.settings.plane.second with
      | none => exact hstraight _ _
      | some second =>
          cases hb : centre? s.settings.plane b with
          | none =>
              rw [hb, Option.isSome_none, Option.isSome_eq_false_iff, Option.isNone_iff_eq_none]
                at hcentre
              rw [hcentre]
              exact hstraight _ _
          | some centre =>
              rw [hb, Option.isSome_some, Option.isSome_iff_exists] at hcentre
              obtain ⟨centre', hb'⟩ := hcentre
              rw [hb']
              simp only [arcWith, hchord, Bool.false_eq_true, if_false, h.feed?]
              exact h.single c motion targets s.feed? _ _ _ _

/-- A return to a reference position. -/
theorem goHome (h : SameLengths axes s s') (c : Config ℝ) (motion : Motion)
    (targets : List (Option ℝ)) (reference : List ℝ) :
    Performs axes (s.goHome c motion targets reference)
      (s'.goHome c motion (scale? mmPerInch targets) (scale mmPerInch reference)) := by
  have hreference {s s' : State ℝ} (h : SameLengths axes s s') :
      SameLengths axes (s.goToReference c motion reference).1
          (s'.goToReference c motion (scale mmPerInch reference)).1 ∧
        (s'.goToReference c motion (scale mmPerInch reference)).2.time =
          (s.goToReference c motion reference).2.time := by
    have htargets : (s'.frame.toWork (scale mmPerInch reference)).map some =
        scale? mmPerInch ((s.frame.toWork reference).map some) := by
      obtain ⟨-, -, -, catalogue, rfl⟩ := h
      change ((s.frame.scale mmPerInch).toWork (scale mmPerInch reference)).map some = _
      rw [Frame.toWork_scale, scale, scale?, List.map_map, List.map_map]
      rfl
    rw [goToReference, goToReference, htargets]
    exact h.perform c motion _ none .line .line
  rw [State.goHome, State.goHome, anyNamed_scale?]
  cases anyNamed targets with
  | false =>
      obtain ⟨hlast, htime⟩ := hreference h
      exact ⟨hlast, congrArg (· :: []) htime⟩
  | true =>
      obtain ⟨hvia, htime⟩ := h.perform c motion targets none .line .line
      obtain ⟨hlast, htime'⟩ := hreference hvia
      exact ⟨hlast, congrArg₂ (fun a b => [a, b]) htime htime'⟩

/-- Any motion; one that is not supported is skipped in both programs. -/
theorem runMotion? (h : SameLengths axes s s') {c : Config ℝ} (hchord : c.arcLengthTravel = false)
    (hhas : ∀ letter, b'.has letter = b.has letter) (motion : Motion)
    (targets : List (Option ℝ)) :
    Option.Rel (Performs axes) (s.runMotion? c b motion targets)
      (s'.runMotion? c b' motion (scale? mmPerInch targets)) := by
  have hhome : s'.home = scale mmPerInch s.home ∧
      s'.secondaryHome = scale mmPerInch s.secondaryHome := by
    obtain ⟨-, -, -, catalogue, rfl⟩ := h
    exact ⟨rfl, rfl⟩
  cases motion with
  | rapid => exact .some (h.single c .rapid targets none .line .line _ _)
  | linear =>
      rw [State.runMotion?, State.runMotion?, h.feed?]
      exact .some (h.single c .linear targets s.feed? .line .line _ _)
  | arcClockwise => exact .some (h.arc hchord hhas .arcClockwise targets)
  | arcCounterclockwise => exact .some (h.arc hchord hhas .arcCounterclockwise targets)
  | home =>
      rw [State.runMotion?, State.runMotion?, hhome.1]
      exact .some (h.goHome c .home targets s.home)
  | secondaryHome =>
      rw [State.runMotion?, State.runMotion?, hhome.2]
      exact .some (h.goHome c .secondaryHome targets s.secondaryHome)
  | unsupported code => exact .none

include hlabels hwords

/-- **What a prepared line does.** -/
theorem step (h : SameLengths axes s s') {c : Config ℝ} (hchord : c.arcLengthTravel = false) :
    SameLengths axes (s.step c b).state (s'.step c b').state ∧
      (s'.step c b').events.map Event.time = (s.step c b).events.map Event.time := by
  have hcodes : b'.codes 'G' = b.codes 'G' :=
    Block.codes_metric hwords hlabels (by decide) (by decide)
  rw [State.step, State.step, hcodes]
  cases ha : Action.ofCodes? (b.codes 'G') with
  | some action => exact ⟨h.act hlabels hwords action, rfl⟩
  | none =>
      have hhas := Block.has_metric hwords
      have hselect : SameLengths axes (s.selectMotion (b.codes 'G'))
          (s'.selectMotion (b.codes 'G')) := by
        obtain ⟨haxes, hunits, hinverse, catalogue, rfl⟩ := h
        exact ⟨haxes, hunits, hinverse, catalogue, rfl⟩
      generalize s.selectMotion (b.codes 'G') = t at hselect ⊢
      generalize s'.selectMotion (b.codes 'G') = t' at hselect ⊢
      obtain ⟨rfl, hunits, hinverse, catalogue, rfl⟩ := id hselect
      have hwords' : axisWords (t.metric catalogue).axes b' =
          scale? mmPerInch (axisWords t.axes b) := axisWords_metric hwords hlabels
      have hmotion : lineMotion? (t.metric catalogue).motion (b.codes 'G') b'
            (scale? mmPerInch (axisWords t.axes b)) =
          lineMotion? t.motion (b.codes 'G') b (axisWords t.axes b) := by
        simp only [lineMotion?, anyNamed_scale?, hasCentre, hhas]
        rfl
      simp only [hwords', hmotion, targets_metric]
      cases lineMotion? t.motion (b.codes 'G') b (axisWords t.axes b) with
      | none => exact ⟨hselect, rfl⟩
      | some motion =>
          have hrun := hselect.runMotion? hchord hhas motion
            (t.targets ((b.codes 'G').contains 530) (axisWords t.axes b))
          simp only [moveLine]
          generalize t.runMotion? c b motion _ = p at hrun ⊢
          generalize (t.metric catalogue).runMotion? c b' motion _ = p' at hrun ⊢
          cases hrun with
          | none => exact ⟨hselect, rfl⟩
          | some hp => exact hp

/-- **A line and the restated line** lead to such states in the same time, and each of their
moves takes the same time. -/
theorem evaluate (h : SameLengths axes s s') {c : Config ℝ} (hchord : c.arcLengthTravel = false)
    (hmeasure : b.lacks 'G' measureCodes = true) (hend : b.lacks 'M' endCodes = true) :
    SameLengths axes (DryRun.evaluate c s b).state (DryRun.evaluate c s' b').state ∧
      (DryRun.evaluate c s' b').result.times = (DryRun.evaluate c s b).result.times := by
  obtain ⟨hstep, hevents⟩ := (h.prepare hlabels hwords hmeasure).step hlabels hwords hchord
  have hgoesOn : endsProgram (b.codes 'M') = false := Block.endsProgram_of_lacks hend
  have hgoesOn' : endsProgram (b'.codes 'M') = false := by
    rwa [Block.codes_metric hwords hlabels (by decide) (by decide)]
  have hstate : SameLengths axes (DryRun.evaluate c s b).state
      (DryRun.evaluate c s' b').state := by
    change SameLengths axes (((s.prepare b).step c b).state.finish b)
      (((s'.prepare b').step c b').state.finish b')
    rw [finish, finish, hgoesOn, hgoesOn']
    exact hstep
  have htime : (DryRun.evaluate c s' b').result.time = (DryRun.evaluate c s b).result.time :=
    evaluate_time_eq h.totalTime hstate.totalTime
  exact ⟨hstate, Prod.ext htime hevents⟩

end Restated

end SameLengths

/-! ### Programs -/

/-- A line that only selects units changes nothing else, apart from the catalogue. -/
theorem evaluate_gNumber (c : Config ℝ) {s : State ℝ} {b : Block ℝ}
    (hlabels : Config.labelFault? [] s.axes = none) {u : Units}
    (hwords : b.words = [⟨'G', Scalar.ofNat u.gNumber⟩]) :
    (∃ catalogue, (evaluate c s b).state =
        { s with settings := { s.settings with units := u }, catalogue }) ∧
      (evaluate c s b).result.events = [] := by
  have hcodes : b.codes 'G' = [10 * (u.gNumber : Int)] := by
    have hcode : toCode (Scalar.ofNat u.gNumber : ℝ) = 10 * u.gNumber :=
      Exact.toCode_ofNat (by cases u <;> decide)
    rw [Block.codes, Block.values, hwords, ← hcode]
    rfl
  have hnone (letter : Char) (hletter : letter.toUpper ≠ 'G') :
      b.get? letter = none ∧ b.values letter = [] ∧ b.has letter = false := by
    simp [Block.get?, Block.values, Block.has, hwords, hletter.symm]
  have hM : b.codes 'M' = [] := by rw [Block.codes, (hnone 'M' (by decide)).2.1, List.map_nil]
  obtain ⟨catalogue, hprepare⟩ : ∃ catalogue, s.prepare b =
      { s with settings := { s.settings with units := u }, catalogue } := by
    have hcommand : ModalCommand.ofCode? (10 * (u.gNumber : Int)) = some (.units u) := by
      cases u <;> rfl
    refine ⟨(s.count b).catalogue, ?_⟩
    rw [prepare, applyModalWords, hcodes, hM, applyTools, (hnone 'T' (by decide)).2.1, applySpeed,
      (hnone 'S' (by decide)).1, applyFeed, (hnone 'F' (by decide)).1, List.foldl_cons, applyG,
      hcommand]
    rfl
  have hstep : ((s.prepare b).step c b).state = s.prepare b ∧
      ((s.prepare b).step c b).events = [] := by
    have haction : Action.ofCodes? (b.codes 'G') = none := by
      rw [hcodes]
      cases u <;> rfl
    have hmotion : ((s.prepare b).selectMotion (b.codes 'G')) = s.prepare b := by
      rw [hcodes]
      cases u <;> rfl
    have hnamed : anyNamed (axisWords (s.prepare b).axes b) = false := by
      rw [hprepare, anyNamed, axisWords, List.any_map, List.any_eq_false]
      intro axis haxis hsome
      have hne : axis.toUpper ≠ 'G' := by
        intro hG
        exact ((Config.labelFault?_eq_none.1 hlabels).1 axis haxis).2 (hG ▸ by decide)
      rw [Function.comp_apply, (hnone axis hne).1] at hsome
      cases hsome
    have hidle : lineMotion? (s.prepare b).motion (b.codes 'G') b
        (axisWords (s.prepare b).axes b) = none := by
      have hcentre : hasCentre b = false := by
        rw [hasCentre, (hnone 'I' (by decide)).2.2, (hnone 'J' (by decide)).2.2,
          (hnone 'K' (by decide)).2.2]
        rfl
      have hreturn : returnMotion? (b.codes 'G') = none := by
        rw [hcodes]
        cases u <;> rfl
      rw [lineMotion?, hreturn, hnamed, hcentre]
      simp
    rw [step, haction, hmotion]
    simp only [hidle]
    exact ⟨rfl, rfl⟩
  have hend : endsProgram (b.codes 'M') = false := by rw [hM]; rfl
  refine ⟨⟨catalogue, ?_⟩, hstep.2⟩
  change ((s.prepare b).step c b).state.finish b = _
  rw [finish, hend, hstep.1, hprepare]
  rfl

/-- At power-on all offsets are zero, in all units. -/
theorem scale_startFrame (n : Nat) :
    (startFrame n (StartState.empty : StartState ℝ)).scale mmPerInch = startFrame n .empty := by
  have hsystems : ((List.range systemCount).map fun _ => List.replicate n (0 : ℝ)).map
      (scale mmPerInch) = (List.range systemCount).map fun _ => List.replicate n 0 := by
    rw [List.map_map]
    exact List.map_congr_left fun _ _ => scale_replicate_zero n
  exact congrArg₂ (fun systems offset => Frame.mk 0 systems offset false) hsystems
    (scale_replicate_zero n)

/-- At power-on all lengths are zero, in all units. -/
theorem metric_start {c : Config ℝ} (hstart : c.start = none)
    (catalogue catalogue' : Catalogue ℝ) :
    metric { start c with
        settings := { (start c).settings with units := .inch }, catalogue } catalogue' =
      { start c with
        settings := { (start c).settings with units := .mm }, catalogue := catalogue' } := by
  have hzeros : scale mmPerInch (List.replicate c.axisCount 0) = List.replicate c.axisCount 0 :=
    scale_replicate_zero _
  have hframe := scale_startFrame c.axisCount
  have hwork : scale mmPerInch ((startFrame c.axisCount StartState.empty).toWork
      (List.replicate c.axisCount 0)) =
        (startFrame c.axisCount StartState.empty).toWork (List.replicate c.axisCount 0) := by
    rw [← Frame.toWork_scale, hframe, hzeros]
  simp only [start, hstart, Option.getD_none, deriveWork, metric, StartState.empty,
    Option.map_none, startSettings, Envelope.scale_empty, mul_zero]
  rw [← StartState.empty, hframe, hzeros, hwork]

/-- The first lines of a program in inches and of the same program in millimetres. -/
theorem sameLengths_start {c : Config ℝ} (hc : c.validate = .ok ()) (hstart : c.start = none)
    {inches metric : Block ℝ} (hinches : inches.words = [⟨'G', Scalar.ofNat 20⟩])
    (hmetric : metric.words = [⟨'G', Scalar.ofNat 21⟩]) :
    SameLengths (start c).axes (evaluate c (start c) inches).state
        (evaluate c (start c) metric).state ∧
      (evaluate c (start c) inches).result.events = [] ∧
      (evaluate c (start c) metric).result.events = [] := by
  have hlabels : Config.labelFault? [] (start c).axes = none :=
    (Pose.shaped_start hc).labelFault?_axes hc
  obtain ⟨⟨catalogue, hstate⟩, hevents⟩ := evaluate_gNumber c hlabels (u := .inch) hinches
  obtain ⟨⟨catalogue', hstate'⟩, hevents'⟩ := evaluate_gNumber c hlabels (u := .mm) hmetric
  have hinverse : (start c).settings.inverseFeed = false := by
    simp [start, deriveWork, startSettings, hstart, StartState.empty]
  refine ⟨?_, hevents, hevents'⟩
  rw [hstate, hstate']
  exact ⟨rfl, rfl, hinverse, catalogue', (metric_start hstart catalogue catalogue').symm⟩

/-- What two states have in common if the second is the first with lengths in millimetres. -/
structure AgreesInMetric (s s' : State ℝ) : Prop where
  totalTime : s'.totalTime = s.totalTime
  work : s'.work = scale mmPerInch s.work
  machine : s'.machine = scale mmPerInch s.machine
  bounds : s'.envelope.work = s.envelope.work.scale mmPerInch
  machineBounds : s'.envelope.machine = s.envelope.machine.scale mmPerInch
  systems : s'.frame.systems = s.frame.systems.map (scale mmPerInch)
  offset : s'.frame.offset = scale mmPerInch s.frame.offset
  home : s'.home = scale mmPerInch s.home
  secondaryHome : s'.secondaryHome = scale mmPerInch s.secondaryHome

/-- States of the same lengths agree in millimetres. -/
theorem SameLengths.agreesInMetric {axes : List Char} {s s' : State ℝ}
    (h : SameLengths axes s s') : s.AgreesInMetric s' := by
  obtain ⟨-, -, -, catalogue, rfl⟩ := h
  exact ⟨rfl, rfl, rfl, rfl, rfl, rfl, rfl, rfl, rfl⟩

/-- A line, and the same line with its lengths and feeds in millimetres. The line selects no
units, no inverse-time mode and does not end the program. -/
structure RestatesInMetric (axes : List Char) (b b' : Block ℝ) : Prop where
  words : b'.words = b.words.map (Word.metric axes)
  measure : b.lacks 'G' measureCodes = true
  goesOn : b.lacks 'M' endCodes = true

/-- **Units do not change time.** A program that selects inches and the same program in
millimetres, run from power-on on an accepted configuration that times arcs over their chord:
each line takes the same time in both runs, and so does each of its moves; and after every line
the runs have taken the same time, and the positions, bounds, offsets and reference positions
of the second are those of the first in millimetres. -/
theorem units_invisible {c : Config ℝ} (hc : c.validate = .ok ()) (hstart : c.start = none)
    (hchord : c.arcLengthTravel = false) {inches metric : Block ℝ}
    (hinches : inches.words = [⟨'G', Scalar.ofNat 20⟩])
    (hmetric : metric.words = [⟨'G', Scalar.ofNat 21⟩]) {bs bs' : List (Block ℝ)}
    (hbs : List.Forall₂ (RestatesInMetric c.axes) bs bs') :
    ∃ s₀, start? c = .ok s₀ ∧
      (s₀.record c (metric :: bs')).map (fun line => line.2.times) =
        (s₀.record c (inches :: bs)).map (fun line => line.2.times) ∧
      ∀ n, (s₀.run c (inches :: bs.take n)).AgreesInMetric (s₀.run c (metric :: bs'.take n)) := by
  have hlabels : Config.labelFault? [] (start c).axes = none :=
    (Pose.shaped_start hc).labelFault?_axes hc
  have haxes (w : Word ℝ) : w.metric (start c).axes = w.metric c.axes := by
    simp only [Word.metric]
    rw [show (start c).axes = c.axes.map Char.toLower from rfl, isLength_map_toLower]
  obtain ⟨hfirst, hevents, hevents'⟩ := sameLengths_start hc hstart hinches hmetric
  have hline {s s' : State ℝ} {b b' : Block ℝ} (hs : SameLengths (start c).axes s s')
      (hb : RestatesInMetric c.axes b b') :=
    hs.evaluate hlabels (hb.words.trans (List.map_congr_left fun w _ => (haxes w).symm)) hchord
      hb.measure hb.goesOn
  have hrun {bs bs' : List (Block ℝ)} (hbs : List.Forall₂ (RestatesInMetric c.axes) bs bs') :
      SameLengths (start c).axes ((start c).run c (inches :: bs))
          ((start c).run c (metric :: bs')) ∧
        ((evaluate c (start c) metric).state.record c bs').map (fun line => line.2.times) =
          ((evaluate c (start c) inches).state.record c bs).map fun line => line.2.times :=
    (paired_of_forall₂ c hbs _).run hline hfirst
  have htimes : (evaluate c (start c) metric).result.times =
      (evaluate c (start c) inches).result.times := by
    rw [LineResult.times, LineResult.times, hevents, hevents',
      evaluate_time_eq rfl hfirst.totalTime]
  refine ⟨start c, start?_of_validate hc, ?_, fun n => ?_⟩
  · rw [record_cons, record_cons, List.map_cons, List.map_cons, htimes, (hrun hbs).2]
  · exact (hrun (List.forall₂_take n hbs)).1.agreesInMetric

/-- A feed move, an origin that is set there, a half circle and a return through a point. -/
noncomputable def inchProgram : List (Block ℝ) :=
  [.ofWords [⟨'G', Scalar.ofNat 1⟩, ⟨'X', Scalar.ofNat 3⟩, ⟨'F', Scalar.ofNat 10⟩],
    .ofWords [⟨'G', Scalar.ofNat 92⟩, ⟨'X', Scalar.ofNat 5⟩],
    .ofWords [⟨'G', Scalar.ofNat 2⟩, ⟨'X', Scalar.ofNat 7⟩, ⟨'I', Scalar.ofNat 1⟩],
    .ofWords [⟨'G', Scalar.ofNat 28⟩, ⟨'Y', Scalar.ofNat 4⟩]]

/-- The program and its restatement take the same time on the standard machine. -/
theorem units_invisible_inchProgram :
    ∃ s₀ : State ℝ, start? .standard = .ok s₀ ∧ ∃ bs' : List (Block ℝ),
      (bs'.map Block.words)[2]? =
        some [⟨'G', Scalar.ofNat 2⟩, ⟨'X', mmPerInch * Scalar.ofNat 7⟩,
          ⟨'I', mmPerInch * Scalar.ofNat 1⟩] ∧
      (s₀.record .standard (.ofWords [⟨'G', Scalar.ofNat 21⟩] :: bs')).map
          (fun line => line.2.times) =
        (s₀.record .standard (.ofWords [⟨'G', Scalar.ofNat 20⟩] :: inchProgram)).map
          (fun line => line.2.times) ∧
      ∀ n, AgreesInMetric
        (s₀.run .standard (.ofWords [⟨'G', Scalar.ofNat 20⟩] :: inchProgram.take n))
        (s₀.run .standard (.ofWords [⟨'G', Scalar.ofNat 21⟩] :: bs'.take n)) := by
  have h1 : toCode (Scalar.ofNat 1 : ℝ) = 10 := Exact.toCode_ofNat (by decide)
  have h92 : toCode (Scalar.ofNat 92 : ℝ) = 920 := Exact.toCode_ofNat (by decide)
  have h2 : toCode (Scalar.ofNat 2 : ℝ) = 20 := Exact.toCode_ofNat (by decide)
  have h28 : toCode (Scalar.ofNat 28 : ℝ) = 280 := Exact.toCode_ofNat (by decide)
  have hbs : List.Forall₂ (RestatesInMetric (Config.standard : Config ℝ).axes) inchProgram
      (inchProgram.map fun b => .ofWords (b.words.map (Word.metric ['x', 'y', 'z']))) := by
    rw [List.forall₂_map_right_iff, List.forall₂_same]
    intro b hb
    refine ⟨rfl, ?_, ?_⟩
    · fin_cases hb <;> simp [Block.lacks, Block.codes, Block.values, Block.ofWords, measureCodes,
        h1, h92, h2, h28, -Exact.ofNat_eq]
    · fin_cases hb <;> simp [Block.lacks, Block.codes, Block.values, Block.ofWords,
        -Exact.ofNat_eq]
  have hfirst (n : Nat) : (Block.ofWords [⟨'G', Scalar.ofNat n⟩] : Block ℝ).words =
      [⟨'G', Scalar.ofNat n⟩] := rfl
  obtain ⟨s₀, hstart, htimes, hlengths⟩ :=
    units_invisible Exact.standard_validate rfl rfl (hfirst 20) (hfirst 21) hbs
  exact ⟨s₀, hstart, _, rfl, htimes, hlengths⟩

end State

end DryRun
