import DryRun.Proofs.FrameIndependence
import DryRun.Proofs.Labels
import DryRun.Proofs.Number.Real

/-!
# Absolute and incremental lines

In absolute mode the word of an axis says where the axis goes, and in incremental mode it says
how far. So a program can be restated for the other mode if every axis word is replaced by its
distance from the work position before its line (`Word.relativeTo`). Sums have to be exact for
that (`Scalar.ExactSums`): the restated line adds the distance to the position again.

No other word depends on the mode. The offsets of an arc's centre count from the start of the
arc in both modes, and a return to a reference position passes through the point that its line
names, which is restated like any other. The commands that use axis words for something other
than motion read them alike in both modes, and so do lines with targets in machine coordinates;
they are left out, as are the commands that change the mode or the frame.

## Main results

* `Block.targets_relativeTo`: a restated line has the targets of the line.
* `State.otherMode_lockstep`: two machines in different modes stay in lockstep on lines that
  differ in the values of axis words only.
* `State.distanceMode_invisible`: the runs of a program and of the restated one agree after
  every line in everything but the mode and the texts of flagged lines.
-/

namespace DryRun

variable {α : Type}

/-! ### What is left without the mode -/

/-- A state without its distance mode and the texts of flagged lines. -/
def State.modeless (s : State α) : State α :=
  { s with
    settings := { s.settings with incremental := false }
    catalogue := { s.catalogue with flagged := .empty } }

/-- An event without the distance mode. -/
def Event.modeless (e : Event α) : Event α :=
  { e with modal := { e.modal with
      settings := { e.modal.settings with incremental := false } } }

/-- The result of a line without the distance mode of its events. -/
def LineResult.modeless (r : LineResult α) : LineResult α :=
  { r with events := r.events.map Event.modeless }

/-- Two states that are the same but for the texts of flagged lines, the first of them in
absolute and the second in incremental mode, with labels that a configuration can have. -/
structure State.OtherMode (s s' : State α) : Prop where
  absolute : s.settings.incremental = false
  labels : Config.labelFault? [] s.axes = none
  same : ∃ flagged, s' = { s with
    settings := { s.settings with incremental := true }
    catalogue := { s.catalogue with flagged } }

/-- Two states are in different modes if they are the same without it. -/
theorem State.otherMode_iff {s s' : State α} :
    s.OtherMode s' ↔ s.settings.incremental = false ∧ s'.settings.incremental = true ∧
      Config.labelFault? [] s.axes = none ∧ s'.modeless = s.modeless := by
  constructor
  · rintro ⟨habsolute, hlabels, flagged, rfl⟩
    exact ⟨habsolute, rfl, hlabels, rfl⟩
  · rintro ⟨habsolute, hincremental, hlabels, hsame⟩
    obtain ⟨axes, work, machine, frame, home, secondaryHome,
      ⟨units, incremental, plane, inverseFeed, feed, spindle, rotation, speed, coolant, tool⟩,
      motion, totalTime, axisFeeds, envelope,
      ⟨lines, lineNumber, letters, feedRates, spindleSpeeds, tools, flagged, toolSelects,
        toolChanges⟩⟩ := s'
    obtain rfl : incremental = true := hincremental
    simp only [modeless, State.mk.injEq, Settings.mk.injEq, Catalogue.mk.injEq, true_and] at hsame
    obtain ⟨rfl, rfl, rfl, rfl, rfl, rfl, ⟨rfl, rfl, rfl, rfl, rfl, rfl, rfl, rfl, rfl⟩, rfl, rfl,
      rfl, rfl, rfl, rfl, rfl, rfl, rfl, rfl, rfl, rfl⟩ := hsame
    exact ⟨habsolute, hlabels, flagged, rfl⟩

/-! ### Restated lines -/

variable [Scalar α]

/-- A word with its value counted from a position, if its letter names an axis. -/
def Word.relativeTo (axes : List Char) (position : List α) (w : Word α) : Word α :=
  match axisIndex? axes w.letter with
  | some axis => { w with value := w.value - State.coordinate position axis }
  | none => w

/-- A word keeps its letter. -/
theorem Word.letter_relativeTo (axes : List Char) (position : List α) (w : Word α) :
    (w.relativeTo axes position).letter = w.letter := by
  rw [relativeTo]
  split <;> rfl

section Restated

variable {axes : List Char} (haxes : Config.labelFault? [] axes = none) {position : List α}
  {b b' : Block α} (hwords : b'.words = b.words.map (Word.relativeTo axes position))

include hwords

/-- The first word of a letter in a restated line is the restated first word. -/
theorem Block.find?_relativeTo (letter : Char) :
    b'.words.find? (·.letter = letter.toUpper) =
      (b.words.find? (·.letter = letter.toUpper)).map (Word.relativeTo axes position) := by
  rw [hwords, List.find?_map]
  simp only [Function.comp_def, Word.letter_relativeTo]

include haxes

/-- Restating a line changes the values of axis words only. -/
theorem Block.parallel_relativeTo : b.Parallel b' where
  letters := by
    simp only [letters, hwords, List.map_map, Function.comp_def, Word.letter_relativeTo]
  values := by
    intro letter hl
    simp only [values, hwords, List.filter_map, List.map_map, Function.comp_def,
      Word.letter_relativeTo, toUpper_of_reserved hl]
    refine List.map_congr_left fun w hw => ?_
    have hletter : w.letter = letter := by simpa using (List.mem_filter.1 hw).2
    rw [Word.relativeTo, hletter, axisIndex?_of_reserved haxes hl]

/-- A restated line gives for an axis the distance from the position. -/
theorem Block.get?_relativeTo {index : Nat} {axis : Char} (hi : axes[index]? = some axis) :
    b'.get? axis = (b.get? axis).map (· - State.coordinate position index) := by
  rw [get?, get?, find?_relativeTo hwords]
  cases hfind : b.words.find? (·.letter = axis.toUpper) with
  | none => rfl
  | some w =>
      have hletter : w.letter = axis.toUpper := by simpa using List.find?_some hfind
      simp only [Option.map_some, Word.relativeTo, hletter, axisIndex?_toUpper haxes hi]

/-- **The targets of a restated line**, read as distances from the position, are those of the
line. -/
theorem Block.targets_relativeTo [Scalar.ExactSums α] :
    (axisWords axes b').zipWith (fun word here => word.map fun v => here + v) position =
      (axisWords axes b).zipWith (fun word _ => word) position := by
  refine List.ext_getElem? fun index => ?_
  simp only [List.getElem?_zipWith, axisWords, List.getElem?_map]
  cases haxis : axes[index]? with
  | none => rfl
  | some axis =>
      cases hhere : position[index]? with
      | none => rfl
      | some here =>
          have hcoordinate : State.coordinate position index = here := by
            rw [State.coordinate, hhere, Option.getD_some]
          have hadd (v : α) : here + (v - here) = v := by
            rw [Scalar.ExactSums.add_comm, Scalar.ExactSums.sub_add_cancel]
          simp only [Option.map_some, get?_relativeTo haxes hwords haxis, hcoordinate,
            Option.map_map, Function.comp_def, hadd, Option.map_id']

end Restated

/-- The `G` codes that select a distance mode. -/
def distanceCodes : List Int := [900, 910]

/-- Whether a modal command changes what an axis word means: its frame or its mode. -/
def ModalCommand.changesReading : ModalCommand → Bool
  | .system _ | .distanceMode _ => true
  | _ => false

/-- A line for absolute mode and the line that restates it from the work position of a state.
It keeps the frame and the mode and does not end the program; the texts of the two are not
compared. -/
structure State.Restates (s : State α) (b b' : Block α) : Prop where
  codes : b.lacks 'G' (frameCodes ++ distanceCodes) = true
  goesOn : b.lacks 'M' endCodes = true
  words : b'.words = b.words.map (Word.relativeTo s.axes s.work)

namespace State

/-! ### Lockstep -/

/-- A modal command that keeps the frame and the mode does not read the mode. -/
theorem OtherMode.applyModal {s s' : State α} (h : s.OtherMode s') (b : Block α)
    {command : ModalCommand} (hcommand : command.changesReading = false) :
    (s.applyModal b command).OtherMode (s'.applyModal b command) := by
  obtain ⟨habsolute, hlabels, flagged, rfl⟩ := h
  cases command with
  | system _ | distanceMode _ => cases hcommand
  | dwell =>
      simp only [State.applyModal, dwell]
      split <;> exact ⟨habsolute, hlabels, _, rfl⟩
  | feedMode _ | plane _ | units _ | cancelMotion => exact ⟨habsolute, hlabels, _, rfl⟩

/-- **Only axis words depend on the mode**: two machines in different modes stay in lockstep on
lines that differ in the values of axis words only. -/
theorem otherMode_lockstep (c : Config α) {b b' : Block α} (hparallel : b.Parallel b')
    (hcodes : b.lacks 'G' (frameCodes ++ distanceCodes) = true)
    (hgoesOn : b.lacks 'M' endCodes = true) :
    Lockstep c c OtherMode Event.modeless id b b' where
  parallel := hparallel
  sight := by
    rintro s s' ⟨-, -, flagged, rfl⟩
    exact ⟨rfl, rfl, rfl, rfl, rfl, rfl⟩
  count := by
    -- the texts of the lines differ, so one of them may be flagged and the other not
    rintro s s' ⟨habsolute, hlabels, flagged, rfl⟩
    refine ⟨habsolute, hlabels,
      if b'.isFlagged then flagged.insert b'.source else flagged, ?_⟩
    have hnumber : lineNumber? b' = lineNumber? b := by
      rw [lineNumber?, lineNumber?, hparallel.get? (by decide)]
    simp only [count, hparallel.letters, hnumber]
  modal hcode hc hs := hs.applyModal b (Block.command_of_lacks (by decide) hcodes hcode hc)
  feed := by
    rintro s s' ⟨habsolute, hlabels, flagged, rfl⟩
    simp only [applyFeed]
    split <;> exact ⟨habsolute, hlabels, _, rfl⟩
  speed := by
    rintro s s' ⟨habsolute, hlabels, flagged, rfl⟩
    simp only [applySpeed]
    split <;> exact ⟨habsolute, hlabels, _, rfl⟩
  tool := by
    rintro s s' tool ⟨habsolute, hlabels, flagged, rfl⟩
    exact ⟨habsolute, hlabels, _, rfl⟩
  switch := by
    rintro s s' command ⟨habsolute, hlabels, flagged, rfl⟩
    cases command <;> exact ⟨habsolute, hlabels, _, rfl⟩
  select := by
    rintro s s' ⟨habsolute, hlabels, flagged, rfl⟩
    exact ⟨habsolute, hlabels, _, rfl⟩
  act := by
    intro s s' a ha
    rw [Block.ofCodes?_eq_none_of_lacks (Block.lacks_append.1 hcodes).1] at ha
    cases ha
  centre := by
    rintro s s' ⟨-, -, flagged, rfl⟩ position clockwise plane
    rfl
  perform := by
    rintro s s' motion targets feed travel travel' g g' ⟨habsolute, hlabels, flagged, rfl⟩
      htravel hg
    obtain rfl := htravel rfl
    obtain rfl : g' = g := hg
    exact ⟨⟨habsolute, hlabels, _, rfl⟩, rfl⟩
  returns := by
    rintro s s' m ⟨-, -, flagged, rfl⟩ -
    rfl
  finish hs := by
    simp only [finish, hparallel.codes (show 'M' ∈ reservedLetters by decide),
      Block.endsProgram_of_lacks hgoesOn]
    exact hs

/-! ### Runs -/

/-- **A line and the restated one do the same in their modes.** The modal words leave the work
position as it was, so that the distances are added to the position that they were counted
from. -/
theorem OtherMode.evaluate [Scalar.ExactSums α] {s s' : State α} (h : s.OtherMode s')
    (c : Config α) {b b' : Block α} (hb : s.Restates b b') :
    (evaluate c s b).state.OtherMode (evaluate c s' b').state ∧
      (evaluate c s' b').result.modeless = (evaluate c s b).result.modeless := by
  have hframe := (Block.lacks_append.1 hb.codes).1
  have hparallel := Block.parallel_relativeTo h.labels hb.words
  have hlock := otherMode_lockstep c hparallel hb.codes hb.goesOn
  have htargets : (s'.prepare b').blockTargets b' = (s.prepare b).blockTargets b := by
    have hpose := pose_prepare_of_not_changesFrame (Block.modalChangesFrame_of_lacks hframe) s
    have haxes : (s.prepare b).axes = s.axes := congrArg Pose.axes hpose
    have hwork : (s.prepare b).work = s.work := congrArg Pose.work hpose
    obtain ⟨habsolute, -, flagged, hprep⟩ := hlock.prepare h
    simp only [blockTargets, targets, hparallel.codes (show 'G' ∈ reservedLetters by decide),
      Block.contains_machineFrame_of_lacks hframe, hprep, habsolute, haxes, hwork]
    simpa using Block.targets_relativeTo h.labels hb.words
  obtain ⟨hstate, hresult⟩ := hlock.evaluate h htargets
  have htime {s s' : State α} (h : s.OtherMode s') : s'.totalTime = s.totalTime := by
    obtain ⟨-, -, flagged, rfl⟩ := h
    rfl
  exact ⟨hstate, hresult.map_events (evaluate_time_eq (htime h) (htime hstate))⟩

/-- **Absolute and incremental programs are equivalent.** Let two states, with labels that a
configuration can have, agree in everything but the texts of flagged lines and the mode, the
first of them in absolute and the second in incremental mode. If the first runs a program, and
the second the program in which every axis word is replaced by its distance from the work
position before its line, then they agree after every line in everything but the mode and the
texts of flagged lines, and the results of all lines agree in everything but the mode of their
events. -/
theorem distanceMode_invisible [Scalar.ExactSums α] (c : Config α) {s s' : State α}
    (hlabels : Config.labelFault? [] s.axes = none) (habsolute : s.settings.incremental = false)
    (hincremental : s'.settings.incremental = true) (hsame : s'.modeless = s.modeless)
    {bs bs' : List (Block α)} (h : s.Paired c Restates bs bs') (k : Nat) :
    (s'.run c (bs'.take k)).modeless = (s.run c (bs.take k)).modeless ∧
      (s'.record c bs').map (fun line => line.2.modeless) =
        (s.record c bs).map fun line => line.2.modeless := by
  have hs : s.OtherMode s' := otherMode_iff.2 ⟨habsolute, hincremental, hlabels, hsame⟩
  have hrun {bs bs' : List (Block α)} (h : s.Paired c Restates bs bs') :=
    h.run (fun hs hb => hs.evaluate c hb) hs
  obtain ⟨-, -, -, hstate⟩ := otherMode_iff.1 (hrun (h.take k)).1
  exact ⟨hstate, (hrun h).2⟩

/-- The program that restates a program for incremental mode. -/
def restated (c : Config α) : State α → List (Block α) → List (Block α)
  | _, [] => []
  | s, b :: bs =>
    .ofWords (b.words.map (Word.relativeTo s.axes s.work)) :: (evaluate c s b).state.restated c bs

/-- Every program without commands that change the frame or the mode can be restated. -/
theorem paired_restated (c : Config α) {bs : List (Block α)}
    (h : ∀ b ∈ bs, b.lacks 'G' (frameCodes ++ distanceCodes) = true ∧ b.lacks 'M' endCodes = true)
    (s : State α) : s.Paired c Restates bs (s.restated c bs) := by
  induction bs generalizing s with
  | nil => exact .nil s
  | cons b bs ih =>
      obtain ⟨⟨hcodes, hgoesOn⟩, hbs⟩ := List.forall_mem_cons.1 h
      exact .cons ⟨hcodes, hgoesOn, rfl⟩ (ih hbs _)

/-- A feed move, another one without a command, a half circle and a return to the reference
position through a point. -/
noncomputable def absoluteProgram : List (Block ℝ) :=
  [.ofWords [⟨'G', Scalar.ofNat 1⟩, ⟨'X', Scalar.ofNat 3⟩, ⟨'F', Scalar.ofNat 100⟩],
    .ofWords [⟨'Z', Scalar.ofNat 4⟩],
    .ofWords [⟨'G', Scalar.ofNat 2⟩, ⟨'X', Scalar.ofNat 5⟩, ⟨'I', Scalar.ofNat 1⟩],
    .ofWords [⟨'G', Scalar.ofNat 28⟩, ⟨'X', Scalar.ofNat 7⟩]]

/-- The standard machine at power-on, but in incremental mode. -/
noncomputable def incrementalStart : State ℝ :=
  { start .standard with
    settings := { (start .standard : State ℝ).settings with incremental := true } }

/-- A program with four kinds of motion, and what restates it run in incremental mode. -/
theorem distanceMode_invisible_absoluteProgram :
    (start .standard).Paired .standard Restates absoluteProgram
        ((start .standard).restated .standard absoluteProgram) ∧
      (incrementalStart.run .standard
          (((start .standard).restated .standard absoluteProgram).take 4)).modeless =
        ((start .standard).run .standard (absoluteProgram.take 4)).modeless ∧
      (incrementalStart.record .standard
          ((start .standard).restated .standard absoluteProgram)).map
            (fun line => line.2.modeless) =
        ((start .standard).record .standard absoluteProgram).map fun line => line.2.modeless := by
  have hcodes : ∀ b ∈ absoluteProgram,
      b.lacks 'G' (frameCodes ++ distanceCodes) = true ∧ b.lacks 'M' endCodes = true := by
    have h1 : toCode (Scalar.ofNat 1 : ℝ) = 10 := Exact.toCode_ofNat (by decide)
    have h2 : toCode (Scalar.ofNat 2 : ℝ) = 20 := Exact.toCode_ofNat (by decide)
    have h28 : toCode (Scalar.ofNat 28 : ℝ) = 280 := Exact.toCode_ofNat (by decide)
    simp [absoluteProgram, Block.lacks, Block.codes, Block.values, Block.ofWords, h1, h2, h28,
      frameCodes, distanceCodes, -Exact.ofNat_eq]
  have hpaired := paired_restated .standard hcodes (start .standard)
  have hc := Exact.standard_validate
  have hlabels := (Pose.shaped_start hc).labelFault?_axes hc
  have hincremental : incrementalStart.settings.incremental = true := rfl
  have hsame : incrementalStart.modeless = (start .standard).modeless := rfl
  exact ⟨hpaired, distanceMode_invisible .standard hlabels rfl hincremental hsame hpaired 4⟩

end State

end DryRun
