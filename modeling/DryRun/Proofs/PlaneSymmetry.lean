import DryRun.Proofs.FrameIndependence
import DryRun.Proofs.Orders
import DryRun.Proofs.RenamedMachine

/-!
# The three planes are alike

A plane orders its two axes, names the letters of a centre and has a normal, all of it by tables.
That the tables fit together is seen by renaming: a line whose axis words, centre words and plane
codes are renamed in a circle (`Word.cycle`) does to the renamed machine what the line does to the
machine, under other names. Its moves take the same time and turn the same way, and centres,
positions and bounds are permuted.

The text of a line is not renamed. It stands in some of the notes, and it decides whether the line
is flagged; both may be different for the renamed line. The end of a program is left out, because
it selects a plane by itself.

## Main results

* `Block.codes_cycle`, `axisWords_cycle`, `centre?_cycle`: how a renamed line is read.
* `State.prepare_cycle`, `State.act_cycle`, `State.runMotion?_cycle`: the parts of a line.
* `State.planes_alike`: whole lines.
-/

namespace DryRun

open Coordinates

variable {α : Type}

/-! ### Codes -/

/-- The plane that a `G` code selects. -/
def planeOfCode? (code : Int) : Option Plane :=
  match ModalCommand.ofCode? code with
  | some (.plane p) => some p
  | _ => none

/-- The code that a `G` code becomes: the code of a plane becomes that of the renamed plane. -/
def cycleCode (code : Int) : Int := (planeOfCode? code).elim code fun p => 10 * p.cycle.gNumber

/-- A modal command with the plane renamed. -/
def ModalCommand.cycle : ModalCommand → ModalCommand
  | .plane p => .plane p.cycle
  | command => command

/-- The renamed code is that of the renamed command. -/
theorem ModalCommand.ofCode?_cycleCode (code : Int) :
    ofCode? (cycleCode code) = (ofCode? code).map cycle := by
  cases hc : ofCode? code with
  | none => simp only [cycleCode, planeOfCode?, hc, Option.elim_none, Option.map_none]
  | some command =>
      cases command with
      | plane p =>
          simp only [cycleCode, planeOfCode?, hc, Option.elim_some, Option.map_some]
          cases p <;> rfl
      | feedMode _ | units _ | system _ | cancelMotion | distanceMode _ | dwell =>
          simp only [cycleCode, planeOfCode?, hc, Option.elim_none, Option.map_some, cycle]

/-- Each plane has one code. -/
theorem eq_of_planeOfCode?_eq_some {code : Int} {p : Plane} (h : planeOfCode? code = some p) :
    code = 10 * p.gNumber := by
  rw [planeOfCode?] at h
  split at h
  · next q hq =>
      obtain rfl := Option.some.inj h
      cases q <;> exact (lookup_eq_some_iff_eq (by decide) rfl).1 hq
  · cases h

/-- What does not tell the planes apart reads the same of a code and of the renamed code. -/
theorem apply_cycleCode {β : Type} {f : Int → β} {y : β}
    (h : ∀ p : Plane, f (10 * p.gNumber) = y) (code : Int) : f (cycleCode code) = f code := by
  cases hp : planeOfCode? code with
  | none => rw [cycleCode, hp, Option.elim_none]
  | some p => rw [cycleCode, hp, Option.elim_some, h, eq_of_planeOfCode?_eq_some hp, h]

section Codes

variable (codes : List Int)

/-- Codes that select no plane are found where they were. -/
theorem contains_cycleCode {code : Int} (h : planeOfCode? code = none) :
    (codes.map cycleCode).contains code = codes.contains code := by
  have hplane (p : Plane) : (code == 10 * p.gNumber) = false := by
    rw [beq_eq_false_iff_ne]
    rintro rfl
    cases p <;> cases h
  rw [List.contains_eq_any_beq, List.contains_eq_any_beq, List.any_map]
  exact congrArg codes.any (funext (apply_cycleCode hplane))

/-- Whatever treats the codes of the planes alike finds the same in the renamed codes. -/
theorem findSome?_cycleCode {β : Type} {f : Int → Option β} {y : Option β}
    (h : ∀ p : Plane, f (10 * p.gNumber) = y) :
    (codes.map cycleCode).findSome? f = codes.findSome? f := by
  rw [List.findSome?_map]
  exact congrArg codes.findSome? (funext (apply_cycleCode h))

/-- No action is asked for by the code of a plane. -/
theorem Action.ofCodes?_cycleCode : ofCodes? (codes.map cycleCode) = ofCodes? codes := by
  have horigin : (codes.map cycleCode).findSome? OriginCommand.ofCode? =
      codes.findSome? OriginCommand.ofCode? :=
    findSome?_cycleCode codes (y := none) fun p => by cases p <;> rfl
  rw [ofCodes?, contains_cycleCode codes rfl, contains_cycleCode codes rfl,
    contains_cycleCode codes rfl, contains_cycleCode codes rfl, contains_cycleCode codes rfl,
    horigin, ofCodes?]

/-- No return is asked for by the code of a plane. -/
theorem returnMotion?_cycleCode : returnMotion? (codes.map cycleCode) = returnMotion? codes := by
  rw [returnMotion?, contains_cycleCode codes rfl, contains_cycleCode codes rfl, returnMotion?]

/-- No motion is selected by the code of a plane. -/
theorem selectedMotion?_cycleCode :
    selectedMotion? (codes.map cycleCode) = selectedMotion? codes :=
  findSome?_cycleCode codes (y := none) fun p => by cases p <;> rfl

/-- The renamed codes leave the same motion in force. -/
theorem motionInForce_cycleCode (current : Option Motion) :
    motionInForce current (codes.map cycleCode) = motionInForce current codes := by
  rw [motionInForce, returnMotion?_cycleCode, selectedMotion?_cycleCode, motionInForce]

/-- No frame is selected by the code of a plane. -/
theorem codesChangeFrame_cycleCode :
    codesChangeFrame (codes.map cycleCode) = codesChangeFrame codes := by
  have hcode (code : Int) :
      (ModalCommand.ofCode? (cycleCode code)).any ModalCommand.changesFrame =
        (ModalCommand.ofCode? code).any ModalCommand.changesFrame := by
    rw [ModalCommand.ofCode?_cycleCode]
    cases ModalCommand.ofCode? code with
    | none => rfl
    | some command => cases command <;> rfl
  rw [codesChangeFrame, List.any_map, codesChangeFrame]
  exact congrArg codes.any (funext hcode)

end Codes

/-! ### Lines -/

/-- A word with its axis, its centre or its plane renamed. -/
noncomputable def Word.cycle (w : Word ℝ) : Word ℝ where
  letter := cycleLetter w.letter
  value :=
    if w.letter = 'G' then
      (planeOfCode? w.code).elim w.value fun p => Scalar.ofNat p.cycle.gNumber
    else w.value

section Renamed

variable {b b' : Block ℝ} (hwords : b'.words = b.words.map Word.cycle)

include hwords

/-- The words of a renamed letter. -/
theorem Block.filter_words_cycle {letter letter' : Char}
    (hletter : letter'.toUpper = cycleLetter letter.toUpper) :
    b'.words.filter (·.letter = letter'.toUpper) =
      (b.words.filter (·.letter = letter.toUpper)).map Word.cycle := by
  have hiff (w : Word ℝ) : w.cycle.letter = letter'.toUpper ↔ w.letter = letter.toUpper := by
    rw [hletter]
    exact cycleLetter.injective.eq_iff
  rw [hwords, List.filter_map]
  simp only [Function.comp_def, hiff]

/-- The values of a letter stand at the renamed letter. -/
theorem Block.values_cycle {letter letter' : Char}
    (hletter : letter'.toUpper = cycleLetter letter.toUpper) (hg : letter.toUpper ≠ 'G') :
    b'.values letter' = b.values letter := by
  rw [values, filter_words_cycle hwords hletter, List.map_map, values]
  refine List.map_congr_left fun w hw => ?_
  have hw : w.letter = letter.toUpper := of_decide_eq_true (List.mem_filter.1 hw).2
  exact if_neg (hw ▸ hg)

/-- The letters whose words a renamed line has as they were, as far as they are read. -/
def unrenamedLetters : List Char := ['N', 'F', 'S', 'T', 'M', 'P', 'L', 'R']

/-- A letter that names neither an axis nor an offset of a centre keeps its values. -/
theorem Block.values_of_unrenamed {letter : Char} (h : letter ∈ unrenamedLetters) :
    b'.values letter = b.values letter := by
  simp only [unrenamedLetters, List.mem_cons, List.not_mem_nil, or_false] at h
  rcases h with rfl | rfl | rfl | rfl | rfl | rfl | rfl | rfl <;>
    exact values_cycle hwords (by decide) (by decide)

/-- **The `G` codes of a renamed line.** -/
theorem Block.codes_cycle : b'.codes 'G' = (b.codes 'G').map cycleCode := by
  have hcode (p : Plane) : toCode (Scalar.ofNat p.gNumber : ℝ) = 10 * p.gNumber :=
    Exact.toCode_ofNat (by cases p <;> decide)
  have hfilter : b'.words.filter (·.letter = Char.toUpper 'G') =
      (b.words.filter (·.letter = Char.toUpper 'G')).map Word.cycle :=
    filter_words_cycle hwords (by decide)
  rw [codes, values, hfilter, codes, values, List.map_map, List.map_map, List.map_map,
    List.map_map]
  refine List.map_congr_left fun w hw => ?_
  have hw : w.letter = 'G' := of_decide_eq_true (List.mem_filter.1 hw).2
  change toCode (if w.letter = 'G' then _ else _) = cycleCode w.code
  rw [if_pos hw, cycleCode]
  cases planeOfCode? w.code with
  | none => rfl
  | some p => exact hcode p.cycle

/-- **The axis words of a renamed line.** -/
theorem axisWords_cycle :
    axisWords cartesianLabels b' = cycle (axisWords cartesianLabels b) := by
  have hx : b'.get? 'x' = b.get? 'z' :=
    Block.get?_of_values (Block.values_cycle hwords (by decide) (by decide))
  have hy : b'.get? 'y' = b.get? 'x' :=
    Block.get?_of_values (Block.values_cycle hwords (by decide) (by decide))
  have hz : b'.get? 'z' = b.get? 'y' :=
    Block.get?_of_values (Block.values_cycle hwords (by decide) (by decide))
  change [b'.get? 'x', b'.get? 'y', b'.get? 'z'] = [b.get? 'z', b.get? 'x', b.get? 'y']
  rw [hx, hy, hz]

/-- The renamed line gives an offset of a centre if the line does. -/
theorem hasCentre_cycle : hasCentre b' = hasCentre b := by
  have hi : b'.has 'I' = b.has 'K' :=
    Block.has_of_values (Block.values_cycle hwords (by decide) (by decide))
  have hj : b'.has 'J' = b.has 'I' :=
    Block.has_of_values (Block.values_cycle hwords (by decide) (by decide))
  have hk : b'.has 'K' = b.has 'J' :=
    Block.has_of_values (Block.values_cycle hwords (by decide) (by decide))
  rw [hasCentre, hasCentre, hi, hj, hk, Bool.or_assoc, Bool.or_comm]

/-- **The centre that a renamed line gives in the renamed plane.** -/
theorem centre?_cycle (p : Plane) : State.centre? p.cycle b' = State.centre? p b := by
  have hfirst := Block.values_cycle hwords p.offsets_cycle.1 (by cases p <;> decide)
  have hsecond := Block.values_cycle hwords p.offsets_cycle.2 (by cases p <;> decide)
  have hradius : b'.values 'R' = b.values 'R' := Block.values_of_unrenamed hwords (by decide)
  simp only [State.centre?, Block.getD, Block.has_of_values hfirst, Block.has_of_values hsecond,
    Block.get?_of_values hfirst, Block.get?_of_values hsecond, Block.get?_of_values hradius]

end Renamed

/-! ### Motions -/

/-- What was performed, with the axes renamed. -/
def Performed.cycle (p : Performed α) (letters : OrderedSet Char) (flagged : OrderedSet String)
    (source : String) : Performed α :=
  ⟨p.state.cycle letters flagged, p.events.map Event.cycle, p.notes.map (Note.cycle source)⟩

/-- The notes about an arc name no axis and no text. -/
theorem PlaneArc.map_cycle_resolve [Scalar α] (start finish : Point α) (centre : Centre α)
    (clockwise : Bool) (line : Nat) (source : String) :
    (resolve start finish centre clockwise line).2.map (Note.cycle source) =
      (resolve start finish centre clockwise line).2 := by
  cases centre with
  | offsets i j => rfl
  | radius r =>
      simp only [resolve, radiusCentre]
      split
      · rfl
      · dsimp only
        split <;> rfl

namespace State

section Arcs

variable {s : State ℝ} (letters : OrderedSet Char) (flagged : OrderedSet String)
  (source : String)

/-- Notes on the feed do not mention an axis. -/
theorem map_cycle_feedNotes : s.feedNotes.map (Note.cycle source) = s.feedNotes := by
  rw [feedNotes]
  split <;> rfl

/-- The coordinate on the next axis is what was the coordinate on the axis. -/
theorem coordinate_cycle {position : List ℝ} (h : position.length = 3) {axis : Nat}
    (haxis : axis < 3) :
    coordinate (Coordinates.cycle position) (nextAxis axis) = coordinate position axis := by
  rw [coordinate, getElem?_cycle h haxis, coordinate]

variable (hs : s.Cartesian)

include hs

/-- The indices of the axes of a plane. -/
theorem axisIndex?_cycle {label : Char} (h : label ∈ cartesianLabels) :
    ∃ axis < 3, s.axisIndex? label = some axis ∧
      (s.cycle letters flagged).axisIndex? (cycleLetter label) = some (nextAxis axis) := by
  change ∃ axis < 3, DryRun.axisIndex? s.axes label = some axis ∧
    DryRun.axisIndex? s.axes (cycleLetter label) = some (nextAxis axis)
  rw [hs.axes]
  exact axisIndex?_cycleLetter h

/-- The distance that an arc travels along the normal of its plane. -/
theorem helicalTravel_cycle {finish : List ℝ} (hfinish : finish.length = 3) :
    (s.cycle letters flagged).helicalTravel
        ((s.cycle letters flagged).axisIndex? s.settings.plane.cycle.normal)
        (Coordinates.cycle finish) =
      s.helicalTravel (s.axisIndex? s.settings.plane.normal) finish := by
  obtain ⟨normal, hnormal, hindex, hindex'⟩ :=
    axisIndex?_cycle letters flagged hs s.settings.plane.axes_mem.2.2
  rw [s.settings.plane.axes_cycle.2.2, hindex', hindex]
  change coordinate _ _ - coordinate (Coordinates.cycle s.work) _ = _
  rw [coordinate_cycle hfinish hnormal, coordinate_cycle hs.work hnormal, helicalTravel]

section InPlane

variable {first second : Nat} (hfirst : first < 3) (hsecond : second < 3)

include hfirst hsecond

/-- **The arc that a line describes is the same in the renamed plane.** -/
theorem planeArc_cycle {finish : List ℝ} (hfinish : finish.length = 3) (centre : Centre ℝ)
    (clockwise : Bool) :
    (s.cycle letters flagged).planeArc (nextAxis first) (nextAxis second)
        (Coordinates.cycle finish) centre clockwise =
      s.planeArc first second finish centre clockwise := by
  change PlaneArc.resolve ⟨coordinate (Coordinates.cycle s.work) _,
    coordinate (Coordinates.cycle s.work) _⟩ _ _ _ _ = _
  rw [coordinate_cycle hs.work hfirst, coordinate_cycle hs.work hsecond,
    coordinate_cycle hfinish hfirst, coordinate_cycle hfinish hsecond]
  rfl

/-- The centre of an arc as a position, in both frames. -/
theorem centrePosition_cycle (centre : Point ℝ) :
    (s.cycle letters flagged).centrePosition (nextAxis first) (nextAxis second) centre =
        Coordinates.cycle (s.centrePosition first second centre) ∧
      s.frame.cycle.toMachine (Coordinates.cycle (s.centrePosition first second centre)) =
        Coordinates.cycle (s.frame.toMachine (s.centrePosition first second centre)) := by
  have hlength : (s.work.set first centre.x).length = 3 := (List.length_set ..).trans hs.work
  constructor
  · change ((Coordinates.cycle s.work).set _ _).set _ _ = _
    rw [set_cycle hs.work hfirst, set_cycle hlength hsecond, centrePosition]
  · exact Frame.toMachine_cycle hs.frame ((List.length_set ..).trans hlength)

end InPlane

variable {c : Config ℝ} (hc : c.LimitsAlike) {targets : List (Option ℝ)}
  (ht : targets.length = 3)

include hc ht

/-- **A straight move.** -/
theorem straight_cycle (motion : Motion) (feed : Option ℝ) {notes : List (Note ℝ)}
    (hnotes : notes.map (Note.cycle source) = notes) :
    (s.cycle letters flagged).straight c motion (Coordinates.cycle targets) feed notes =
      (s.straight c motion targets feed notes).cycle letters flagged source := by
  have hperform := perform_cycle hs letters flagged ht hc feed none motion .line
  rw [Geometry.cycle] at hperform
  simp only [straight, hperform, Performed.cycle, hnotes, List.map_cons, List.map_nil]

/-- **An arc whose plane and centre are known.** -/
theorem arcWith_cycle (motion : Motion) {first second : Nat} (hfirst : first < 3)
    (hsecond : second < 3) (centre : Centre ℝ) :
    (s.cycle letters flagged).arcWith c motion (Coordinates.cycle targets) (nextAxis first)
        (nextAxis second) centre =
      (s.arcWith c motion targets first second centre).cycle letters flagged source := by
  have hfinish := hs.length_destination ht
  have hcentre (centre : Point ℝ) :=
    centrePosition_cycle letters flagged hs hfirst hsecond centre
  have hperform (travel : Option ℝ) (centre machineCentre : List ℝ) (clockwise : Bool) :=
    perform_cycle hs letters flagged ht hc s.feed? travel motion
      (.arc centre machineCentre clockwise s.settings.plane)
  have hnotes : (s.feedNotes ++ (s.planeArc first second (s.destination targets) centre
        (motion = .arcClockwise)).2).map (Note.cycle source) = _ :=
    (List.map_append ..).trans (congrArg₂ _ (map_cycle_feedNotes source)
      (PlaneArc.map_cycle_resolve _ _ _ _ _ source))
  have hplane : (s.cycle letters flagged).settings.plane = s.settings.plane.cycle := rfl
  have hframe : (s.cycle letters flagged).frame = s.frame.cycle := rfl
  have hfeed : (s.cycle letters flagged).feed? = s.feed? := rfl
  simp only [Geometry.cycle] at hperform
  simp only [arcWith, destination_cycle hs letters flagged ht,
    planeArc_cycle letters flagged hs hfirst hsecond hfinish, hplane,
    helicalTravel_cycle letters flagged hs hfinish, hframe, hfeed, fun p => (hcentre p).1,
    fun p => (hcentre p).2, hperform, Performed.cycle, hnotes]
  rfl

/-- **An arc.** All axes are there, so that it is a straight move only if it has no centre. -/
theorem arc_cycle {b b' : Block ℝ} (hwords : b'.words = b.words.map Word.cycle)
    (motion : Motion) :
    (s.cycle letters flagged).arc c b' motion (Coordinates.cycle targets) =
      (s.arc c b motion targets).cycle letters flagged source := by
  obtain ⟨first, hfirst, hindex, hindex'⟩ :=
    axisIndex?_cycle letters flagged hs s.settings.plane.axes_mem.1
  obtain ⟨second, hsecond, hindex₂, hindex₂'⟩ :=
    axisIndex?_cycle letters flagged hs s.settings.plane.axes_mem.2.1
  rw [← s.settings.plane.axes_cycle.1] at hindex'
  rw [← s.settings.plane.axes_cycle.2.1] at hindex₂'
  have hplane : (s.cycle letters flagged).settings.plane = s.settings.plane.cycle := rfl
  simp only [arc, hplane, hindex, hindex', hindex₂, hindex₂', centre?_cycle hwords]
  cases centre? s.settings.plane b with
  | some centre => exact arcWith_cycle letters flagged source hs hc ht motion hfirst hsecond centre
  | none =>
      have hnotes : (s.feedNotes ++ [s.noCentre motion]).map (Note.cycle source) =
          s.feedNotes ++ [s.noCentre motion] :=
        (List.map_append ..).trans (congrArg (· ++ _) (map_cycle_feedNotes source))
      exact straight_cycle letters flagged source hs hc ht motion s.feed? hnotes

end Arcs

section Lines

variable {c : Config ℝ} (hc : c.AxesAlike) {s : State ℝ} (letters : OrderedSet Char)
  (flagged : OrderedSet String)

/-- The last move of a return to a reference position. -/
theorem goToReference_cycle (hc : c.LimitsAlike) (hs : s.Cartesian) (motion : Motion)
    {reference : List ℝ} (hreference : reference.length = 3) :
    (s.cycle letters flagged).goToReference c motion (Coordinates.cycle reference) =
      ((s.goToReference c motion reference).1.cycle letters flagged,
        (s.goToReference c motion reference).2.cycle) := by
  have htargets : (s.frame.cycle.toWork (Coordinates.cycle reference)).map some =
      Coordinates.cycle ((s.frame.toWork reference).map some) := by
    rw [Frame.toWork_cycle hs.frame hreference, map_cycle]
  have hlength : ((s.frame.toWork reference).map some).length = 3 := by
    rw [List.length_map, Frame.length_toWork, hreference]
  change (s.cycle letters flagged).perform c motion
    ((s.frame.cycle.toWork (Coordinates.cycle reference)).map some) none none .line = _
  rw [htargets]
  exact perform_cycle hs letters flagged hlength hc none none motion .line

include hc in
/-- **A return to a reference position.** -/
theorem goHome_cycle (hs : s.pose.Shaped c) (source : String) {targets : List (Option ℝ)}
    (ht : targets.length = 3) (motion : Motion) {reference : List ℝ}
    (hreference : reference.length = 3) :
    (s.cycle letters flagged).goHome c motion (Coordinates.cycle targets)
        (Coordinates.cycle reference) =
      (s.goHome c motion targets reference).cycle letters flagged source := by
  have hlimits := hc.toLimitsAlike
  have hcartesian := hs.cartesian hc
  have hnamed : anyNamed (Coordinates.cycle targets) = anyNamed targets :=
    (perm_cycle targets).any_eq
  have hvia := perform_cycle hcartesian letters flagged ht hlimits none none motion .line
  -- The second move starts where the first one ends, in a state that has to be shaped as well.
  have hcartesian' : (s.perform c motion targets none none .line).1.Cartesian :=
    (hs.move (ht.trans hc.axisCount.symm) none none).cartesian hc
  rw [Geometry.cycle] at hvia
  rw [goHome, goHome, hnamed]
  split
  · simp only [hvia, goToReference_cycle letters flagged hlimits hcartesian' motion hreference]
    rfl
  · simp only [goToReference_cycle letters flagged hlimits hcartesian motion hreference]
    rfl

variable {b b' : Block ℝ} (hwords : b'.words = b.words.map Word.cycle)

include hc hwords in
/-- **Any motion of a line.** -/
theorem runMotion?_cycle (hs : s.pose.Shaped c) (source : String) {targets : List (Option ℝ)}
    (ht : targets.length = 3) (motion : Motion) :
    (s.cycle letters flagged).runMotion? c b' motion (Coordinates.cycle targets) =
      (s.runMotion? c b motion targets).map (·.cycle letters flagged source) := by
  have hlimits := hc.toLimitsAlike
  have hcartesian := hs.cartesian hc
  cases motion with
  | rapid =>
      exact congrArg some (straight_cycle letters flagged source hcartesian hlimits ht _ none rfl)
  | linear =>
      exact congrArg some (straight_cycle letters flagged source hcartesian hlimits ht _ s.feed?
        (map_cycle_feedNotes source))
  | arcClockwise | arcCounterclockwise =>
      exact congrArg some (arc_cycle letters flagged source hcartesian hlimits ht hwords _)
  | home =>
      exact congrArg some (goHome_cycle hc letters flagged hs source ht _ hcartesian.home)
  | secondaryHome =>
      exact congrArg some (goHome_cycle hc letters flagged hs source ht _ hcartesian.secondaryHome)
  | unsupported _ => rfl

/-! ### Modal words -/

/-- A modal command of the renamed machine. -/
theorem applyModal_cycle (hs : s.Cartesian) (hp : b'.get? 'P' = b.get? 'P')
    (command : ModalCommand) :
    (s.cycle letters flagged).applyModal b' command.cycle =
      (s.applyModal b command).cycle letters flagged := by
  cases command with
  | system index => exact selectSystem_cycle hs letters flagged index
  | dwell =>
      have hdwell : dwellTime? b' = dwellTime? b := by rw [dwellTime?, hp, dwellTime?]
      change (s.cycle letters flagged).dwell b' = (s.dwell b).cycle letters flagged
      rw [dwell, hdwell, dwell]
      cases dwellTime? b <;> rfl
  | feedMode _ | plane _ | units _ | cancelMotion | distanceMode _ => rfl

include hc in
/-- The `G` codes of a renamed line, as far as they are modal. -/
theorem foldl_applyG_cycle (hp : b'.get? 'P' = b.get? 'P') (codes : List Int)
    (hs : s.pose.Shaped c) :
    (codes.map cycleCode).foldl (applyG b') (s.cycle letters flagged) =
      (codes.foldl (applyG b) s).cycle letters flagged := by
  induction codes generalizing s with
  | nil => rfl
  | cons code codes ih =>
      have hcode : (s.cycle letters flagged).applyG b' (cycleCode code) =
          (s.applyG b code).cycle letters flagged := by
        rw [applyG, ModalCommand.ofCode?_cycleCode, applyG]
        cases ModalCommand.ofCode? code with
        | none => rfl
        | some command => exact applyModal_cycle letters flagged (hs.cartesian hc) hp command
      -- The shape carries the induction: a code may select a work coordinate system.
      have hshaped : (s.applyG b code).pose.Shaped c :=
        foldl_applyG_induction (fun _ index hs => hs.selectSystem index) b [code] hs
      rw [List.map_cons, List.foldl_cons, List.foldl_cons, hcode]
      exact ih hshaped

/-- The switches of the renamed machine. -/
theorem foldl_applyM_cycle (codes : List Int) :
    codes.foldl applyM (s.cycle letters flagged) =
      (codes.foldl applyM s).cycle letters flagged := by
  refine List.foldl_hom (cycle · letters flagged) fun s code => ?_
  rw [applyM, applyM]
  split
  · next command _ => cases command <;> rfl
  · rfl

section Words

include hwords

/-- Counting a renamed line. -/
theorem count_cycle :
    (s.cycle letters flagged).count b' = (s.count b).cycle (letters.insertAll b'.letters)
      (if b'.isFlagged then flagged.insert b'.source else flagged) := by
  have hn : b'.get? 'N' = b.get? 'N' :=
    Block.get?_of_values (Block.values_of_unrenamed hwords (by decide))
  rw [count, lineNumber?, hn]
  rfl

/-- The feed of the renamed machine. -/
theorem applyFeed_cycle :
    (s.cycle letters flagged).applyFeed b' = (s.applyFeed b).cycle letters flagged := by
  have hf : b'.get? 'F' = b.get? 'F' :=
    Block.get?_of_values (Block.values_of_unrenamed hwords (by decide))
  rw [applyFeed, hf, applyFeed]
  split <;> rfl

/-- The spindle speed of the renamed machine. -/
theorem applySpeed_cycle :
    (s.cycle letters flagged).applySpeed b' = (s.applySpeed b).cycle letters flagged := by
  have hspeed : b'.get? 'S' = b.get? 'S' :=
    Block.get?_of_values (Block.values_of_unrenamed hwords (by decide))
  rw [applySpeed, hspeed, applySpeed]
  split <;> rfl

/-- The tools of the renamed machine. -/
theorem applyTools_cycle :
    (s.cycle letters flagged).applyTools b' = (s.applyTools b).cycle letters flagged := by
  rw [applyTools, Block.values_of_unrenamed hwords (by decide)]
  exact List.foldl_hom (cycle · letters flagged) fun _ _ => rfl

include hc in
/-- **The modal words of a line.** -/
theorem prepare_cycle (hs : s.pose.Shaped c) :
    (s.cycle letters flagged).prepare b' = (s.prepare b).cycle (letters.insertAll b'.letters)
      (if b'.isFlagged then flagged.insert b'.source else flagged) := by
  have hp : b'.get? 'P' = b.get? 'P' :=
    Block.get?_of_values (Block.values_of_unrenamed hwords (by decide))
  have hm : b'.codes 'M' = b.codes 'M' :=
    Block.codes_of_values (Block.values_of_unrenamed hwords (by decide))
  have hcount : (s.count b).pose.Shaped c := hs
  rw [prepare, count_cycle letters flagged hwords, applyModalWords, Block.codes_cycle hwords, hm,
    foldl_applyG_cycle hc _ _ hp _ hcount, applyFeed_cycle _ _ hwords, applySpeed_cycle _ _ hwords,
    applyTools_cycle _ _ hwords, foldl_applyM_cycle, prepare, applyModalWords]

/-! ### Actions -/

/-- A renamed line sets offsets if the line does. -/
theorem offsets_cycle : givesOffsets b' = givesOffsets b ∧ takesOffsets b' = takesOffsets b := by
  have hl : b'.codes 'L' = b.codes 'L' :=
    Block.codes_of_values (Block.values_of_unrenamed hwords (by decide))
  rw [givesOffsets, takesOffsets, Block.hasCode, Block.hasCode, hl]
  exact ⟨rfl, rfl⟩

/-- The notes on an action of the renamed machine. -/
theorem actionNotes_cycle (source : String) (line : Nat) (a : Action) :
    actionNotes line (s.cycle letters flagged) b' a =
      (actionNotes line s b a).map (Note.cycle source) := by
  have hp : b'.get? 'P' = b.get? 'P' :=
    Block.get?_of_values (Block.values_of_unrenamed hwords (by decide))
  obtain ⟨hgives, htakes⟩ := offsets_cycle hwords
  cases a with
  | setSystem =>
      have hnotes : actionNotes line (s.cycle letters flagged) b' .setSystem =
          actionNotes line s b .setSystem := by
        rw [actionNotes, hgives, htakes, hp]
        rfl
      rw [hnotes, actionNotes]
      split
      · cases b.get? 'P' with
        | none => rfl
        | some p =>
            dsimp only
            split <;> rfl
      · rfl
  | storeHome | storeSecondaryHome | homeAxes | origin _ => rfl

variable (hs : s.Cartesian)

include hs

/-- The axis words that a renamed machine reads in a renamed line. -/
theorem axisWords_axes_cycle :
    axisWords (s.cycle letters flagged).axes b' = Coordinates.cycle (axisWords s.axes b) ∧
      (axisWords s.axes b).length = 3 := by
  constructor
  · change axisWords s.axes b' = _
    rw [hs.axes, axisWords_cycle hwords]
  · rw [length_axisWords, hs.axes]
    rfl

/-- **The action of a line.** -/
theorem act_cycle (a : Action) :
    (s.cycle letters flagged).act b' a = (s.act b a).cycle letters flagged := by
  obtain ⟨haxisWords, hlength⟩ := axisWords_axes_cycle letters flagged hwords hs
  cases a with
  | setSystem =>
      have hp : b'.get? 'P' = b.get? 'P' :=
        Block.get?_of_values (Block.values_of_unrenamed hwords (by decide))
      obtain ⟨hgives, htakes⟩ := offsets_cycle hwords
      have hsystem : (s.cycle letters flagged).offsetSystem? b' = s.offsetSystem? b := by
        rw [offsetSystem?, hgives, htakes, hp]
        rfl
      simp only [act, setSystem, hsystem, htakes, haxisWords]
      cases s.offsetSystem? b with
      | none => rfl
      | some index => exact setOffsets_cycle hs letters flagged _ index hlength
  | storeHome | storeSecondaryHome => rfl
  | homeAxes =>
      rw [act, haxisWords]
      exact homeAxes_cycle hs letters flagged hlength
  | origin command =>
      rw [act, haxisWords]
      exact applyOrigin_cycle hs letters flagged hlength command

end Words

/-! ### Prepared lines -/

/-- What a prepared line does, with the axes renamed. -/
def Outcome.cycle (o : Outcome α) (letters : OrderedSet Char) (flagged : OrderedSet String)
    (source : String) : Outcome α :=
  { o with
    state := o.state.cycle letters flagged
    events := o.events.map Event.cycle
    notes := o.notes.map (Note.cycle source) }

include hwords

/-- The motion that a renamed line performs. -/
theorem lineMotion?_cycle (inForce : Option Motion) (codes : List Int)
    (words : List (Option ℝ)) :
    lineMotion? inForce (codes.map cycleCode) b' (Coordinates.cycle words) =
      lineMotion? inForce codes b words := by
  have hnamed : anyNamed (Coordinates.cycle words) = anyNamed words := (perm_cycle words).any_eq
  rw [lineMotion?, returnMotion?_cycleCode, hnamed, hasCentre_cycle hwords, lineMotion?]

/-- The notes on a line of the renamed machine that performs no motion. -/
theorem idleNotes_cycle (source : String) (line : Nat) (inForce : Option Motion)
    (codes : List Int) :
    idleNotes line inForce (codes.map cycleCode) b' =
      (idleNotes line inForce codes b).map (Note.cycle source) := by
  have hr : b'.has 'R' = b.has 'R' :=
    Block.has_of_values (Block.values_of_unrenamed hwords (by decide))
  rw [idleNotes, selectedMotion?_cycleCode, hr, idleNotes]
  split <;> rfl

include hc

/-- A motion is carried out or skipped. -/
theorem moveLine_cycle (hs : s.pose.Shaped c) {targets : List (Option ℝ)}
    (ht : targets.length = 3) (motion : Motion) :
    (s.cycle letters flagged).moveLine c b' motion (Coordinates.cycle targets) =
      (s.moveLine c b motion targets).cycle letters flagged b'.source := by
  rw [moveLine, runMotion?_cycle hc letters flagged hwords hs b'.source ht, moveLine]
  cases s.runMotion? c b motion targets <;> rfl

/-- **What a prepared line does.** -/
theorem step_cycle (hs : s.pose.Shaped c) :
    (s.cycle letters flagged).step c b' = (s.step c b).cycle letters flagged b'.source := by
  have hcodes := Block.codes_cycle hwords
  have hcartesian := hs.cartesian hc
  have haction : Action.ofCodes? (b'.codes 'G') = Action.ofCodes? (b.codes 'G') := by
    rw [hcodes, Action.ofCodes?_cycleCode]
  cases ha : Action.ofCodes? (b.codes 'G') with
  | some a =>
      simp only [step, haction, ha, act_cycle letters flagged hwords hcartesian,
        actionNotes_cycle letters flagged hwords b'.source]
      rfl
  | none =>
      obtain ⟨haxisWords, hlength⟩ := axisWords_axes_cycle letters flagged hwords hcartesian
      have hselect : (s.cycle letters flagged).selectMotion (b'.codes 'G') =
          (s.selectMotion (b.codes 'G')).cycle letters flagged := by
        rw [hcodes, selectMotion, motionInForce_cycleCode]
        rfl
      have hmotion : (s.cycle letters flagged).blockMotion? b' = s.blockMotion? b := by
        rw [blockMotion?, hselect, haxisWords, hcodes, lineMotion?_cycle hwords]
        rfl
      have htargets : (s.cycle letters flagged).blockTargets b' =
          Coordinates.cycle (s.blockTargets b) := by
        rw [blockTargets, haxisWords, hcodes, contains_cycleCode _ rfl,
          targets_cycle hcartesian letters flagged _ hlength, blockTargets]
      rw [step_of_no_action c _ (haction.trans ha), step_of_no_action c s ha, hmotion, hselect,
        htargets]
      cases s.blockMotion? b with
      | some motion =>
          have hshaped : (s.selectMotion (b.codes 'G')).pose.Shaped c := hs
          exact moveLine_cycle hc letters flagged hwords hshaped
            (hcartesian.length_targets _ hlength) motion
      | none =>
          have hnotes := idleNotes_cycle hwords b'.source s.catalogue.lines
            (s.selectMotion (b.codes 'G')).motion (b.codes 'G')
          rw [← hcodes] at hnotes
          exact congrArg (idle _ false) hnotes

end Lines

/-! ### Whole lines -/

/-- A state, and the same state with its axes renamed. What the two have kept of the text of their
lines may be different. -/
def CycledTo (s s' : State α) : Prop := ∃ letters flagged, s' = s.cycle letters flagged

end State

/-- Whether a note says that a line is flagged. -/
def Note.isFlag : Note α → Bool
  | .flaggedLine _ _ => true
  | _ => false

/-- The notes of a line other than that it is flagged. -/
def Evaluation.otherNotes (e : Evaluation α) : List (Note α) := e.notes.filter (!·.isFlag)

/-- Renamed notes are about flagged lines if the notes are. -/
theorem Note.filter_map_cycle (source : String) (notes : List (Note α)) :
    (notes.map (cycle source)).filter (!·.isFlag) =
      (notes.filter (!·.isFlag)).map (cycle source) := by
  have hflag (note : Note α) : (note.cycle source).isFlag = note.isFlag := by
    cases note with
    -- `rfl` would try to make a letter and the renamed letter equal first.
    | degraded fault | skipped fault => cases fault <;> simp only [cycle, isFlag]
    | flaggedLine _ _ | notSimulated _ _ | offsetsNotSimulated _ | radiusIgnored _
    | missingFeed _ | reading _ | notOpened _ _ => rfl
  rw [List.filter_map]
  simp only [Function.comp_def, hflag]

section Notes

variable {b b' : Block ℝ} (hwords : b'.words = b.words.map Word.cycle)

include hwords

/-- What is noted about the codes of a line names no axis. -/
theorem codeNotes_cycle (source : String) (line : Nat) (code : Int) :
    codeNotes line b' (cycleCode code) = (codeNotes line b code).map (Note.cycle source) := by
  have hp : b'.has 'P' = b.has 'P' :=
    Block.has_of_values (Block.values_of_unrenamed hwords (by decide))
  cases hcode : ModalCommand.ofCode? code with
  | none =>
      have hsame : cycleCode code = code := by
        simp only [cycleCode, planeOfCode?, hcode, Option.elim_none]
      rw [hsame]
      simp only [codeNotes, hcode]
      split <;> rfl
  | some command =>
      simp only [codeNotes, ModalCommand.ofCode?_cycleCode, hcode, Option.map_some]
      cases command with
      | dwell =>
          simp only [ModalCommand.cycle, hp]
          split <;> rfl
      | feedMode _ | plane _ | units _ | system _ | cancelMotion | distanceMode _ => rfl

/-- What is noted about a line before it acts, other than that it is flagged. -/
theorem filter_modalNotes_cycle (source : String) (line : Nat) :
    (modalNotes line b').filter (!·.isFlag) =
      ((modalNotes line b).filter (!·.isFlag)).map (Note.cycle source) := by
  have hflagged (b : Block ℝ) : (modalNotes line b).filter (!·.isFlag) =
      ((b.codes 'G').flatMap (codeNotes line b)).filter (!·.isFlag) := by
    rw [modalNotes, List.filter_append]
    split <;> rfl
  have hcodes : (b'.codes 'G').flatMap (codeNotes line b') =
      ((b.codes 'G').flatMap (codeNotes line b)).map (Note.cycle source) := by
    rw [Block.codes_cycle hwords, List.flatMap_map, List.map_flatMap]
    exact List.flatMap_congr fun code _ => codeNotes_cycle hwords source line code
  rw [hflagged, hflagged, hcodes, Note.filter_map_cycle]

end Notes

namespace State

/-- **The three planes are alike.** On a machine with the axes `x`, `y` and `z` and the same
limits on each of them, let the axes of a shaped state be renamed in a circle, and with them the
axis words, the centre words and the plane codes of a line that does not end the program. Then the
renamed line leads from the renamed state to the renamed state after the line, with the renamed
result: the same times and senses of rotation, with planes, centres and positions renamed. It
notes the same, but for its own text and for whether it is flagged. -/
theorem planes_alike {c : Config ℝ} (hc : c.AxesAlike) {s s' : State ℝ} (hs : s.pose.Shaped c)
    (hs' : s.CycledTo s') {b b' : Block ℝ} (hwords : b'.words = b.words.map Word.cycle)
    (hend : b.lacks 'M' endCodes = true) :
    (evaluate c s b).state.CycledTo (evaluate c s' b').state ∧
      (evaluate c s' b').result = (evaluate c s b).result.cycle ∧
      (evaluate c s' b').otherNotes =
        (evaluate c s b).otherNotes.map (Note.cycle b'.source) := by
  obtain ⟨letters, flagged, rfl⟩ := hs'
  have hprepare := prepare_cycle hc letters flagged hwords hs
  -- From here on the machine keeps what it has written down of the line.
  generalize letters.insertAll b'.letters = letters' at hprepare
  generalize (if b'.isFlagged then flagged.insert b'.source else flagged) = flagged' at hprepare
  have hstep := step_cycle hc letters' flagged' hwords (hs.prepare b)
  have hgoesOn : endsProgram (b.codes 'M') = false := Block.endsProgram_of_lacks hend
  have hm : b'.codes 'M' = b.codes 'M' :=
    Block.codes_of_values (Block.values_of_unrenamed hwords (by decide))
  have hframe : modalChangesFrame b' = modalChangesFrame b := by
    rw [modalChangesFrame_eq, Block.codes_cycle hwords, codesChangeFrame_cycleCode,
      modalChangesFrame_eq]
  refine ⟨⟨letters', flagged', ?_⟩, ?_, ?_⟩
  · simp only [evaluate, finish, hm, hgoesOn, hprepare, hstep]
    rfl
  · simp only [evaluate, finish, hm, hgoesOn, hprepare, hstep, hframe]
    rfl
  · simp only [Evaluation.otherNotes, evaluate, hprepare, hstep, Outcome.cycle,
      List.filter_append, Note.filter_map_cycle, List.map_append,
      filter_modalNotes_cycle hwords b'.source]
    rfl

/-- A quarter of a circle in the first plane. -/
noncomputable def quarterCircle : Block ℝ :=
  .ofWords [⟨'G', Scalar.ofNat 17⟩, ⟨'G', Scalar.ofNat 3⟩, ⟨'X', Scalar.ofNat 10⟩,
    ⟨'Y', Scalar.ofNat 10⟩, ⟨'J', Scalar.ofNat 10⟩, ⟨'F', Scalar.ofNat 600⟩]

/-- The same quarter in the plane of the second and the third axis. -/
noncomputable def renamedQuarterCircle : Block ℝ :=
  .ofWords [⟨'G', Scalar.ofNat 19⟩, ⟨'G', Scalar.ofNat 3⟩, ⟨'Y', Scalar.ofNat 10⟩,
    ⟨'Z', Scalar.ofNat 10⟩, ⟨'K', Scalar.ofNat 10⟩, ⟨'F', Scalar.ofNat 600⟩]

/-- The standard machine makes the two from power-on in the same way. -/
theorem planes_alike_quarterCircle :
    renamedQuarterCircle.words = quarterCircle.words.map Word.cycle ∧
      (evaluate .standard (start .standard) quarterCircle).state.CycledTo
        (evaluate .standard ((start .standard).cycle .empty .empty) renamedQuarterCircle).state ∧
      (evaluate .standard ((start .standard).cycle .empty .empty) renamedQuarterCircle).result =
        (evaluate .standard (start .standard) quarterCircle).result.cycle ∧
      (evaluate .standard ((start .standard).cycle .empty .empty)
          renamedQuarterCircle).otherNotes =
        (evaluate .standard (start .standard) quarterCircle).otherNotes.map
          (Note.cycle renamedQuarterCircle.source) := by
  have hc : (Config.standard : Config ℝ).AxesAlike :=
    ⟨Config.limitsAlike_of_uniform rfl rfl, rfl⟩
  have h17 : toCode (Scalar.ofNat 17 : ℝ) = 170 := Exact.toCode_ofNat (by decide)
  have h3 : toCode (Scalar.ofNat 3 : ℝ) = 30 := Exact.toCode_ofNat (by decide)
  have hwords : renamedQuarterCircle.words = quarterCircle.words.map Word.cycle := by
    simp only [quarterCircle, Block.ofWords, List.map_cons, List.map_nil, Word.cycle, Word.code,
      h17, h3]
    rfl
  have hend : quarterCircle.lacks 'M' endCodes = true := rfl
  exact ⟨hwords, planes_alike hc (Pose.shaped_start Exact.standard_validate)
    ⟨.empty, .empty, rfl⟩ hwords hend⟩

end State

end DryRun
