import DryRun.Proofs.Labels
import DryRun.Proofs.MoveOrders
import DryRun.Proofs.TimeIndependence

/-!
# An arc moves like a line

An arc needs a plane and a centre, and a line may give neither, or a centre that does not fit:
a plane without one of its axes, no offsets and no radius, a radius that is too short, ends that
coincide. Whatever becomes of the shape, the machine ends up where a feed move to the same point
would take it. Only the shape of the event tells the two apart, and the time, if arcs are timed
over their length.

This is stated for whole lines. A line that performs an arc is compared with the line that has
`G1` in place of `G2` or `G3`, or, if it has no motion of its own, with the same line in the state
in which feed moves are in force (`State.Straightens`). All readers of the line are gone through:
its letters, its values, its codes, what its modal words do. None of them but the choice of the
motion notices the replacement.

## Main results

* `Block.Straightened.prepare`: the modal words of the two lines do the same.
* `State.Straightens.prepared`: the two prepared states differ in the motion in force only.
* `State.arc_as_line`: the two lines lead to the same state but for that motion and for time.
-/

namespace DryRun

variable {α : Type} [Scalar α]

/-! ### Straightened lines -/

/-- The `G` codes of arcs. -/
def arcCodes : List Int := [20, 30]

/-- A word, and what stands in its place in a straightened line: `G1` for `G2` or `G3`. -/
inductive Word.Straightened : Word α → Word α → Prop
  | kept (w : Word α) : Straightened w w
  | arc {value value' : α} (h : toCode value ∈ arcCodes) (h' : toCode value' = 10) :
      Straightened ⟨'G', value⟩ ⟨'G', value'⟩

/-- A line, and the line that has the code of a feed move in place of that of an arc. Its texts
are kept. -/
structure Block.Straightened (b b' : Block α) : Prop where
  source : b'.source = b.source
  code : b'.code = b.code
  words : List.Forall₂ Word.Straightened b.words b'.words
  selects : selectedMotion? (b'.codes 'G') = some .linear

namespace Block.Straightened

variable {b b' : Block α}

/-- A straightened line has the same letters. -/
theorem letters (h : b.Straightened b') : b'.letters = b.letters := by
  obtain ⟨-, -, hwords, -⟩ := h
  rcases b with ⟨source, code, words⟩
  rcases b' with ⟨source', code', words'⟩
  simp only [Block.letters] at hwords ⊢
  induction hwords with
  | nil => rfl
  | cons hw _ ih =>
      rw [List.map_cons, List.map_cons, ih]
      cases hw <;> rfl

/-- A straightened line has the same values of all letters but `G`. -/
theorem values (h : b.Straightened b') {letter : Char} (hl : letter.toUpper ≠ 'G') :
    b'.values letter = b.values letter := by
  obtain ⟨-, -, hwords, -⟩ := h
  rcases b with ⟨source, code, words⟩
  rcases b' with ⟨source', code', words'⟩
  simp only [Block.values] at hwords ⊢
  induction hwords with
  | nil => rfl
  | cons hw _ ih =>
      cases hw with
      | kept w =>
          rw [List.filter_cons, List.filter_cons]
          split
          · rw [List.map_cons, List.map_cons, ih]
          · exact ih
      | arc =>
          rw [List.filter_cons_of_neg (by simp [hl.symm]),
            List.filter_cons_of_neg (by simp [hl.symm]), ih]

/-- A straightened line has `G1` for some of the codes of arcs, and the other `G` codes as they
were. -/
theorem codes_G (h : b.Straightened b') :
    List.Forall₂ (fun code code' => code' = code ∨ code ∈ arcCodes ∧ code' = 10)
      (b.codes 'G') (b'.codes 'G') := by
  obtain ⟨-, -, hwords, -⟩ := h
  rcases b with ⟨source, code, words⟩
  rcases b' with ⟨source', code', words'⟩
  simp only [Block.codes, Block.values] at hwords ⊢
  induction hwords with
  | nil => exact .nil
  | cons hw _ ih =>
      cases hw with
      | kept w =>
          rw [List.filter_cons, List.filter_cons]
          split
          · exact .cons (.inl rfl) ih
          · exact ih
      | arc hcode hcode' => exact .cons (.inr ⟨hcode, hcode'⟩) ih

/-- A straightened line has the same codes of all letters but `G`. -/
theorem codes (h : b.Straightened b') {letter : Char} (hl : letter.toUpper ≠ 'G') :
    b'.codes letter = b.codes letter := by
  rw [Block.codes, Block.codes, h.values hl]

/-- A straightened line gives the same value to all letters but `G`. -/
theorem get? (h : b.Straightened b') {letter : Char} (hl : letter.toUpper ≠ 'G') :
    b'.get? letter = b.get? letter := by
  rw [get?_eq_head?, get?_eq_head?, h.values hl]

/-- A straightened line has the same codes of all commands but feed moves and arcs. -/
theorem mem_codes_iff (h : b.Straightened b') {code : Int} (hcode : code ∉ 10 :: arcCodes) :
    code ∈ b'.codes 'G' ↔ code ∈ b.codes 'G' := by
  have hcodes := h.codes_G
  generalize b.codes 'G' = codes at hcodes ⊢
  generalize b'.codes 'G' = codes' at hcodes ⊢
  induction hcodes with
  | nil => rfl
  | cons hc _ ih =>
      rw [List.mem_cons, List.mem_cons]
      rcases hc with rfl | ⟨harc, rfl⟩
      · exact or_congr_right ih
      · have hfeed : code ≠ 10 := fun h => hcode (h ▸ List.mem_cons_self)
        have hother : code ≠ _ := fun h => hcode (List.mem_cons_of_mem 10 (h ▸ harc))
        rw [or_iff_right hfeed, or_iff_right hother]
        exact ih

/-- A straightened line names the same axes, as long as none is called `G`. -/
theorem axisWords (h : b.Straightened b') {axes : List Char}
    (haxes : ∀ axis ∈ axes, axis.toUpper ≠ 'G') : axisWords axes b' = axisWords axes b :=
  List.map_congr_left fun axis haxis => h.get? (haxes axis haxis)

/-- A straightened line asks for the same return to a reference position. -/
theorem returnMotion? (h : b.Straightened b') :
    returnMotion? (b'.codes 'G') = returnMotion? (b.codes 'G') := by
  have hhome := h.mem_codes_iff (show (280 : Int) ∉ 10 :: arcCodes by decide)
  have hsecond := h.mem_codes_iff (show (300 : Int) ∉ 10 :: arcCodes by decide)
  simp only [DryRun.returnMotion?, List.contains_iff_mem, hhome, hsecond]

/-- A straightened line has no action if the line has none. -/
theorem ofCodes?_eq_none (h : b.Straightened b') (ha : Action.ofCodes? (b.codes 'G') = none) :
    Action.ofCodes? (b'.codes 'G') = none := by
  rw [Action.ofCodes?_eq_none_iff] at ha ⊢
  intro code hcode hmem
  have hnot : ∀ code ∈ actionCodes, code ∉ 10 :: arcCodes := by decide
  exact ha code hcode ((h.mem_codes_iff (hnot code hcode)).1 hmem)

/-- The codes of feed moves and arcs are not modal, so the `G` codes of a straightened line do
the same. -/
theorem foldl_applyG (h : b.Straightened b') (s : State α) :
    (b'.codes 'G').foldl (State.applyG b) s = (b.codes 'G').foldl (State.applyG b) s := by
  have hcodes := h.codes_G
  generalize b.codes 'G' = codes at hcodes ⊢
  generalize b'.codes 'G' = codes' at hcodes ⊢
  induction hcodes generalizing s with
  | nil => rfl
  | cons hc _ ih =>
      rw [List.foldl_cons, List.foldl_cons, ih]
      rcases hc with rfl | ⟨harc, rfl⟩
      · rfl
      · have hidle : ∀ code ∈ arcCodes, ModalCommand.ofCode? code = none := by decide
        rw [State.applyG, State.applyG, hidle _ harc]
        rfl

/-- **The modal words of a straightened line do the same.** -/
theorem prepare (h : b.Straightened b') (s : State α) : s.prepare b' = s.prepare b := by
  have hg := State.applyG_congr (h.get? (show 'P'.toUpper ≠ 'G' by decide))
  have hn := h.get? (show 'N'.toUpper ≠ 'G' by decide)
  have hf := h.get? (show 'F'.toUpper ≠ 'G' by decide)
  have hs := h.get? (show 'S'.toUpper ≠ 'G' by decide)
  have ht := h.values (show 'T'.toUpper ≠ 'G' by decide)
  have hm := h.codes (show 'M'.toUpper ≠ 'G' by decide)
  have hflagged : b'.isFlagged = b.isFlagged := by rw [isFlagged, isFlagged, h.code]
  have hcount : s.count b' = s.count b := by
    simp only [State.count, State.lineNumber?, hflagged, h.letters, h.source, hn]
  simp only [State.prepare, State.applyModalWords, State.applyFeed, State.applySpeed,
    State.applyTools, hcount, hg, hf, hs, ht, hm, h.foldl_applyG]

end Block.Straightened

namespace State

/-! ### States with another motion in force -/

/-- A modal code that does not cancel the motion does not read it. -/
theorem applyG_inForce (b : Block α) {code : Int} (hcode : code ≠ 800) (s : State α)
    (m : Motion) : (s.inForce m).applyG b code = (s.applyG b code).inForce m := by
  rw [applyG, applyG]
  cases hc : ModalCommand.ofCode? code with
  | none => rfl
  | some command =>
      cases command with
      | cancelMotion => exact absurd (ModalCommand.ofCode?_eq_cancelMotion.1 hc) hcode
      | system index =>
          have hframe : (s.inForce m).frame = s.frame := rfl
          simp only [applyModal, selectSystem, hframe]
          split <;> rfl
      | dwell =>
          simp only [applyModal, dwell]
          split <;> rfl
      | feedMode _ | plane _ | units _ | distanceMode _ => rfl

/-- Modal words that do not cancel the motion do not read it. -/
theorem prepare_inForce {b : Block α} (h : 800 ∉ b.codes 'G') (s : State α) (m : Motion) :
    (s.inForce m).prepare b = (s.prepare b).inForce m := by
  have hcodes : ∀ (codes : List Int) (s : State α), 800 ∉ codes →
      codes.foldl (applyG b) (s.inForce m) = (codes.foldl (applyG b) s).inForce m := by
    intro codes
    induction codes with
    | nil => exact fun _ _ => rfl
    | cons code codes ih =>
        intro s hcancel
        rw [List.mem_cons, not_or] at hcancel
        obtain ⟨hcode, hcodes⟩ := hcancel
        rw [List.foldl_cons, List.foldl_cons, applyG_inForce b (Ne.symm hcode), ih _ hcodes]
  have hfeed (s : State α) : (s.inForce m).applyFeed b = (s.applyFeed b).inForce m := by
    rw [applyFeed, applyFeed]
    split <;> rfl
  have hspeed (s : State α) : (s.inForce m).applySpeed b = (s.applySpeed b).inForce m := by
    rw [applySpeed, applySpeed]
    split <;> rfl
  have htools (s : State α) : (s.inForce m).applyTools b = (s.applyTools b).inForce m :=
    List.foldl_hom (inForce · m) fun _ _ => rfl
  have hswitch (s : State α) (code : Int) :
      (s.inForce m).applyM code = (s.applyM code).inForce m := by
    rw [applyM, applyM]
    split
    · next command _ => cases command <;> rfl
    · rfl
  simp only [prepare, applyModalWords]
  rw [← List.foldl_hom (inForce · m) hswitch, ← htools, ← hspeed, ← hfeed, ← hcodes _ _ h]
  rfl

/-- The end of a line does not read the motion in force. -/
theorem finish_inForce (s : State α) (b : Block α) (m : Motion) :
    (s.inForce m).finish b = (s.finish b).inForce m := by
  rw [finish, finish]
  split <;> rfl

/-! ### The two lines side by side -/

/-- A line in a state, and the straight line that it is compared with: the line with `G1` in place
of its arc, or, if it selects no motion itself, the same line with feed moves in force. -/
inductive Straightens (s : State α) (b : Block α) : State α → Block α → Prop
  | explicit {b' : Block α} (h : b.Straightened b') : Straightens s b s b'
  | sticky (h : selectedMotion? (b.codes 'G') = none) : Straightens s b (s.inForce .linear) b

/-- What the straight line is up to once both lines are prepared: it asks for a feed move to the
same targets, in a state that differs in the motion in force only. -/
structure StraightenedTo (s : State α) (b : Block α) (s' : State α) (b' : Block α) : Prop where
  state : (s'.prepare b').selectMotion (b'.codes 'G') =
    ((s.prepare b).selectMotion (b.codes 'G')).inForce .linear
  asked : s'.askedMotion? b' = some .linear
  targets : (s'.prepare b').blockTargets b' = (s.prepare b).blockTargets b
  ends : b'.codes 'M' = b.codes 'M'

/-- A line that selects a feed move or has one in force, names an axis and asks for nothing else
asks for the feed move. -/
theorem blockMotion?_of_linear {s : State α} {b : Block α}
    (hreturn : returnMotion? (b.codes 'G') = none)
    (hselect : (s.selectMotion (b.codes 'G')).motion = some .linear)
    (hnamed : anyNamed (axisWords s.axes b) = true) : s.blockMotion? b = some .linear := by
  rw [blockMotion?, lineMotion?, hreturn, hselect, hnamed]
  rfl

/-- **The prepared states differ in the motion in force only.** -/
theorem Straightens.prepared {s s' : State α} {b b' : Block α} {m : Motion}
    (h : s.Straightens b s' b') (haxes : ∀ axis ∈ s.axes, axis.toUpper ≠ 'G')
    (hasked : s.askedMotion? b = some m) (harc : m.isArc = true)
    (hnamed : anyNamed (axisWords s.axes b) = true) : s.StraightenedTo b s' b' := by
  obtain ⟨haction, hmotion⟩ := askedMotion?_eq_some_iff.1 hasked
  obtain ⟨hreturn, hselect⟩ := selectMotion_of_blockMotion? hmotion (Motion.isReturn_of_isArc harc)
  rw [← axes_prepare s b] at haxes hnamed
  cases h with
  | explicit hb =>
      have hreturn' : returnMotion? (b'.codes 'G') = none := hb.returnMotion?.trans hreturn
      have hselect' : (s.prepare b).selectMotion (b'.codes 'G') =
          (s.prepare b).inForce .linear := by
        rw [selectMotion, motionInForce, hreturn', hb.selects]
        rfl
      have hnamed' : anyNamed (axisWords (s.prepare b).axes b') = true := by
        rw [hb.axisWords haxes]
        exact hnamed
      have hmotion' : (s.prepare b).blockMotion? b' = some .linear :=
        blockMotion?_of_linear hreturn' (by rw [hselect']; rfl) hnamed'
      have hmachine := hb.mem_codes_iff (show (530 : Int) ∉ 10 :: arcCodes by decide)
      refine ⟨?_, ?_, ?_, hb.codes (by decide)⟩
      · rw [hb.prepare, hselect', hselect]
        rfl
      · rw [askedMotion?_eq_some_iff, hb.prepare]
        exact ⟨hb.ofCodes?_eq_none haction, hmotion'⟩
      · rw [hb.prepare, blockTargets, blockTargets, hb.axisWords haxes]
        congr 1
        rw [Bool.eq_iff_iff, List.contains_iff_mem, List.contains_iff_mem]
        exact hmachine
  | sticky hsticky =>
      -- The arc is in force after the modal words, so that none of them has cancelled it.
      have hkeeps : 800 ∉ b.codes 'G' := by
        intro hcancel
        have hm := congrArg State.motion hselect
        rw [selectMotion, motionInForce, hreturn, hsticky] at hm
        change (s.prepare b).motion = some m at hm
        rw [motion_prepare, if_pos hcancel] at hm
        cases hm
      have hselect' : ((s.prepare b).inForce .linear).selectMotion (b.codes 'G') =
          (s.prepare b).inForce .linear := by
        rw [selectMotion, motionInForce, hreturn, hsticky]
        rfl
      have hmotion' : ((s.prepare b).inForce .linear).blockMotion? b = some .linear :=
        blockMotion?_of_linear hreturn (by rw [hselect']; rfl) hnamed
      refine ⟨?_, ?_, ?_, rfl⟩
      · rw [prepare_inForce hkeeps, hselect', hselect]
        rfl
      · rw [askedMotion?_eq_some_iff, prepare_inForce hkeeps]
        exact ⟨haction, hmotion'⟩
      · rw [prepare_inForce hkeeps]
        rfl

end State

/-- An event as that of a feed move along a straight line. -/
def Event.asLine (e : Event α) : Event α :=
  { e with modal := { e.modal with motion := .linear }, geometry := .line }

namespace State

/-- An arc is carried out as such. -/
theorem runMotion?_of_isArc (c : Config α) (s : State α) (b : Block α) {m : Motion}
    (harc : m.isArc = true) (targets : List (Option α)) :
    s.runMotion? c b m targets = some (s.arc c b m targets) := by
  cases m with
  | arcClockwise | arcCounterclockwise => rfl
  | rapid | linear | home | secondaryHome | unsupported _ => cases harc

/-- Carrying out an arc and carrying out a feed move to the same targets, in states that differ in
the motion in force only. -/
theorem arc_upToTime_linear (c : Config α) (s : State α) (b : Block α) (m : Motion)
    (targets : List (Option α)) :
    ∃ e e', (s.arc c b m targets).events = [e] ∧
      ((s.inForce .linear).straight c .linear targets s.feed? s.feedNotes).events = [e'] ∧
      ((s.arc c b m targets).state.inForce .linear).UpToTime
        ((s.inForce .linear).straight c .linear targets s.feed? s.feedNotes).state ∧
      e'.untimed = e.asLine.untimed ∧
      (c.arcLengthTravel = false →
        ((s.inForce .linear).straight c .linear targets s.feed? s.feedNotes).state =
          (s.arc c b m targets).state.inForce .linear ∧ e' = e.asLine) := by
  obtain ⟨geometry, notes, harc⟩ := arc_eq_perform c s b m targets
  rw [harc]
  have hline : ((s.perform c m targets s.feed? (arcTravel? c s b m targets) geometry).1.inForce
      .linear).UpToTime
        ((s.inForce .linear).straight c .linear targets s.feed? s.feedNotes).state :=
    ⟨((s.inForce .linear).straight c .linear targets s.feed? s.feedNotes).state.records, rfl, rfl⟩
  refine ⟨_, _, rfl, rfl, hline, rfl, ?_⟩
  intro hchord
  rw [arcTravel?_of_chord hchord]
  exact ⟨rfl, rfl⟩

/-- **An arc moves like the straight line to its end point.** Let a line ask for an arc, by a word
of its own or because one is in force, and let it name an axis; and let no axis be called `G`. The
straight line in its place asks for a feed move. After both lines the states are the same in
everything but the motion in force, the time of the run and the axis feeds, and each line has one
event, which are the same in everything but the motion, the shape and the time. If arcs are timed
over their chords, the times and the axis feeds are the same as well. -/
theorem arc_as_line (c : Config α) {s s' : State α} {b b' : Block α} {m : Motion}
    (haxes : ∀ axis ∈ s.axes, axis.toUpper ≠ 'G') (hasked : s.askedMotion? b = some m)
    (harc : m.isArc = true) (hnamed : anyNamed (axisWords s.axes b) = true)
    (h : s.Straightens b s' b') :
    s'.askedMotion? b' = some .linear ∧
      (evaluate c s' b').state.untimed = ((evaluate c s b).state.inForce .linear).untimed ∧
      ∃ e e', (evaluate c s b).result.events = [e] ∧ (evaluate c s' b').result.events = [e'] ∧
        e'.untimed = e.asLine.untimed ∧
        (c.arcLengthTravel = false →
          (evaluate c s' b').state = (evaluate c s b).state.inForce .linear ∧ e' = e.asLine) := by
  obtain ⟨hstate, hasked', htargets, hends⟩ := h.prepared haxes hasked harc hnamed
  obtain ⟨e, e', harcEvents, hlineEvents, hupToTime, hevent, hchord⟩ :=
    arc_upToTime_linear c ((s.prepare b).selectMotion (b.codes 'G')) b m
      ((s.prepare b).blockTargets b)
  obtain ⟨hfinal, hevents⟩ := evaluate_of_asked hasked (runMotion?_of_isArc c _ b harc _)
  obtain ⟨hfinal', hevents'⟩ := evaluate_of_asked (c := c) hasked' rfl
  rw [hstate, htargets] at hfinal' hevents'
  have hfinish (s : State α) : s.finish b' = s.finish b := by rw [finish, finish, hends]
  rw [hfinish] at hfinal'
  have hfinished := (upToTime_lockstep c c b).finish hupToTime
  rw [finish_inForce, ← hfinal] at hfinished
  refine ⟨hasked', ?_, e, e', hevents.trans harcEvents, hevents'.trans hlineEvents, hevent, ?_⟩
  · rw [hfinal']
    exact hfinished.untimed_eq
  · intro hchords
    obtain ⟨hsame, hevent'⟩ := hchord hchords
    refine ⟨?_, hevent'⟩
    rw [hfinal', hfinal, ← finish_inForce, ← hsame]
    rfl

/-- An arc to a machine coordinate whose radius is too short. -/
def shortRadius : Block Float :=
  .ofWords [⟨'G', 53⟩, ⟨'G', 2⟩, ⟨'X', 5⟩, ⟨'R', 1⟩, ⟨'F', 100⟩]

/-- The line with `G1` in place of the arc, and with its texts. -/
def shortRadiusAsLine : Block Float :=
  { shortRadius with words := [⟨'G', 53⟩, ⟨'G', 1⟩, ⟨'X', 5⟩, ⟨'R', 1⟩, ⟨'F', 100⟩] }

/-- An axis word and an offset of the centre, with arcs in force. -/
def stickyArc : Block Float := .ofWords [⟨'Y', 4⟩, ⟨'J', 2⟩]

/-- The arc with a radius that is too short ends where the line does, after the same time; and a
line after it, for which the arc is still in force, does so as well. -/
theorem arc_as_line_shortRadius :
    ∃ s s₁ s₁' s₂ s₂' : State Float, start? .standard = .ok s ∧
      s.askedMotion? shortRadius = some .arcClockwise ∧
      s.Straightens shortRadius s shortRadiusAsLine ∧
      s₁ = (evaluate .standard s shortRadius).state ∧
      s₁' = (evaluate .standard s shortRadiusAsLine).state ∧
      s₁.work = [5, 0, 0] ∧ s₁' = s₁.inForce .linear ∧
      s₁.Straightens stickyArc s₁' stickyArc ∧
      s₂ = (evaluate .standard s₁ stickyArc).state ∧
      s₂' = (evaluate .standard s₁' stickyArc).state ∧ s₂' = s₂.inForce .linear := by
  have hc : (Config.standard : Config Float).validate = .ok () :=
    Config.validate_eq_ok.2 (by decide +kernel)
  have hasked : (start .standard).askedMotion? shortRadius = some .arcClockwise := by
    decide +kernel
  have hwords : (start .standard).Straightens shortRadius (start .standard) shortRadiusAsLine := by
    refine .explicit ⟨rfl, rfl, ?_, by decide +kernel⟩
    exact .cons (.kept _) (.cons (.arc (by decide +kernel) (by decide +kernel))
      (.cons (.kept _) (.cons (.kept _) (.cons (.kept _) .nil))))
  have hasked₁ : (evaluate .standard (start .standard) shortRadius).state.askedMotion? stickyArc =
      some .arcClockwise := by decide +kernel
  have haxes {s : State Float} (hs : s.pose.Shaped .standard) :
      ∀ axis ∈ s.axes, axis.toUpper ≠ 'G' := by
    intro axis haxis hupper
    have hlabels := (Config.labelFault?_eq_none.1 (hs.labelFault?_axes hc)).1 axis haxis
    exact hlabels.2 (hupper ▸ List.mem_cons_self)
  have hshaped := Pose.shaped_start hc
  obtain ⟨-, -, e, e', -, -, -, hfirst⟩ :=
    arc_as_line .standard (haxes hshaped) hasked rfl (by decide +kernel) hwords
  have hsticky : (evaluate .standard (start .standard) shortRadius).state.Straightens stickyArc
      (evaluate .standard (start .standard) shortRadiusAsLine).state stickyArc := by
    rw [(hfirst rfl).1]
    exact .sticky (by decide +kernel)
  obtain ⟨-, -, e, e', -, -, -, hsecond⟩ :=
    arc_as_line .standard (haxes ((Pose.shaped_invariant _).evaluate shortRadius hshaped)) hasked₁
      rfl (by decide +kernel) hsticky
  exact ⟨_, _, _, _, _, start?_of_validate hc, hasked, hwords, rfl, rfl, by decide +kernel,
    (hfirst rfl).1, hsticky, rfl, rfl, (hsecond rfl).1⟩

end State

end DryRun
