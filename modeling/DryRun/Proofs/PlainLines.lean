import DryRun.Proofs.Kinematics
import DryRun.Proofs.MoveOrders

/-!
# Plain lines

The simplest lines of a program have the code of a motion, some axis words and at most a feed. In
absolute coordinates all that such a line orders can be told from three parts of the state that it
finds, which are the axes, the work position and the settings (`State.Stands`), and these three are
known again after it. So a short program can be followed line by line, without evaluating what else
the lines do.

## Main results

* `State.plain_ofWords`: lines that are plain by their words.
* `State.Stands.blockTargets`, `State.Stands.travels_moveOrder`: where a line leads, and how far
  each axis travels.
* `State.Plain.stands_prepare`, `State.Plain.stands_evaluate`: what is known before the move of a
  plain line and after it.
-/

namespace DryRun

/-- A list that is combined with another one twice may be combined with it at once. -/
theorem zipWith_zipWith_self {α β γ δ : Type} (f : γ → β → δ) (g : α → β → γ) (xs : List α)
    (ys : List β) :
    (xs.zipWith g ys).zipWith f ys = xs.zipWith (fun x y => f (g x y) y) ys := by
  induction xs generalizing ys with
  | nil => rfl
  | cons x xs ih =>
      cases ys with
      | nil => rfl
      | cons y ys => simp only [List.zipWith_cons_cons, ih]

variable {α : Type} [Scalar α]

namespace State

/-! ### Where a machine stands -/

/-- What is read of a state by a line in absolute coordinates. -/
structure Stands (s : State α) (axes : List Char) (work : List α) (settings : Settings α) :
    Prop where
  axes : s.axes = axes
  work : s.work = work
  settings : s.settings = settings

/-- The standard machine starts at the origin, with the settings of power-on. -/
theorem stands_start_standard :
    (start .standard : State ℝ).Stands ['x', 'y', 'z'] [0, 0, 0] (startSettings .empty) :=
  ⟨rfl, work_start_standard, rfl⟩

namespace Stands

variable {s s' : State α} {axes : List Char} {work : List α} {settings settings' : Settings α}
  {b : Block α}

omit [Scalar α] in
/-- A machine in the same pose stands at the same place. -/
theorem of_pose (hs : s.Stands axes work settings) (hpose : s'.pose = s.pose)
    (hsettings : s'.settings = settings') : s'.Stands axes work settings' where
  axes := (congrArg Pose.axes hpose).trans hs.axes
  work := (congrArg Pose.work hpose).trans hs.work
  settings := hsettings

/-- A positive feed is that of a feed move. -/
theorem feed? (hs : s.Stands axes work settings) (hfeed : 0 < settings.feed) :
    s.feed? = some settings.feed := by
  rw [State.feed?, hs.settings]
  exact if_pos hfeed

/-- In absolute coordinates a line names its targets by its words. -/
theorem blockTargets (hs : s.Stands axes work settings) (hmode : settings.incremental = false)
    (hcode : 530 ∉ b.codes 'G') :
    s.blockTargets b = (axisWords axes b).zipWith (fun word _ => word) work := by
  have hframe : (b.codes 'G').contains 530 = false := by simpa using hcode
  simp only [State.blockTargets, targets, hframe, hs.axes, hs.work, hs.settings, hmode,
    Bool.false_eq_true, if_false, Option.map_id_fun', id_eq]

/-- A line whose prepared state is known leads to its words, and stays where it is on the other
axes. -/
theorem destination_moveOrder (hs : (s.prepare b).Stands axes work settings)
    (hmode : settings.incremental = false) (hcode : 530 ∉ b.codes 'G') (c : Config α)
    (motion : Motion) :
    (s.moveOrder c b motion).state.destination (s.moveOrder c b motion).targets =
      (axisWords axes b).zipWith (fun word here => word.getD here) work := by
  change List.zipWith _ ((s.prepare b).blockTargets b) (s.prepare b).work = _
  rw [hs.blockTargets hmode hcode, hs.work, zipWith_zipWith_self]

/-- Each axis that a line has a word for travels to the word. -/
theorem travels_moveOrder (hs : (s.prepare b).Stands axes work settings)
    (hmode : settings.incremental = false) (hcode : 530 ∉ b.codes 'G') (c : Config α)
    (motion : Motion) :
    (s.moveOrder c b motion).travels =
      (axisWords axes b).zipWith (fun word here => Scalar.abs (word.getD here - here)) work := by
  rw [MoveOrder.travels, axisTravels, hs.destination_moveOrder hmode hcode]
  change List.zipWith _ _ (s.prepare b).work = _
  rw [hs.work, zipWith_zipWith_self]

end Stands

/-- Straight moves are timed over their own distance, and so are arcs that are timed over their
chords. -/
theorem distance_moveOrder {c : Config α} {motion : Motion}
    (h : motion.isArc = false ∨ c.arcLengthTravel = false) (s : State α) (b : Block α) :
    (s.moveOrder c b motion).distance = Scalar.norm (s.moveOrder c b motion).travels := by
  have htravel : (s.moveOrder c b motion).travel = none := by
    change travelOf? c _ b motion _ = none
    rcases h with hmotion | hchord
    · rw [travelOf?, hmotion]
      rfl
    · rw [travelOf?, arcTravel?_of_chord hchord, ite_self]
  rw [MoveOrder.distance, htravel]
  rfl

/-! ### Plain lines -/

/-- A line whose one `G` code is that of a motion, and that sets no spindle speed, no tool and no
switch. -/
structure Plain (b : Block α) (motion : Motion) : Prop where
  codes : ∃ code, b.codes 'G' = [code] ∧ Motion.ofCode? code = some motion
  speed : b.get? 'S' = none
  tools : b.values 'T' = []
  switches : b.codes 'M' = []

/-- A line is plain if it starts with the code of a motion and goes on with axis words and a
feed. -/
theorem plain_ofWords {g : α} {code : Int} {motion : Motion} {words : List (Word α)}
    (hg : toCode g = code) (hmotion : Motion.ofCode? code = some motion)
    (hwords : ∀ w ∈ words, w.letter ∉ ['G', 'S', 'T', 'M']) :
    Plain (.ofWords (⟨'G', g⟩ :: words)) motion := by
  have hnone {letter : Char} (hletter : letter ∈ ['G', 'S', 'T', 'M']) (w : Word α)
      (hw : w ∈ words) : ¬ w.letter = letter := by
    rintro rfl
    exact hwords w hw hletter
  have hvalues {letter : Char} (hletter : letter ∈ ['G', 'S', 'T', 'M']) :
      words.filter (·.letter = letter) = [] := by
    simpa only [List.filter_eq_nil_iff, decide_eq_true_eq] using hnone hletter
  have hS : words.find? (·.letter = 'S') = none := by
    simpa only [List.find?_eq_none, decide_eq_true_eq] using hnone (by decide)
  refine ⟨⟨code, ?_, hmotion⟩, ?_, ?_, ?_⟩
  · change (List.map Word.value (_ :: words.filter (·.letter = 'G'))).map toCode = [code]
    rw [hvalues (by decide), List.map_singleton, List.map_singleton, hg]
  · change (words.find? (·.letter = 'S')).map Word.value = none
    rw [hS, Option.map_none]
  · change (words.filter (·.letter = 'T')).map Word.value = []
    rw [hvalues (by decide), List.map_nil]
  · change ((words.filter (·.letter = 'M')).map Word.value).map toCode = []
    rw [hvalues (by decide), List.map_nil, List.map_nil]

namespace Plain

variable {b : Block α} {motion : Motion} (h : Plain b motion)

include h

/-- A plain line is not read in machine coordinates. -/
theorem not_mem_codes : 530 ∉ b.codes 'G' := by
  obtain ⟨code, hcodes, hmotion⟩ := h.codes
  rw [hcodes, List.mem_singleton]
  exact Motion.ne_of_ofCode? hmotion (by decide)

/-- A plain line is counted and sets the feed; this is all that its modal words do. -/
theorem prepare (s : State α) : s.prepare b = (s.count b).applyFeed b := by
  obtain ⟨code, hcodes, hmotion⟩ := h.codes
  have hG (s : State α) : (b.codes 'G').foldl (applyG b) s = s := by
    simp only [hcodes, List.foldl_cons, List.foldl_nil, applyG, Motion.modal_of_ofCode? hmotion]
  have hS (s : State α) : s.applySpeed b = s := by simp only [applySpeed, h.speed, Option.filter]
  have hT (s : State α) : s.applyTools b = s := by
    simp only [applyTools, h.tools, List.filterMap_nil, List.foldl_nil]
  simp only [State.prepare, applyModalWords, hG, hS, hT, h.switches, List.foldl_nil]

/-- Before a plain line moves, nothing but the settings and the catalogue changes. -/
theorem same (s : State α) : s.SameButSettings (s.prepare b) := by
  have hcount : s.SameButSettings (s.count b) := ⟨_, _, rfl⟩
  rw [h.prepare]
  exact hcount.trans (applyFeed_same _ b)

/-- A plain line sets the feed if it has one, and no other setting. -/
theorem settings_prepare (s : State α) : (s.prepare b).settings =
    { s.settings with feed := ((b.get? 'F').filter (0 ≤ ·)).getD s.settings.feed } := by
  rw [h.prepare, applyFeed]
  split
  · next feed hfeed => rw [hfeed]; rfl
  · next hfeed => rw [hfeed]; rfl

variable {s : State α} {axes : List Char} {work : List α} {settings : Settings α}

/-- A plain line moves from where the machine stands, at its own feed. -/
theorem stands_prepare (hs : s.Stands axes work settings) : (s.prepare b).Stands axes work
    { settings with feed := ((b.get? 'F').filter (0 ≤ ·)).getD settings.feed } :=
  hs.of_pose (h.same s).pose (hs.settings ▸ h.settings_prepare s)

/-- A plain line with a feed moves at it. -/
theorem stands_prepare_of_feed (hs : s.Stands axes work settings) {f : α}
    (hfeed : (b.get? 'F').filter (0 ≤ ·) = some f) :
    (s.prepare b).Stands axes work { settings with feed := f } := by
  have hprepared := h.stands_prepare hs
  rwa [hfeed, Option.getD_some] at hprepared

/-- A plain line that names an axis asks for its motion. -/
theorem askedMotion? (hs : s.Stands axes work settings)
    (hnamed : anyNamed (axisWords axes b) = true) : s.askedMotion? b = some motion := by
  obtain ⟨code, hcodes, hmotion⟩ := h.codes
  have haction : Action.ofCodes? [code] = none := by
    refine Action.ofCodes?_eq_none_iff.2 fun other hother => ?_
    rw [List.mem_singleton]
    exact Motion.ne_of_ofCode? hmotion (List.mem_append_left _ hother)
  have hreturn : returnMotion? [code] = none := by
    have hhome : 280 ≠ code := Motion.ne_of_ofCode? hmotion (by decide)
    have hsecondary : 300 ≠ code := Motion.ne_of_ofCode? hmotion (by decide)
    simp [returnMotion?, hhome, hsecondary]
  rw [← hs.axes] at hnamed
  rw [askedMotion?_eq_some_iff, blockMotion?, axes_prepare, hcodes]
  refine ⟨haction, ?_⟩
  simp only [lineMotion?, hreturn, selectMotion, motionInForce, selectedMotion?,
    List.findSome?_cons, hmotion, hnamed]
  rfl

/-- A plain line that names an axis and asks for a straight move or an arc ends at its words, with
its own feed set. -/
theorem stands_evaluate (hs : s.Stands axes work settings)
    (hmode : settings.incremental = false) (hnamed : anyNamed (axisWords axes b) = true)
    (hmotion : motion = .rapid ∨ motion = .linear ∨ motion.isArc = true) (c : Config α) :
    (evaluate c s b).state.Stands axes
      ((axisWords axes b).zipWith (fun word here => word.getD here) work)
      { settings with feed := ((b.get? 'F').filter (0 ≤ ·)).getD settings.feed } := by
  have hprepared := h.stands_prepare hs
  obtain ⟨-, hstate, -⟩ := evaluate_moveOrder c (h.askedMotion? hs hnamed) hmotion
  have hnext : (evaluate c s b).state = (s.moveOrder c b motion).next c := by
    rw [hstate, finish, h.switches]
    rfl
  rw [hnext]
  exact ⟨hprepared.axes, hprepared.destination_moveOrder hmode h.not_mem_codes c motion,
    hprepared.settings⟩

end Plain

end State

end DryRun
