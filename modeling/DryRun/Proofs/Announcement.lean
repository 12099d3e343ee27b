import DryRun.Proofs.Catalogue
import DryRun.Proofs.Envelope
import DryRun.Proofs.MachinePath
import DryRun.Proofs.Restart

/-!
# Announced changes

Whoever follows a machine by the results of its lines keeps a copy of its frame and of its
position, and has to know when the copy is stale. A result says so in two flags: whether the line
changed the frame, and whether it was a motion. The flags are set by the stages of a line and the
fields change in the functions below them, so that one could be forgotten. This module shows that
none is.

* What is not announced does not happen: without the first flag the frame is what it was, and
  without the second one the machine and its envelope are, unless the line homes axes.
* A line with an action is never a motion, whatever else stands on it.
* A motion is announced by its events, one for each move, under the number of the line.

How many events a return to a reference position has depends on whether the line names an axis.
The targets of a line are paired with the coordinates of a position, so this is about states in
which every axis has coordinates (`State.Positioned`), as it has in every state that a machine can
reach.

## Main results

* `State.announced`: a line announces what it changes (`State.Announced`).
* `State.frame_run`: as long as no line announces a change, a copy of the frame stays good.
* `State.changes_announced`: the two together.
-/

namespace DryRun

variable {α : Type}

namespace State

/-- Every axis has a coordinate in both positions. -/
def Positioned (s : State α) : Prop :=
  s.axes.length ≤ s.work.length ∧ s.axes.length ≤ s.machine.length

/-- A state of the right shape has coordinates for every axis. -/
theorem positioned_of_shaped {c : Config α} {s : State α} (hs : s.pose.Shaped c) :
    s.Positioned := by
  have haxes : s.axes.length = c.axisCount := hs.length_axes
  exact ⟨(haxes.trans hs.work.symm).le, (haxes.trans hs.machine.symm).le⟩

variable [Scalar α]

/-! ### Lines that move and lines that stand still -/

/-- What a prepared line does that is no motion. -/
structure Outcome.Stands (s : State α) (o : Outcome α) : Prop where
  isMotion : o.isMotion = false
  motion : o.motion.any Motion.isReturn = false
  events : o.events = []
  envelope : o.state.envelope = s.envelope

/-- What a prepared line does that is a motion. -/
structure Outcome.Moves (s : State α) (b : Block α) (o : Outcome α) : Prop where
  isMotion : o.isMotion = true
  length_events : o.events.length =
    if o.motion.any Motion.isReturn && anyNamed (s.blockTargets b) then 2 else 1
  line : ∀ e ∈ o.events, e.line = s.catalogue.lines

namespace Outcome.Moves

variable {s : State α} {b : Block α} {o : Outcome α}

/-- A motion is one move, or two. -/
theorem length_eq (h : o.Moves s b) : o.events.length = 1 ∨ o.events.length = 2 := by
  rw [h.length_events]
  split
  · exact .inr rfl
  · exact .inl rfl

/-- A motion is two moves if it returns through a named point. -/
theorem length_eq_two_iff (h : o.Moves s b) : o.events.length = 2 ↔
    o.motion.any Motion.isReturn = true ∧ anyNamed (s.blockTargets b) = true := by
  rw [h.length_events, ← Bool.and_eq_true]
  split
  · next htwo => exact iff_of_true rfl htwo
  · next hone => exact iff_of_false (by decide) hone

end Outcome.Moves

/-- The events of a chain of moves carry the number of the line. -/
theorem Performs.line {c : Config α} {s s' : State α}
    {moves : List (List (Option α) × Event α)} (h : Performs c s moves s') :
    ∀ e ∈ moves.map Prod.snd, e.line = s.catalogue.lines := by
  induction h with
  | done s => simp
  | move motion feed travel geometry hleg _ ih => exact List.forall_mem_cons.2 ⟨rfl, ih⟩

/-- An action is no motion. -/
theorem stands_of_action (c : Config α) (s : State α) {b : Block α} {a : Action}
    (ha : Action.ofCodes? (b.codes 'G') = some a) :
    (s.step c b).Stands s ∧ (s.step c b).motion = none := by
  obtain ⟨work, machine, frame, home, secondaryHome, hact⟩ := act_eq s b a
  have hstep : s.step c b =
      (s.act b a).idle a.changesFrame (actionNotes s.catalogue.lines s b a) := by
    simp only [step, ha]
  rw [hstep]
  exact ⟨⟨rfl, rfl, rfl, by simp only [idle, hact]⟩, rfl⟩

/-- A prepared line stands still or moves. -/
theorem stands_or_moves (c : Config α) (s : State α) (b : Block α) :
    (s.step c b).Stands s ∨ (s.step c b).Moves s b := by
  have hstep := step_stepped c s b
  have haction := fun a => stands_of_action c s (b := b) (a := a)
  generalize s.step c b = o at hstep haction
  cases hstep with
  | action a notes ha => exact .inl (haction a ha).1
  | motion m p ha hm hp =>
      have hlength := hp.length_events
      obtain ⟨moves, hmoves, hevents, -⟩ := hp
      rw [length_legs, isSome_reference?] at hlength
      refine .inr ⟨rfl, hlength, ?_⟩
      rw [hevents]
      exact hmoves.line
  | skipped code notes ha hm => exact .inl ⟨rfl, rfl, rfl, rfl⟩
  | nothing notes ha hm => exact .inl ⟨rfl, rfl, rfl, rfl⟩

/-! ### The frame -/

/-- An action that does not announce a change of the frame makes none. -/
theorem frame_act (s : State α) (b : Block α) {a : Action} (ha : a.changesFrame = false) :
    (s.act b a).frame = s.frame := by
  cases a with
  | setSystem | origin _ => cases ha
  | storeHome | storeSecondaryHome | homeAxes => rfl

/-- What a prepared line does keeps the frame or announces the change. -/
theorem frame_step (c : Config α) (s : State α) (b : Block α)
    (h : (s.step c b).changedFrame = false) : (s.step c b).state.frame = s.frame := by
  have hstep := step_stepped c s b
  generalize s.step c b = o at hstep h
  cases hstep with
  | action a notes ha => exact frame_act s b h
  | motion m p ha hm hp =>
      obtain ⟨moves, hmoves, -, -⟩ := hp
      obtain ⟨work, machine, totalTime, axisFeeds, envelope, hstate⟩ := hmoves.state_eq
      simp only [hstate]
      rfl
  | skipped code notes ha hm => rfl
  | nothing notes ha hm => rfl

/-- **The frame is what it was, or the line announces the change.** -/
theorem frame_evaluate (c : Config α) (s : State α) (b : Block α)
    (h : (evaluate c s b).result.changedFrame = false) :
    (evaluate c s b).state.frame = s.frame := by
  simp only [evaluate, Bool.or_eq_false_iff] at h
  obtain ⟨⟨hmodal, hstep⟩, hends⟩ := h
  calc (evaluate c s b).state.frame
    _ = ((s.prepare b).step c b).state.frame := by simp [evaluate, finish, hends]
    _ = (s.prepare b).frame := frame_step c _ b hstep
    _ = s.frame := congrArg Pose.frame (pose_prepare_of_not_changesFrame hmodal s)

/-- **A copy of the frame stays good** as long as no line announces a change. -/
theorem frame_run (c : Config α) (s : State α) {bs : List (Block α)}
    (h : ∀ line ∈ s.record c bs, line.2.changedFrame = false) : (s.run c bs).frame = s.frame := by
  induction bs generalizing s with
  | nil => rfl
  | cons b bs ih =>
      rw [record_cons, List.forall_mem_cons] at h
      rw [run_cons, ih _ h.2, frame_evaluate c s b h.1]

/-! ### Named axes -/

/-- Modal words leave every axis its coordinates. -/
theorem Positioned.prepare {s : State α} (hs : s.Positioned) (b : Block α) :
    (s.prepare b).Positioned := by
  refine prepare_induction
    (P := fun p => p.axes.length ≤ p.work.length ∧ p.axes.length ≤ p.machine.length) ?_ b hs
  rintro s' index ⟨hwork, hmachine⟩
  rw [selectSystem]
  split
  · refine ⟨?_, hmachine⟩
    change s'.axes.length ≤ (Frame.toWork _ s'.machine).length
    rwa [Frame.length_toWork]
  · exact ⟨hwork, hmachine⟩

/-- If every axis has coordinates, the targets of a line name an axis if the line does. -/
theorem Positioned.anyNamed_blockTargets {s : State α} (hs : s.Positioned) {b : Block α} :
    anyNamed (s.blockTargets b) = true ↔ ∃ axis, b.names s.axes axis = true := by
  rw [anyNamed_iff]
  refine exists_congr fun axis => ?_
  rw [isSome_join_blockTargets, Bool.and_eq_true, decide_eq_true_iff, and_iff_left_iff_imp]
  intro hnames
  have haxis : axis < s.axes.length := by
    rw [Block.names, Option.any_eq_true] at hnames
    obtain ⟨letter, hletter, -⟩ := hnames
    exact (List.getElem?_eq_some_iff.1 hletter).1
  split
  · exact haxis.trans_le hs.2
  · exact haxis.trans_le hs.1

/-! ### What a line announces -/

/-- **What the result of a line says about the change that the line makes.** -/
structure Announced (c : Config α) (s : State α) (b : Block α) : Prop where
  frame : (evaluate c s b).result.changedFrame = false → (evaluate c s b).state.frame = s.frame
  /-- Without a motion the machine stands still, unless its position is set by homing. -/
  still : b.homes = false → (evaluate c s b).result.isMotion = false →
    (evaluate c s b).state.machine = s.machine ∧
      (evaluate c s b).state.envelope = s.envelope ∧
      ((evaluate c s b).result.changedFrame = false → (evaluate c s b).state.work = s.work)
  /-- The axis words of an action are no motion. -/
  action : ∀ code ∈ actionCodes, code ∈ b.codes 'G' →
    (evaluate c s b).result.isMotion = false ∧ (evaluate c s b).result.motion = none ∧
      (evaluate c s b).result.events = [] ∧ (evaluate c s b).state.envelope = s.envelope
  isMotion : (evaluate c s b).result.isMotion = true ↔ (evaluate c s b).result.events ≠ []
  /-- A motion is one move, or two. -/
  oneOrTwo : (evaluate c s b).result.isMotion = true →
    (evaluate c s b).result.events.length = 1 ∨ (evaluate c s b).result.events.length = 2
  /-- It is two moves if it is a return through a named point. -/
  two : s.Positioned → ((evaluate c s b).result.events.length = 2 ↔
    (evaluate c s b).result.motion.any Motion.isReturn = true ∧
      ∃ axis, b.names s.axes axis = true)
  counted : (evaluate c s b).state.catalogue.lines = s.catalogue.lines + 1
  /-- The events carry the number of the line. -/
  line : ∀ e ∈ (evaluate c s b).result.events, e.line = (evaluate c s b).state.catalogue.lines

/-- The modal words and the end of a line do not touch the envelope. -/
theorem envelope_evaluate (c : Config α) (s : State α) (b : Block α)
    (h : ((s.prepare b).step c b).state.envelope = (s.prepare b).envelope) :
    (evaluate c s b).state.envelope = s.envelope := by
  obtain ⟨frame, work, hprepare⟩ := prepare_eq s b
  obtain ⟨frame', work', axisFeeds, hfinish⟩ := finish_eq ((s.prepare b).step c b).state b
  calc (evaluate c s b).state.envelope
    _ = ((s.prepare b).step c b).state.envelope := congrArg Pose.envelope hfinish
    _ = (s.prepare b).envelope := h
    _ = s.envelope := congrArg Pose.envelope hprepare

/-- A line that is no motion leaves the machine where it is, unless it homes axes. -/
theorem still_evaluate (c : Config α) (s : State α) (b : Block α) (hhomes : b.homes = false)
    (hevents : (evaluate c s b).result.events = []) :
    (evaluate c s b).state.machine = s.machine ∧
      ((evaluate c s b).result.changedFrame = false → (evaluate c s b).state.work = s.work) := by
  obtain ⟨work, machine, h⟩ := evaluate_traced c s b
  have hpath := h.path
  rw [hevents] at hpath
  obtain ⟨rfl, rfl⟩ := hpath.eq_of_nil
  refine ⟨h.machine_eq.trans (homed_singleton_of_not_homes hhomes _ _), fun hchanged => ?_⟩
  obtain ⟨hprepare, hwork⟩ := h.work_eq_of_quiet ⟨hchanged, hhomes⟩
  exact hwork.trans hprepare

/-- A line with an action is no motion, whatever else stands on it. -/
theorem action_evaluate (c : Config α) (s : State α) {b : Block α} {code : Int}
    (hcode : code ∈ actionCodes) (hmem : code ∈ b.codes 'G') :
    (evaluate c s b).result.isMotion = false ∧ (evaluate c s b).result.motion = none ∧
      (evaluate c s b).result.events = [] ∧ (evaluate c s b).state.envelope = s.envelope := by
  obtain ⟨a, ha⟩ : ∃ a, Action.ofCodes? (b.codes 'G') = some a := by
    refine Option.ne_none_iff_exists'.1 fun hnone => ?_
    exact Action.ofCodes?_eq_none_iff.1 hnone code hcode hmem
  obtain ⟨h, hmotion⟩ := stands_of_action c (s.prepare b) ha
  exact ⟨h.isMotion, hmotion, h.events, envelope_evaluate c s b h.envelope⟩

/-- **A line announces what it changes.** -/
theorem announced (c : Config α) (s : State α) (b : Block α) : Announced c s b := by
  have hprepared : (s.prepare b).catalogue = s.catalogue.add b :=
    congrArg Prod.fst (used_prepare s b)
  have hfinal : (evaluate c s b).state.catalogue = s.catalogue.add b :=
    congrArg Prod.fst (used_evaluate c s b)
  have hcounted : (evaluate c s b).state.catalogue.lines = s.catalogue.lines + 1 := by
    rw [hfinal]
    rfl
  rcases stands_or_moves c (s.prepare b) b with h | h
  · have hisMotion : (evaluate c s b).result.isMotion = false := h.isMotion
    have hmotion : (evaluate c s b).result.motion.any Motion.isReturn = false := h.motion
    have hevents : (evaluate c s b).result.events = [] := h.events
    have henvelope := envelope_evaluate c s b h.envelope
    exact {
      frame := frame_evaluate c s b
      still := fun hhomes _ =>
        have hstill := still_evaluate c s b hhomes hevents
        ⟨hstill.1, henvelope, hstill.2⟩
      action := fun _ => action_evaluate c s
      isMotion := by simp [hisMotion, hevents]
      oneOrTwo := by simp [hisMotion]
      two := by simp [hmotion, hevents]
      counted := hcounted
      line := by simp [hevents] }
  · have hisMotion : (evaluate c s b).result.isMotion = true := h.isMotion
    have hevents : (evaluate c s b).result.events ≠ [] := by
      intro hnil
      have hlength : (evaluate c s b).result.events.length = 1 ∨
          (evaluate c s b).result.events.length = 2 := h.length_eq
      simp [hnil] at hlength
    exact {
      frame := frame_evaluate c s b
      still := fun _ hstill => absurd hisMotion (by simp [hstill])
      action := fun _ => action_evaluate c s
      isMotion := iff_of_true hisMotion hevents
      oneOrTwo := fun _ => h.length_eq
      two := by
        intro hs
        rw [← axes_prepare s b, ← (hs.prepare b).anyNamed_blockTargets]
        exact h.length_eq_two_iff
      counted := hcounted
      line := by
        rw [hfinal, ← hprepared]
        exact h.line }

/-- **Every change is announced.** A line announces what it changes, so that a copy of the frame
stays good along a run as long as no line announces a change of it. In every state that a machine
can reach all axes have coordinates, so that there a return has two events exactly if its line
names an axis. -/
theorem changes_announced (c : Config α) (s : State α) :
    (∀ b : Block α, Announced c s b) ∧
      (∀ bs : List (Block α), (∀ line ∈ s.record c bs, line.2.changedFrame = false) →
        (s.run c bs).frame = s.frame) ∧
      ∀ m : Machine α, m.Reached → m.state.Positioned :=
  ⟨announced c s, fun _ => frame_run c s, fun _ hm => positioned_of_shaped hm.wellFormed.state⟩

/-- A line with two actions, an arc, a return, axis words and a centre. -/
def crowdedLine : Block Float :=
  .ofWords [⟨'G', 2⟩, ⟨'G', 28⟩, ⟨'G', 28.1⟩, ⟨'G', 92⟩, ⟨'X', 5⟩, ⟨'Y', 1⟩, ⟨'I', 2⟩]

/-- A return through a point, under the code that counts its word from the machine origin. -/
def throughPoint : Block Float := .ofWords [⟨'G', 30⟩, ⟨'G', 53⟩, ⟨'Y', -2⟩]

/-- The crowded line is no motion, a return through a point has two events, and neither changes
the frame. -/
theorem changes_announced_crowdedLine :
    ((evaluate .standard (start .standard) crowdedLine).result.isMotion = false ∧
        (evaluate .standard (start .standard) crowdedLine).result.motion = none ∧
        (evaluate .standard (start .standard) crowdedLine).result.events = []) ∧
      (start (.standard : Config Float)).Positioned ∧
      (evaluate .standard (start .standard) throughPoint).result.events.length = 2 ∧
      ((start .standard).run .standard [crowdedLine, throughPoint]).frame =
        (start (.standard : Config Float)).frame := by
  obtain ⟨hline, hrun, hreached⟩ := changes_announced .standard (start (.standard : Config Float))
  have hbuild : Machine.build (.standard : Config Float) = .ok ⟨.standard, start .standard⟩ := by
    decide +kernel
  have hpositioned := hreached _ (.build hbuild)
  obtain ⟨hisMotion, hmotion, hevents, -⟩ :=
    (hline crowdedLine).action 281 (by decide) (by decide +kernel)
  have htwo : (evaluate .standard (start .standard) throughPoint).result.events.length = 2 :=
    ((hline throughPoint).two hpositioned).2 ⟨by decide +kernel, 1, by decide +kernel⟩
  exact ⟨⟨hisMotion, hmotion, hevents⟩, hpositioned, htwo, hrun _ (by decide +kernel)⟩

end State

end DryRun
