import DryRun.Proofs.FrameIndependence
import DryRun.Proofs.TimeLedger

/-!
# Skipped motions

A machine knows motions that it does not carry out, such as splines, threading, probing and
canned cycles. A line that asks for one is skipped: its modal words take effect, the motion is in
force from then on, and the line ends the program if it says so, but nothing moves.

This is found out late. By then the line is counted, its words are catalogued and its modal words
have been carried out, and the end of the program is still to come. `Skipped` says in full what a
skipped line does, first as one equation for the whole state after it, and then part by part: what
could be left half-done is left alone.

The motion stays in force, so that later lines ask for it again without saying so. Only a code of
the modal motion group or the code that cancels the motion changes what is in force
(`motion_evaluate`, `Block.keepsMotion`).

## Main results

* `State.skipped`: a line that asks for an unsupported motion is skipped.
* `State.motion_run`: what is in force stays so as long as no line selects or cancels a motion.
* `State.unsupported_skipped`: so every later line that just names an axis is skipped as well.
-/

namespace DryRun

variable {α : Type}

/-! ### The motion in force -/

/-- Only the code that cancels the motion is read as such. -/
theorem ModalCommand.ofCode?_eq_cancelMotion {code : Int} :
    ModalCommand.ofCode? code = some .cancelMotion ↔ code = 800 :=
  lookup_eq_some_iff_eq (by decide) rfl

variable [Scalar α]

/-- Whether a line leaves the motion in force as it is: it has no code of the modal motion group
and does not cancel the motion. -/
def Block.keepsMotion (b : Block α) : Bool :=
  (selectedMotion? (b.codes 'G')).isNone && b.lacks 'G' [800]

/-- A line that does not select a motion leaves the one in force. -/
theorem motionInForce_of_keepsMotion {b : Block α} (h : b.keepsMotion = true)
    (current : Option Motion) : motionInForce current (b.codes 'G') = current := by
  rw [Block.keepsMotion, Bool.and_eq_true, Option.isNone_iff_eq_none] at h
  rw [motionInForce, h.1, Option.none_or, ite_self]

namespace State

/-- Of all modal codes only one changes the motion in force. -/
theorem motion_applyG (b : Block α) (s : State α) (code : Int) :
    (s.applyG b code).motion = if code = 800 then none else s.motion := by
  rw [applyG]
  by_cases hcode : code = 800
  · rw [if_pos hcode, ModalCommand.ofCode?_eq_cancelMotion.2 hcode]
    rfl
  · rw [if_neg hcode]
    cases hc : ModalCommand.ofCode? code with
    | none => rfl
    | some command =>
        cases command with
        | cancelMotion => exact absurd (ModalCommand.ofCode?_eq_cancelMotion.1 hc) hcode
        | system index =>
            obtain ⟨frame, work, h⟩ := selectSystem_eq s index
            change (s.selectSystem index).motion = s.motion
            rw [h]
        | dwell =>
            change (s.dwell b).motion = s.motion
            rw [dwell]
            split <;> rfl
        | feedMode _ | plane _ | units _ | distanceMode _ => rfl

/-- The modal words of a line cancel the motion or leave it in force. -/
theorem motion_prepare (s : State α) (b : Block α) :
    (s.prepare b).motion = if 800 ∈ b.codes 'G' then none else s.motion := by
  have hfold (codes : List Int) (s : State α) :
      (codes.foldl (applyG b) s).motion = if 800 ∈ codes then none else s.motion := by
    induction codes generalizing s with
    | nil => rfl
    | cons code codes ih =>
        rw [List.foldl_cons, ih, motion_applyG]
        by_cases hcode : code = 800 <;> by_cases hcodes : 800 ∈ codes <;>
          simp [hcode, hcodes, eq_comm]
  obtain ⟨settings, catalogue, h⟩ := prepare_same s b
  rw [h]
  exact hfold (b.codes 'G') (s.count b)

/-- The modal words of a line that does not cancel the motion leave it in force. -/
theorem motion_prepare_of_keepsMotion (s : State α) {b : Block α} (h : b.keepsMotion = true) :
    (s.prepare b).motion = s.motion := by
  rw [Block.keepsMotion, Bool.and_eq_true, Block.lacks_iff] at h
  rw [motion_prepare, if_neg (h.2 800 List.mem_cons_self)]

/-- What a prepared line does selects a motion, if no action takes its place. -/
theorem motion_step (c : Config α) (s : State α) (b : Block α) :
    (s.step c b).state.motion = if (Action.ofCodes? (b.codes 'G')).isSome then s.motion
      else motionInForce s.motion (b.codes 'G') := by
  have hstep := step_stepped c s b
  generalize s.step c b = o at hstep
  cases hstep with
  | action a notes ha =>
      obtain ⟨work, machine, frame, home, secondaryHome, hact⟩ := act_eq s b a
      rw [ha, Option.isSome_some, if_pos rfl, idle, hact]
  | motion m p ha hm hp =>
      obtain ⟨moves, hmoves, -, -⟩ := hp
      obtain ⟨work, machine, totalTime, axisFeeds, envelope, hstate⟩ := hmoves.state_eq
      rw [ha, Option.isSome_none, if_neg Bool.false_ne_true]
      simp only [hstate]
      rfl
  | skipped code notes ha hm => rw [ha, Option.isSome_none, if_neg Bool.false_ne_true]; rfl
  | nothing notes ha hm => rw [ha, Option.isSome_none, if_neg Bool.false_ne_true]; rfl

/-- The end of a program leaves the motion in force. -/
theorem motion_finish (s : State α) (b : Block α) : (s.finish b).motion = s.motion := by
  rw [finish]
  split <;> rfl

/-- A line that neither selects nor cancels a motion leaves the one in force. -/
theorem motion_evaluate (c : Config α) (s : State α) {b : Block α} (h : b.keepsMotion = true) :
    (evaluate c s b).state.motion = s.motion :=
  calc (evaluate c s b).state.motion = ((s.prepare b).step c b).state.motion := motion_finish _ b
    _ = s.motion := by
      rw [motion_step, motionInForce_of_keepsMotion h, ite_self, motion_prepare_of_keepsMotion s h]

/-- **What is in force stays in force** as long as no line selects or cancels a motion. -/
theorem motion_run (c : Config α) (s : State α) {bs : List (Block α)}
    (h : ∀ b ∈ bs, b.keepsMotion = true) : (s.run c bs).motion = s.motion := by
  induction bs generalizing s with
  | nil => rfl
  | cons b bs ih =>
      obtain ⟨hb, hbs⟩ := List.forall_mem_cons.1 h
      rw [run_cons, ih _ hbs, motion_evaluate c s hb]

/-! ### Skipped lines -/

/-- The motion that a line asks for, if no action takes its place. -/
def askedMotion? (s : State α) (b : Block α) : Option Motion :=
  if (Action.ofCodes? (b.codes 'G')).isSome then none else (s.prepare b).blockMotion? b

/-- The state with a motion in force. -/
def inForce (s : State α) (m : Motion) : State α := { s with motion := some m }

/-- **What a skipped line does**, with the code of the motion that it is skipped for: it reports
the motion and no event, and after it the state is the one that its modal words lead to, with the
motion in force and the program ended if the line ends it. -/
structure Skipped (c : Config α) (s : State α) (b : Block α) (code : Int) : Prop where
  isMotion : (evaluate c s b).result.isMotion = false
  motion : (evaluate c s b).result.motion = some (.unsupported code)
  events : (evaluate c s b).result.events = []
  state : (evaluate c s b).state = ((s.prepare b).inForce (.unsupported code)).finish b
  machine : (evaluate c s b).state.machine = s.machine
  envelope : (evaluate c s b).state.envelope = s.envelope
  home : (evaluate c s b).state.home = s.home
  secondaryHome : (evaluate c s b).state.secondaryHome = s.secondaryHome
  axisFeeds : endsProgram (b.codes 'M') = false →
    (evaluate c s b).state.axisFeeds = s.axisFeeds
  /-- The machine stands still, and only a new frame makes its work position another one. -/
  work : (evaluate c s b).state.work = s.work ∨
    (modalChangesFrame b = true ∨ endsProgram (b.codes 'M') = true) ∧
      (evaluate c s b).state.work = (evaluate c s b).state.frame.toWork s.machine
  totalTime : (evaluate c s b).state.totalTime = b.dwells.foldl (· + ·) s.totalTime

/-- Modal words keep the work position, or they derive it in the frame that they select. -/
theorem work_prepare (s : State α) (b : Block α) :
    (s.prepare b).work = s.work ∨ modalChangesFrame b = true ∧
      (s.prepare b).work = (s.prepare b).frame.toWork s.machine := by
  cases hmodal : modalChangesFrame b with
  | false => exact .inl (congrArg Pose.work (pose_prepare_of_not_changesFrame hmodal s))
  | true =>
      have hderived := prepare_induction
        (P := fun p => p.machine = s.machine ∧
          (p.work = s.work ∨ p.work = p.frame.toWork p.machine)) ?_ b ⟨rfl, .inl rfl⟩
      · obtain ⟨hmachine, hwork | hwork⟩ := hderived
        · exact .inl hwork
        · exact .inr ⟨rfl, hwork.trans (congrArg _ hmachine)⟩
      · rintro s' index ⟨hmachine, hwork⟩
        rw [selectSystem]
        split
        · exact ⟨hmachine, .inr rfl⟩
        · exact ⟨hmachine, hwork⟩

/-- A motion that a prepared line asks for and that is no return to a reference position is in
force from then on, and the line asks for no return. -/
theorem selectMotion_of_blockMotion? {s : State α} {b : Block α} {m : Motion}
    (h : s.blockMotion? b = some m) (hm : m.isReturn = false) :
    returnMotion? (b.codes 'G') = none ∧ s.selectMotion (b.codes 'G') = s.inForce m := by
  rw [blockMotion?, lineMotion?, Option.or_eq_some_iff] at h
  rcases h with hreturn | ⟨hreturn, hfilter⟩
  · unfold returnMotion? at hreturn
    repeat' split at hreturn
    all_goals cases hreturn <;> cases hm
  · exact ⟨hreturn, congrArg (fun motion => { s with motion })
      (Option.eq_some_of_filter_eq_some hfilter)⟩

/-- An unsupported motion that a prepared line asks for is in force, and it is not carried out. -/
theorem step_of_unsupported (c : Config α) {s : State α} {b : Block α} {code : Int}
    (ha : Action.ofCodes? (b.codes 'G') = none) (hm : s.blockMotion? b = some (.unsupported code)) :
    ∃ notes, s.step c b =
      ⟨s.inForce (.unsupported code), some (.unsupported code), false, false, [], notes⟩ := by
  rw [step_of_no_action c s ha, hm, (selectMotion_of_blockMotion? hm rfl).2]
  exact ⟨_, rfl⟩

/-- A line that asks for a motion has no action, and its motion is that of the prepared line. -/
theorem askedMotion?_eq_some_iff {s : State α} {b : Block α} {m : Motion} :
    s.askedMotion? b = some m ↔
      Action.ofCodes? (b.codes 'G') = none ∧ (s.prepare b).blockMotion? b = some m := by
  rw [askedMotion?]
  cases Action.ofCodes? (b.codes 'G') <;> simp

/-- **A line that asks for an unsupported motion is skipped.** -/
theorem skipped (c : Config α) {s : State α} {b : Block α} {code : Int}
    (h : s.askedMotion? b = some (.unsupported code)) : Skipped c s b code := by
  obtain ⟨ha, hm⟩ := askedMotion?_eq_some_iff.1 h
  obtain ⟨notes, hstep⟩ := step_of_unsupported c ha hm
  have hstate : (evaluate c s b).state = ((s.prepare b).inForce (.unsupported code)).finish b := by
    simp only [evaluate, hstep]
  obtain ⟨frame, work, hprepare⟩ := prepare_eq s b
  obtain ⟨frame', work', axisFeeds, hfinish⟩ :=
    finish_eq ((s.prepare b).inForce (.unsupported code)) b
  have hpose : (evaluate c s b).state.pose =
      { s.pose with frame := frame', work := work', axisFeeds } := by
    rw [hstate, hfinish]
    exact congrArg (fun p : Pose α => { p with frame := frame', work := work', axisFeeds }) hprepare
  -- Without the end of a program the line is over when its modal words have taken effect.
  have hgoesOn (hends : endsProgram (b.codes 'M') = false) :
      (evaluate c s b).state = (s.prepare b).inForce (.unsupported code) := by
    rw [hstate, finish, hends]
    rfl
  refine ⟨by simp only [evaluate, hstep], by simp only [evaluate, hstep],
    by simp only [evaluate, hstep], hstate, congrArg Pose.machine hpose,
    congrArg Pose.envelope hpose, congrArg Pose.home hpose, congrArg Pose.secondaryHome hpose,
    ?_, ?_, ?_⟩
  · intro hends
    rw [hgoesOn hends]
    exact congrArg Pose.axisFeeds hprepare
  · cases hends : endsProgram (b.codes 'M') with
    | true =>
        refine .inr ⟨.inr rfl, ?_⟩
        have hmachine : (s.prepare b).machine = s.machine := congrArg Pose.machine hprepare
        rw [hstate, finish, hends, ← hmachine]
        rfl
    | false =>
        rw [hgoesOn hends]
        rcases work_prepare s b with hwork | ⟨hmodal, hwork⟩
        · exact .inl hwork
        · exact .inr ⟨.inl hmodal, hwork⟩
  · rw [hstate, totalTime_finish, ← totalTime_prepare]
    rfl

/-! ### Later lines -/

/-- The labels of the axes stay as they are. -/
theorem axes_invariant (c : Config α) (axes : List Char) :
    Pose.Invariant c fun p => p.axes = axes where
  selectSystem s index hs := by
    obtain ⟨frame, work, h⟩ := selectSystem_eq s index
    rw [h]
    exact hs
  act s b a hs := by
    obtain ⟨work, machine, frame, home, secondaryHome, h⟩ := act_eq s b a
    rw [h]
    exact hs
  move _ _ _ _ _ hs := hs
  endProgram _ hs := hs

end State

/-- Whether a line just names an axis: it neither selects nor cancels a motion, and asks neither
for a return to a reference position nor for an action. -/
structure Block.JustNames (b : Block α) (axes : List Char) : Prop where
  keepsMotion : b.keepsMotion = true
  noCommand : b.lacks 'G' (returnCodes ++ actionCodes) = true
  named : ∃ axis, b.names axes axis = true

/-- Axis words name an axis if the line names one. -/
theorem anyNamed_axisWords_iff {axes : List Char} {b : Block α} :
    anyNamed (axisWords axes b) = true ↔ ∃ axis, b.names axes axis = true := by
  simp only [anyNamed_iff, isSome_join_axisWords]

namespace State

/-- A line that just names an axis asks for the motion in force. -/
theorem askedMotion?_of_justNames {s : State α} {b : Block α} (hb : b.JustNames s.axes) :
    s.askedMotion? b = s.motion := by
  obtain ⟨hreturns, hactions⟩ := Block.lacks_append.1 hb.noCommand
  have haction : Action.ofCodes? (b.codes 'G') = none :=
    Action.ofCodes?_eq_none_iff.2 (Block.lacks_iff.1 hactions)
  have hnamed : anyNamed (axisWords (s.prepare b).axes b) = true := by
    rw [axes_prepare]
    exact anyNamed_axisWords_iff.2 hb.named
  rw [askedMotion?, haction, Option.isSome_none, if_neg Bool.false_ne_true, blockMotion?,
    lineMotion?, Block.returnMotion?_of_lacks hreturns, Option.none_or, selectMotion,
    motionInForce_of_keepsMotion hb.keepsMotion, motion_prepare_of_keepsMotion s hb.keepsMotion,
    hnamed]
  cases s.motion <;> rfl

/-- **An unsupported motion is skipped, and so is what follows it.** A line that asks for an
unsupported motion is skipped: nothing moves, no event is reported, and the state after it is the
one that its modal words lead to. After it, and after any further lines that neither select nor
cancel a motion, every line that just names an axis is skipped for the same motion. -/
theorem unsupported_skipped (c : Config α) {s : State α} {b : Block α} {code : Int}
    (h : s.askedMotion? b = some (.unsupported code)) :
    Skipped c s b code ∧
      ∀ (between : List (Block α)) (next : Block α), (∀ b' ∈ between, b'.keepsMotion = true) →
        next.JustNames s.axes →
        Skipped c ((evaluate c s b).state.run c between) next code := by
  have hskipped := skipped c h
  refine ⟨hskipped, fun between next hbetween hnext => ?_⟩
  have hmotion : ((evaluate c s b).state.run c between).motion = some (.unsupported code) := by
    rw [motion_run c _ hbetween, hskipped.state, motion_finish]
    rfl
  have haxes : ((evaluate c s b).state.run c between).axes = s.axes :=
    (axes_invariant c s.axes).run between ((axes_invariant c s.axes).evaluate b rfl)
  rw [← haxes] at hnext
  exact skipped c ((askedMotion?_of_justNames hnext).trans hmotion)

/-- A probing move that also selects a work coordinate system and waits. -/
def probe : Block Float :=
  .ofWords [⟨'G', 38.2⟩, ⟨'X', 1⟩, ⟨'G', 55⟩, ⟨'G', 4⟩, ⟨'P', 2⟩]

/-- A return through a point, an empty line and the end of the program. -/
def afterProbe : List (Block Float) :=
  [.ofWords [⟨'G', 28⟩, ⟨'Z', 5⟩], .ofWords [], .ofWords [⟨'M', 30⟩]]

/-- A line that is an axis word and nothing else. -/
def bareAxisWord : Block Float := .ofWords [⟨'Y', 3⟩]

/-- Probing is still in force after a line that moves and one that ends the program. -/
theorem unsupported_skipped_probe :
    (start .standard).askedMotion? probe = some (.unsupported 382) ∧
      (evaluate .standard (start .standard) probe).state.totalTime = 2 ∧
      (evaluate .standard (start .standard) probe).state.frame.active = 1 ∧
      Skipped .standard (start .standard) probe 382 ∧
      Skipped .standard
        ((evaluate .standard (start .standard) probe).state.run .standard afterProbe)
        bareAxisWord 382 := by
  have hasked : (start .standard).askedMotion? probe = some (.unsupported 382) := by
    decide +kernel
  obtain ⟨hprobe, hlater⟩ := unsupported_skipped .standard hasked
  have hbetween : ∀ b ∈ afterProbe, b.keepsMotion = true := by decide +kernel
  have hnext : bareAxisWord.JustNames (start (.standard : Config Float)).axes :=
    ⟨by decide +kernel, by decide +kernel, 1, by decide +kernel⟩
  exact ⟨hasked, by decide +kernel, by decide +kernel, hprobe,
    hlater afterProbe bareAxisWord hbetween hnext⟩

end State

end DryRun
