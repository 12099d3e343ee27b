import DryRun.Proofs.FrameConsistency
import DryRun.Proofs.Envelope
import DryRun.Proofs.MoveOrders

/-!
# Returns to a reference position

A machine remembers two reference positions, and returns to them on command. They are stored in
machine coordinates, and the frame may be changed as often as one likes between the store and the
return. The return itself is a move like any other, however: its target is converted into the work
frame, the move is made in work coordinates, and the machine position is derived from where it
ends. With exact sums the two conversions cancel, provided that both are made in one frame, and
nothing comes between them: neither the move through a named point, which a return may make first,
nor the end of the program on the same line.

## Main results

* `State.machine_evaluate_of_return`: after a return the machine is at its reference position.
* `State.reference?_evaluate`: a line changes a reference position only if it stores one, and then
  it is where the machine is.
* `State.reference_return`: so a return leads back to where the machine was at the last store.
-/

namespace DryRun

variable {α : Type} [Scalar α]

namespace State

/-! ### Returns -/

omit [Scalar α] in
/-- A move to all coordinates of a position ends there. -/
theorem destination_map_some (s : State α) {position : List α}
    (h : position.length ≤ s.work.length) : s.destination (position.map some) = position := by
  refine List.ext_getElem ?_ fun axis _ _ => ?_
  · simpa [destination] using h
  · simp [destination]

section ExactSums

variable [Scalar.ExactSums α]

/-- The move to a reference position ends there, in any frame. -/
theorem machine_goToReference (c : Config α) {s : State α} (motion : Motion) {reference : List α}
    (h : reference.length ≤ s.work.length) :
    (s.goToReference c motion reference).1.machine = reference := by
  change s.frame.toMachine (s.destination ((s.frame.toWork reference).map some)) = reference
  rw [destination_map_some s (by rwa [Frame.length_toWork]), Frame.toMachine_toWork]

/-- A return ends at the reference position, through a named point or not. -/
theorem machine_goHome (c : Config α) {s : State α} (motion : Motion) {targets : List (Option α)}
    {reference : List α} (htargets : reference.length ≤ targets.length)
    (hwork : reference.length ≤ s.work.length) :
    (s.goHome c motion targets reference).state.machine = reference := by
  rw [goHome]
  split
  · refine machine_goToReference c motion ?_
    change reference.length ≤ (s.destination targets).length
    rw [destination, List.length_zipWith]
    exact Nat.le_min.2 ⟨htargets, hwork⟩
  · exact machine_goToReference c motion hwork

end ExactSums

/-- A motion with a reference position is carried out as a return to it. -/
theorem runMotion?_of_reference? (c : Config α) {s : State α} (b : Block α) {motion : Motion}
    (targets : List (Option α)) {reference : List α}
    (h : s.reference? motion = some reference) :
    s.runMotion? c b motion targets = some (s.goHome c motion targets reference) := by
  cases motion with
  | home | secondaryHome =>
      obtain rfl := Option.some.inj h
      rfl
  | rapid | linear | arcClockwise | arcCounterclockwise | unsupported _ => cases h

/-- Modal words keep the reference positions. -/
theorem reference?_prepare (s : State α) (b : Block α) (motion : Motion) :
    (s.prepare b).reference? motion = s.reference? motion := by
  obtain ⟨frame, work, h⟩ := prepare_eq s b
  cases motion with
  | home => exact congrArg (fun p => some p.home) h
  | secondaryHome => exact congrArg (fun p => some p.secondaryHome) h
  | rapid | linear | arcClockwise | arcCounterclockwise | unsupported _ => rfl

/-- **After a return the machine is at the reference position**, whatever else is on the line. -/
theorem machine_evaluate_of_return [Scalar.ExactSums α] {c : Config α} {s : State α}
    (hs : s.pose.Shaped c) {b : Block α} {motion : Motion} {reference : List α}
    (hmotion : s.askedMotion? b = some motion) (href : s.reference? motion = some reference) :
    (evaluate c s b).state.machine = reference := by
  have hprepared := hs.prepare b
  have hlength : reference.length = c.axisCount := length_reference? hs href
  have hrun := runMotion?_of_reference? c (s := (s.prepare b).selectMotion (b.codes 'G')) b
    ((s.prepare b).blockTargets b) ((reference?_prepare s b motion).trans href)
  rw [(evaluate_of_asked hmotion hrun).1, machine_finish]
  refine machine_goHome c motion ?_ ?_
  · exact (hlength.trans (hprepared.length_leg (.words _ b)).symm).le
  · exact (hlength.trans hprepared.work.symm).le

end State

/-! ### Stores -/

/-- The motion whose reference position a line with these `G` codes stores. Offsets are set first,
and only one position is stored. -/
def storedMotion? (codes : List Int) : Option Motion :=
  if codes.contains 100 then none
  else if codes.contains 281 then some .home
  else if codes.contains 301 then some .secondaryHome
  else none

/-- Whether a line stores the position of the machine as the reference position of a motion. -/
def Block.stores (b : Block α) (motion : Motion) : Bool :=
  decide (storedMotion? (b.codes 'G') = some motion)

/-- The motion whose reference position an action stores. -/
def Action.storedMotion? : Action → Option Motion
  | .storeHome => some .home
  | .storeSecondaryHome => some .secondaryHome
  | .setSystem | .homeAxes | .origin _ => none

/-- A line stores what its action does. -/
theorem storedMotion?_eq (codes : List Int) :
    storedMotion? codes = (Action.ofCodes? codes).bind Action.storedMotion? := by
  rw [storedMotion?, Action.ofCodes?]
  split
  · rfl
  split
  · rfl
  split
  · rfl
  split
  · rfl
  · cases codes.findSome? OriginCommand.ofCode? with
    | none => rfl
    | some command => rfl

/-- A line with an action stores what the action does. -/
theorem Block.stores_of_action {b : Block α} {a : Action}
    (ha : Action.ofCodes? (b.codes 'G') = some a) (motion : Motion) :
    b.stores motion = decide (a.storedMotion? = some motion) := by
  rw [stores, storedMotion?_eq, ha, Option.bind_some]

/-- A line without an action stores nothing. -/
theorem Block.stores_of_no_action {b : Block α} (ha : Action.ofCodes? (b.codes 'G') = none)
    (motion : Motion) : b.stores motion = false := by
  rw [stores, storedMotion?_eq, ha, Option.bind_none]
  rfl

namespace State

/-- An action leaves a reference position as it is, or stores where the machine is. -/
theorem reference?_act (s : State α) {b : Block α} {a : Action}
    (ha : Action.ofCodes? (b.codes 'G') = some a) (motion : Motion) :
    (s.act b a).reference? motion =
      if b.stores motion then some s.machine else s.reference? motion := by
  rw [Block.stores_of_action ha]
  cases a with
  | setSystem =>
      obtain ⟨frame, work, h⟩ := setSystem_eq s b
      rw [act, h]
      cases motion <;> rfl
  | origin command =>
      obtain ⟨frame, work, h⟩ := applyOrigin_eq s (axisWords s.axes b) command
      rw [act, h]
      cases motion <;> rfl
  | storeHome | storeSecondaryHome | homeAxes => cases motion <;> rfl

/-- What a prepared line does leaves a reference position as it is, or stores where the machine
is. -/
theorem reference?_step (c : Config α) (s : State α) (b : Block α) (motion : Motion) :
    (s.step c b).state.reference? motion =
      if b.stores motion then some s.machine else s.reference? motion := by
  have hstep := step_stepped c s b
  generalize s.step c b = o at hstep
  cases hstep with
  | action a notes ha => exact reference?_act s ha motion
  | motion m p ha hm hp =>
      obtain ⟨moves, hmoves, -, -⟩ := hp
      obtain ⟨work, machine, totalTime, axisFeeds, envelope, hstate⟩ := hmoves.state_eq
      rw [Block.stores_of_no_action ha, hstate]
      cases motion <;> rfl
  | skipped code notes ha hm =>
      rw [Block.stores_of_no_action ha]
      cases motion <;> rfl
  | nothing notes ha hm =>
      rw [Block.stores_of_no_action ha]
      cases motion <;> rfl

/-- **A line changes a reference position only if it stores one**, and then it is where the machine
is. -/
theorem reference?_evaluate (c : Config α) (s : State α) (b : Block α) (motion : Motion) :
    (evaluate c s b).state.reference? motion =
      if b.stores motion then some s.machine else s.reference? motion := by
  have hfinish (s : State α) : (s.finish b).reference? motion = s.reference? motion := by
    rw [finish]
    split <;> cases motion <;> rfl
  calc (evaluate c s b).state.reference? motion
    _ = ((s.prepare b).step c b).state.reference? motion := hfinish _
    _ = if b.stores motion then some (s.prepare b).machine
        else (s.prepare b).reference? motion := reference?_step c _ b motion
    _ = _ := by rw [machine_prepare, reference?_prepare]

/-- **A reference position lasts** as long as no line stores another one. -/
theorem reference?_run (c : Config α) (s : State α) {motion : Motion} {bs : List (Block α)}
    (h : ∀ b ∈ bs, b.stores motion = false) :
    (s.run c bs).reference? motion = s.reference? motion := by
  induction bs generalizing s with
  | nil => rfl
  | cons b bs ih =>
      obtain ⟨hb, hbs⟩ := List.forall_mem_cons.1 h
      rw [run_cons, ih _ hbs, reference?_evaluate, hb, if_neg Bool.false_ne_true]

/-! ### Runs -/

/-- **What a machine does with its reference positions** from a state on. -/
structure Referenced (c : Config α) (s : State α) : Prop where
  /-- A line with the code of a return performs it, unless it has an action. -/
  performs : ∀ (b : Block α) (motion : Motion), Action.ofCodes? (b.codes 'G') = none →
    returnMotion? (b.codes 'G') = some motion → (evaluate c s b).result.motion = some motion
  /-- A line that performs a return leaves the machine at its reference position. -/
  returns : Scalar.ExactSums α → ∀ (b : Block α) (motion : Motion) (reference : List α),
    (evaluate c s b).result.motion = some motion → s.reference? motion = some reference →
    (evaluate c s b).state.machine = reference ∧
      (evaluate c s b).state.reference? motion = some reference
  /-- Only a store changes a reference position: it becomes the position of the machine. -/
  stores : ∀ (b : Block α) (motion : Motion), (evaluate c s b).state.reference? motion =
    if b.stores motion then some s.machine else s.reference? motion
  /-- A return leads back to where the machine was at the last store. -/
  leadsBack : Scalar.ExactSums α → ∀ (store : Block α) (later : List (Block α)) (b : Block α)
    (motion : Motion), store.stores motion = true → (∀ b' ∈ later, b'.stores motion = false) →
    (evaluate c (s.run c (store :: later)) b).result.motion = some motion →
    (evaluate c (s.run c (store :: later)) b).state.machine = s.machine

/-- A state of the right shape is referenced. -/
theorem referenced {c : Config α} {s : State α} (hs : s.pose.Shaped c) : Referenced c s where
  performs b motion ha hreturn := by
    rw [motion_result, askedMotion?_eq_some_iff, blockMotion?, lineMotion?, hreturn]
    exact ⟨ha, rfl⟩
  returns _ b motion reference hmotion href := by
    rw [motion_result] at hmotion
    refine ⟨machine_evaluate_of_return hs hmotion href, ?_⟩
    rw [reference?_evaluate, Block.stores_of_no_action (askedMotion?_eq_some_iff.1 hmotion).1,
      if_neg Bool.false_ne_true, href]
  stores := reference?_evaluate c s
  leadsBack _ store later b motion hstore hlater hmotion := by
    rw [motion_result] at hmotion
    refine machine_evaluate_of_return ((Pose.shaped_invariant c).run _ hs) hmotion ?_
    rw [run_cons, reference?_run c _ hlater, reference?_evaluate, if_pos hstore]

/-- **Returns reach the stored machine position.** In every run from an accepted configuration, a
line that performs a return leaves the machine at the reference position, on every axis and whatever
the frame, the mode and the rest of the line are. The reference positions change only on lines that
store one, so that a return leads back to where the machine was at the last store. -/
theorem reference_return {c : Config α} (hc : c.validate = .ok ()) :
    ∃ s₀, start? c = .ok s₀ ∧ ∀ bs : List (Block α), Referenced c (s₀.run c bs) := by
  refine ⟨start c, start?_of_validate hc, fun bs => ?_⟩
  exact referenced ((Pose.shaped_invariant c).run bs (Pose.shaped_start hc))

/-- A line that stores the first reference position. -/
noncomputable def storeLine : Block ℝ := .ofWords [⟨'G', Scalar.ofDecimal ⟨false, 281, -1⟩⟩]

/-- A feed move, a new origin, and the selection of another work coordinate system. -/
noncomputable def wander : List (Block ℝ) :=
  [.ofWords [⟨'G', Scalar.ofNat 1⟩, ⟨'X', Scalar.ofNat 9⟩, ⟨'F', Scalar.ofNat 100⟩],
    .ofWords [⟨'G', Scalar.ofNat 92⟩, ⟨'Y', Scalar.ofNat 1⟩], .ofWords [⟨'G', Scalar.ofNat 54⟩]]

/-- A return through a point in machine coordinates, at the end of the program. -/
noncomputable def returnLine : Block ℝ :=
  .ofWords [⟨'G', Scalar.ofNat 28⟩, ⟨'G', Scalar.ofNat 53⟩, ⟨'Z', Scalar.ofNat 8⟩,
    ⟨'M', Scalar.ofNat 30⟩]

/-- The machine comes back, although neither the frame nor the mode is what it was. -/
theorem reference_return_wander :
    elsewhere.validate = .ok () ∧ ∃ s₀, start? elsewhere = .ok s₀ ∧
      storeLine.stores .home = true ∧ (∀ b ∈ wander, b.stores .home = false) ∧
      (evaluate elsewhere (s₀.run elsewhere (storeLine :: wander)) returnLine).result.motion =
        some .home ∧
      (evaluate elsewhere (s₀.run elsewhere (storeLine :: wander)) returnLine).state.machine =
        [Scalar.ofNat 3, Scalar.ofNat 4, Scalar.ofNat 5] := by
  have hstoreCodes : storeLine.codes 'G' = [281] :=
    congrArg (fun code : Int => [code]) (Exact.toCode_tenths (by decide))
  have hreturnCodes : returnLine.codes 'G' = [280, 530] := by
    simp [returnLine, Block.codes, Block.values, Block.ofWords,
      Exact.toCode_ofNat (show 28 ≤ 1000 by decide), Exact.toCode_ofNat (show 53 ≤ 1000 by decide),
      -Exact.ofNat_eq]
  have hwander : ∀ b ∈ wander, b.stores .home = false := by
    simp [wander, Block.stores, Block.codes, Block.values, Block.ofWords, storedMotion?,
      Exact.toCode_ofNat (show 1 ≤ 1000 by decide), Exact.toCode_ofNat (show 92 ≤ 1000 by decide),
      Exact.toCode_ofNat (show 54 ≤ 1000 by decide), -Exact.ofNat_eq]
  obtain ⟨s₀, hstart, hrun⟩ := reference_return validate_elsewhere
  obtain rfl : start elsewhere = s₀ :=
    Except.ok.inj ((start?_of_validate validate_elsewhere).symm.trans hstart)
  have hstore : storeLine.stores .home = true := by
    rw [Block.stores, hstoreCodes]
    rfl
  have hmotion := (hrun (storeLine :: wander)).performs returnLine .home
    (by rw [hreturnCodes]; rfl) (by rw [hreturnCodes]; rfl)
  exact ⟨validate_elsewhere, _, hstart, hstore, hwander, hmotion,
    (hrun []).leadsBack inferInstance storeLine wander returnLine .home hstore hwander hmotion⟩

end State

end DryRun
