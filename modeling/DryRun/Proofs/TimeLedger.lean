import DryRun.Proofs.Number.Real
import DryRun.Proofs.Run

/-!
# The ledger of time

The time of a run grows in two places that know nothing of each other: among the modal words,
where a line waits, and in the moves, each of which is recorded as an event. This module keeps
the **ledger** of a run (`ledger`), which is read off its lines and results alone: for each
line its waits (`Block.dwells`) and then the times of its events.

The time of the run is what adding up the ledger gives, entry by entry in the order of the
program. Nothing is said about the addition: doubles round after each entry, and the statement
holds for them as it stands. Only where a line is looked at by itself, as the difference of two
times of the run, do sums have to be exact.

## Main results

* `State.totalTime_evaluate`: a line adds its waits and the times of its events, in this order.
* `State.time_accounted`: so does a run, and in exact numbers the time of a line is the sum of
  its entries.
-/

namespace DryRun

variable {α : Type} [Scalar α]

/-! ### Entries of the ledger -/

/-- The waits of a line: the first value of its `P` words, if it is positive, once for each
`G4` word. -/
def Block.dwells (b : Block α) : List α :=
  match b.get? 'P' with
  | some seconds => if 0 < seconds then List.replicate ((b.codes 'G').count 40) seconds else []
  | none => []

/-- The entries of a line: its waits, and then the times of its events. -/
def entries (line : Block α × LineResult α) : List α :=
  line.1.dwells ++ line.2.events.map Event.time

/-- The entries of all lines, in the order of the program. -/
def ledger (lines : List (Block α × LineResult α)) : List α := lines.flatMap entries

/-- The waits that one code of a line stands for. -/
def Block.dwellsOf (b : Block α) (code : Int) : List α :=
  if code = 40 then (State.dwellTime? b).toList else []

/-- The waits of a line are those of its codes, one after the other. -/
theorem Block.dwells_eq (b : Block α) : b.dwells = (b.codes 'G').flatMap b.dwellsOf := by
  have hdwells : b.dwells =
      ((State.dwellTime? b).map (List.replicate ((b.codes 'G').count 40))).getD [] := by
    rw [dwells, State.dwellTime?]
    cases b.get? 'P' with
    | none => rfl
    | some seconds => by_cases h : 0 < seconds <;> simp [Option.filter, h]
  rw [hdwells, funext (fun code => dwellsOf.eq_1 b code)]
  cases State.dwellTime? b with
  | none => simp
  | some seconds =>
      change List.replicate ((b.codes 'G').count 40) seconds = _
      induction b.codes 'G' with
      | nil => rfl
      | cons code codes ih =>
          rw [List.flatMap_cons, ← ih]
          by_cases hcode : code = 40
          · rw [if_pos hcode, hcode, List.count_cons_self, List.replicate_succ]
            rfl
          · rw [if_neg hcode, List.count_cons_of_ne hcode]
            rfl

/-! ### Modal words -/

/-- Only the code of a wait is read as one. -/
theorem ModalCommand.ofCode?_eq_dwell {code : Int} :
    ModalCommand.ofCode? code = some .dwell ↔ code = 40 :=
  lookup_eq_some_iff_eq (by decide) rfl

namespace State

/-- Waiting adds the wait. -/
theorem totalTime_dwell (s : State α) (b : Block α) :
    (s.dwell b).totalTime = (dwellTime? b).toList.foldl (· + ·) s.totalTime := by
  rw [dwell]
  cases dwellTime? b <;> rfl

/-- Selecting a work coordinate system takes no time. -/
theorem totalTime_selectSystem (s : State α) (index : Nat) :
    (s.selectSystem index).totalTime = s.totalTime := by
  obtain ⟨frame, work, h⟩ := selectSystem_eq s index
  rw [h]

/-- A `G` code adds its waits. -/
theorem totalTime_applyG (b : Block α) (s : State α) (code : Int) :
    (s.applyG b code).totalTime = (b.dwellsOf code).foldl (· + ·) s.totalTime := by
  rw [Block.dwellsOf, applyG]
  by_cases hcode : code = 40
  · rw [if_pos hcode, ModalCommand.ofCode?_eq_dwell.2 hcode]
    exact totalTime_dwell s b
  · rw [if_neg hcode, List.foldl_nil]
    cases hc : ModalCommand.ofCode? code with
    | none => rfl
    | some command =>
        cases command with
        | dwell => exact absurd (ModalCommand.ofCode?_eq_dwell.1 hc) hcode
        | system index => exact totalTime_selectSystem s index
        | feedMode _ | plane _ | units _ | cancelMotion | distanceMode _ => rfl

/-- The `G` codes of a line add their waits, one after the other. -/
theorem totalTime_foldl_applyG (b : Block α) (codes : List Int) (s : State α) :
    (codes.foldl (applyG b) s).totalTime =
      (codes.flatMap b.dwellsOf).foldl (· + ·) s.totalTime := by
  induction codes generalizing s with
  | nil => rfl
  | cons code codes ih =>
      rw [List.foldl_cons, ih, totalTime_applyG, List.flatMap_cons, List.foldl_append]

/-- The modal words of a line add its waits. -/
theorem totalTime_prepare (s : State α) (b : Block α) :
    (s.prepare b).totalTime = b.dwells.foldl (· + ·) s.totalTime := by
  obtain ⟨settings, catalogue, h⟩ := prepare_same s b
  rw [h, Block.dwells_eq]
  exact totalTime_foldl_applyG b (b.codes 'G') (s.count b)

/-! ### Moves -/

/-- A chain of moves adds the times of its events. -/
theorem Performs.totalTime {c : Config α} {s s' : State α}
    {moves : List (List (Option α) × Event α)} (h : Performs c s moves s') :
    s'.totalTime = ((moves.map Prod.snd).map Event.time).foldl (· + ·) s.totalTime := by
  induction h with
  | done s => rfl
  | move motion feed travel geometry hleg _ ih => exact ih

/-- What a prepared line does adds the times of its events. An action, a skipped motion and a
line that does nothing have neither events nor times. -/
theorem totalTime_step (c : Config α) (s : State α) (b : Block α) :
    (s.step c b).state.totalTime =
      ((s.step c b).events.map Event.time).foldl (· + ·) s.totalTime := by
  have hstep := step_stepped c s b
  generalize s.step c b = o at hstep
  cases hstep with
  | action a notes ha =>
      obtain ⟨work, machine, frame, home, secondaryHome, hact⟩ := act_eq s b a
      rw [idle, hact]
      rfl
  | motion m p ha hm hp =>
      obtain ⟨moves, hmoves, hevents, -⟩ := hp
      rw [hevents]
      exact hmoves.totalTime
  | skipped code notes ha hm => rfl
  | nothing notes ha hm => rfl

/-- The end of a program takes no time. -/
theorem totalTime_finish (s : State α) (b : Block α) : (s.finish b).totalTime = s.totalTime := by
  rw [finish]
  split <;> rfl

/-! ### Lines and runs -/

/-- **A line adds its waits and then the times of its events**, and nothing else. -/
theorem totalTime_evaluate (c : Config α) (s : State α) (b : Block α) :
    (evaluate c s b).state.totalTime =
      (entries (b, (evaluate c s b).result)).foldl (· + ·) s.totalTime := by
  rw [entries, List.foldl_append, ← totalTime_prepare]
  exact (totalTime_finish _ b).trans (totalTime_step c (s.prepare b) b)

/-- **A run adds its ledger**, entry by entry. -/
theorem totalTime_run (c : Config α) (s : State α) (bs : List (Block α)) :
    (s.run c bs).totalTime = (ledger (s.record c bs)).foldl (· + ·) s.totalTime := by
  induction bs generalizing s with
  | nil => rfl
  | cons b bs ih =>
      rw [run_cons, ih, totalTime_evaluate, record_cons, ledger, ledger, List.flatMap_cons,
        List.foldl_append]

/-- **Every second is accounted for.** The time of the run after a line is the time before it
with the waits of the line and then the times of its events added one by one, from the left;
the time of a run is its ledger added up in the same way; and if sums are exact, the time of a
line is the sum of its waits and of the times of its events. -/
theorem time_accounted (c : Config α) :
    (∀ (s : State α) (b : Block α), (evaluate c s b).state.totalTime =
      (b.dwells ++ (evaluate c s b).result.events.map Event.time).foldl (· + ·) s.totalTime) ∧
    (∀ (s : State α) (bs : List (Block α)),
      (s.run c bs).totalTime = (ledger (s.record c bs)).foldl (· + ·) s.totalTime) ∧
    (Scalar.ExactSums α → ∀ (s : State α) (b : Block α), (evaluate c s b).result.time =
      Scalar.sum (b.dwells ++ (evaluate c s b).result.events.map Event.time)) := by
  refine ⟨totalTime_evaluate c, totalTime_run c, ?_⟩
  intro hexact s b
  change (evaluate c s b).state.totalTime - s.totalTime = _
  rw [totalTime_evaluate, Scalar.ExactSums.foldl_add, Scalar.ExactSums.add_sub_cancel]
  rfl

/-- A line that waits twice and returns to the reference position through a point. -/
noncomputable def waitingReturn : Block ℝ :=
  .ofWords [⟨'G', Scalar.ofNat 4⟩, ⟨'X', Scalar.ofNat 1⟩, ⟨'G', Scalar.ofNat 28⟩,
    ⟨'P', Scalar.ofNat 2⟩, ⟨'G', Scalar.ofNat 4⟩, ⟨'P', Scalar.ofNat 7⟩]

/-- The line has four entries: its first wait twice, and its two moves. -/
theorem time_accounted_waitingReturn :
    ∃ via last : Event ℝ,
      (evaluate .standard (start .standard) waitingReturn).result.events = [via, last] ∧
      waitingReturn.dwells = [Scalar.ofNat 2, Scalar.ofNat 2] ∧
      (evaluate .standard (start .standard) waitingReturn).result.time =
        Scalar.sum [Scalar.ofNat 2, Scalar.ofNat 2, via.time, last.time] := by
  have h4 : toCode (Scalar.ofNat 4 : ℝ) = 40 := Exact.toCode_ofNat (by decide)
  have h28 : toCode (Scalar.ofNat 28 : ℝ) = 280 := Exact.toCode_ofNat (by decide)
  have hcodes : waitingReturn.codes 'G' = [40, 280, 40] := by
    simp [waitingReturn, Block.codes, Block.values, Block.ofWords, h4, h28, -Exact.ofNat_eq]
  have hwait : waitingReturn.get? 'P' = some (Scalar.ofNat 2) := by
    simp [waitingReturn, Block.get?, Block.ofWords, -Exact.ofNat_eq]
  have hdwells : waitingReturn.dwells = [Scalar.ofNat 2, Scalar.ofNat 2] := by
    rw [Block.dwells, hwait, hcodes]
    simp
  have hpose : ((start .standard).prepare waitingReturn).pose = (start .standard).pose :=
    pose_prepare_of_not_changesFrame (by rw [modalChangesFrame, hcodes]; rfl) _
  have hnamed :
      anyNamed (((start .standard).prepare waitingReturn).blockTargets waitingReturn) = true := by
    have haxes := congrArg Pose.axes hpose
    have hwork := congrArg Pose.work hpose
    simp only [pose] at haxes hwork
    rw [blockTargets, targets, hcodes, haxes, hwork]
    rfl
  obtain ⟨via, last, hevents⟩ : ∃ via last : Event ℝ,
      (evaluate .standard (start .standard) waitingReturn).result.events = [via, last] := by
    have ha : Action.ofCodes? (waitingReturn.codes 'G') = none := by rw [hcodes]; rfl
    have hmotion :
        ((start .standard).prepare waitingReturn).blockMotion? waitingReturn = some .home := by
      rw [blockMotion?, hcodes]
      rfl
    simp only [evaluate, step_of_no_action _ _ ha, hmotion, moveLine, runMotion?, goHome, hnamed,
      if_true]
    exact ⟨_, _, rfl⟩
  have htime := (time_accounted .standard).2.2 inferInstance (start .standard) waitingReturn
  rw [hdwells, hevents] at htime
  exact ⟨via, last, hevents, hdwells, htime⟩

end State

end DryRun
