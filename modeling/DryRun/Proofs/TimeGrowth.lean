import DryRun.Proofs.Admissible
import DryRun.Proofs.TimeLedger

/-!
# Time does not run backwards

The times of moves are computed from coordinates, and those may be infinite or no numbers at
all: a start state may give such positions, a block may hold such words, and differences,
products and quotients of infinite values are no numbers. None of this reaches the time of a
run. A move adds the larger of the time that was computed for it and of the shortest time of a
move, which passes over a time that is no number, and a wait is added only if it is positive.

So every entry of the ledger of time is at least zero, and the entry of a move is at least the
shortest time of a move. What the time of the run needs of addition is the law
`Scalar.GrowingSums`, which doubles satisfy.

## Main results

* `State.minMoveTime_le_of_mem_events`: every event takes at least the shortest time of a move.
* `State.time_never_decreases`: the time of a run is always a number, and no line makes it
  smaller.
-/

namespace DryRun

open Scalar (isNaN GrowingSums OrderedNumbers)

variable {α : Type} [Scalar α]

/-! ### Entries of the ledger are not negative -/

/-- The shortest time of a move is not negative in an accepted configuration. -/
theorem Config.minMoveTime_nonneg [GrowingSums α] {c : Config α} (hc : c.validate = .ok ()) :
    0 ≤ c.minMoveTime :=
  (Config.fault?_eq_none.mp (Config.validate_eq_ok.mp hc)).minMoveTime.2

/-- Only positive waits are waited for. -/
theorem Block.pos_of_mem_dwells {b : Block α} {seconds : α} (h : seconds ∈ b.dwells) :
    0 < seconds := by
  unfold dwells at h
  split at h
  · split at h
    · next hpos => rwa [List.eq_of_mem_replicate h]
    · cases h
  · cases h

namespace State

/-- A move takes at least the shortest time of a move, whatever was computed for it. -/
theorem minMoveTime_le_moveTime [GrowingSums α] {c : Config α} (hc : c.validate = .ok ())
    (s : State α) (targets : List (Option α)) (feed travel : Option α) :
    c.minMoveTime ≤ s.moveTime c targets feed travel :=
  OrderedNumbers.le_max_right _ (GrowingSums.isNaN_of_le (Config.minMoveTime_nonneg hc)).2

/-- Each move of a chain takes at least the shortest time of a move. -/
theorem Performs.minMoveTime_le [GrowingSums α] {c : Config α} (hc : c.validate = .ok ())
    {s s' : State α} {moves : List (List (Option α) × Event α)} (h : Performs c s moves s') :
    ∀ e ∈ moves.map Prod.snd, c.minMoveTime ≤ e.time := by
  induction h with
  | done s => exact fun e he => absurd he List.not_mem_nil
  | @move s s' targets moves motion feed travel geometry hleg _ ih =>
      intro e he
      rcases List.mem_cons.mp he with rfl | he
      · exact minMoveTime_le_moveTime hc s targets feed travel
      · exact ih e he

/-- **Every event takes at least the shortest time of a move.** -/
theorem minMoveTime_le_of_mem_events [GrowingSums α] {c : Config α} (hc : c.validate = .ok ())
    (s : State α) (b : Block α) :
    ∀ e ∈ (evaluate c s b).result.events, c.minMoveTime ≤ e.time := by
  change ∀ e ∈ ((s.prepare b).step c b).events, c.minMoveTime ≤ e.time
  have hstep := step_stepped c (s.prepare b) b
  generalize (s.prepare b).step c b = o at hstep
  cases hstep with
  | motion m p ha hm hp =>
      obtain ⟨moves, hmoves, hevents, -⟩ := hp
      intro e he
      exact hmoves.minMoveTime_le hc e (hevents ▸ he)
  | action a notes ha => exact fun e he => absurd he List.not_mem_nil
  | skipped code notes ha hm => exact fun e he => absurd he List.not_mem_nil
  | nothing notes ha hm => exact fun e he => absurd he List.not_mem_nil

/-- No entry of a line is negative. -/
theorem entries_nonneg [GrowingSums α] {c : Config α} (hc : c.validate = .ok ())
    (s : State α) (b : Block α) : ∀ x ∈ entries (b, (evaluate c s b).result), 0 ≤ x := by
  intro x hx
  rcases List.mem_append.mp hx with hx | hx
  · exact GrowingSums.le_of_lt (Block.pos_of_mem_dwells hx)
  · obtain ⟨e, he, rfl⟩ := List.mem_map.mp hx
    exact GrowingSums.le_trans (Config.minMoveTime_nonneg hc)
      (minMoveTime_le_of_mem_events hc s b e he)

/-! ### Lines and runs -/

/-- A line does not make the time smaller. -/
theorem totalTime_le_evaluate [GrowingSums α] {c : Config α} (hc : c.validate = .ok ())
    {s : State α} (b : Block α) (hs : 0 ≤ s.totalTime) :
    s.totalTime ≤ (evaluate c s b).state.totalTime := by
  rw [totalTime_evaluate]
  exact GrowingSums.le_foldl_add (entries_nonneg hc s b) hs

/-- The time of a run stays at least zero. -/
theorem totalTime_nonneg_run [GrowingSums α] {c : Config α} (hc : c.validate = .ok ())
    {s : State α} (bs : List (Block α)) (hs : 0 ≤ s.totalTime) : 0 ≤ (s.run c bs).totalTime := by
  induction bs generalizing s with
  | nil => exact hs
  | cons b bs ih => exact ih (GrowingSums.le_trans hs (totalTime_le_evaluate hc b hs))

/-- **Time does not run backwards.** For an accepted configuration, whatever its start state
holds, and after every list of blocks, whatever their words hold, the time of the run is a
number. A further line does not make it smaller: it adds its waits and then the time of each of
its moves, which is at least the shortest time of a move. -/
theorem time_never_decreases [GrowingSums α] {c : Config α} (hc : c.validate = .ok ()) :
    ∃ s₀, start? c = .ok s₀ ∧ ∀ bs : List (Block α),
      isNaN (s₀.run c bs).totalTime = false ∧
      ∀ b : Block α,
        (s₀.run c bs).totalTime ≤ (s₀.run c (bs ++ [b])).totalTime ∧
        (s₀.run c (bs ++ [b])).totalTime =
          (b.dwells ++ (evaluate c (s₀.run c bs) b).result.events.map Event.time).foldl (· + ·)
            (s₀.run c bs).totalTime ∧
        ∀ e ∈ (evaluate c (s₀.run c bs) b).result.events, c.minMoveTime ≤ e.time := by
  refine ⟨start c, start?_of_validate hc, fun bs => ?_⟩
  have hzero : (0 : α) ≤ (start c).totalTime := OrderedNumbers.le_refl GrowingSums.isNaN_zero
  have hnonneg : 0 ≤ ((start c).run c bs).totalTime := totalTime_nonneg_run hc bs hzero
  refine ⟨(GrowingSums.isNaN_of_le hnonneg).2, fun b => ?_⟩
  have hline : (start c).run c (bs ++ [b]) = (evaluate c ((start c).run c bs) b).state := by
    simp only [run, List.foldl_append, List.foldl_cons, List.foldl_nil]
  rw [hline]
  exact ⟨totalTime_le_evaluate hc b hnonneg, totalTime_evaluate c _ b,
    minMoveTime_le_of_mem_events hc _ b⟩

/-- A machine that does not know where it is, with an infinite offset. -/
def lost : Config Float :=
  { Config.standard with
    minMoveTime := 0.5
    start := some { StartState.empty with
      machine := some [0 / 0, 1 / 0, 0]
      offset := some [1 / 0, 0, 0]
      offsetEnabled := some true } }

/-- A feed move to an infinite position, a rapid move to no position, and a wait for no time. -/
def lostProgram : List (Block Float) :=
  [.ofWords [⟨'G', 1⟩, ⟨'F', 100⟩, ⟨'X', 1 / 0⟩, ⟨'Z', 3⟩],
    .ofWords [⟨'G', 0⟩, ⟨'Y', 0 / 0⟩], .ofWords [⟨'G', 4⟩, ⟨'P', 0 / 0⟩]]

/-- The position is lost, and the time is not: each of the two moves takes half a second. -/
theorem time_never_decreases_lost :
    lost.validate = .ok () ∧ ∃ s₀ : State Float, start? lost = .ok s₀ ∧
      (s₀.run lost lostProgram).work.map isNaN = [false, true, false] ∧
      isNaN (s₀.run lost lostProgram).totalTime = false ∧
      (s₀.run lost (lostProgram.take 1)).totalTime ≤ (s₀.run lost (lostProgram.take 2)).totalTime ∧
      (s₀.run lost lostProgram).totalTime = 1 := by
  have hc : lost.validate = .ok () := Config.validate_eq_ok.2 (by decide +kernel)
  obtain ⟨s₀, hstart, hrun⟩ := time_never_decreases hc
  obtain rfl : start lost = s₀ := Except.ok.inj ((start?_of_validate hc).symm.trans hstart)
  have hline := (hrun (lostProgram.take 1)).2 (.ofWords [⟨'G', 0⟩, ⟨'Y', 0 / 0⟩])
  exact ⟨hc, _, hstart, by decide +kernel, (hrun lostProgram).1, hline.1, by decide +kernel⟩

end State

end DryRun
