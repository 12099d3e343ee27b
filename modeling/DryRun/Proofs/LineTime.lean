import DryRun.Proofs.Number.Differences
import DryRun.Proofs.TimeGrowth

/-!
# The time of a line

The time that is reported for a line is not added up from what the line did. It is the difference
of two readings of the time of the run, after the line and before it. The time of a run is always a
number and does not run backwards (`TimeGrowth`), but it may become infinite: two waits of finite
lengths can be longer than any double, and so can a move over finite coordinates. From then on the
readings do not change any more, and the difference of two infinite readings is no number.

So the time of a line is a number that is not negative as long as the time of the run before it is
finite, and only as long. What lines really take stands in their events, and is a number always
(`State.minMoveTime_le_of_mem_events`).

## Main results

* `State.nonneg_times_of_isFinite`: if a run ends at a finite time, the times of all of its lines
  are numbers that are not negative.
* `State.time_reported`: the time of a line is such a number exactly if the time before it is
  finite.
-/

namespace DryRun.State

open Scalar (isNaN isFinite GrowingSums OrderedDifferences OrderedNumbers)

variable {α : Type} [Scalar α] [OrderedDifferences α] {c : Config α}

/-- A run does not make the time smaller. -/
theorem totalTime_le_run (hc : c.validate = .ok ()) {s : State α} (bs : List (Block α))
    (hs : 0 ≤ s.totalTime) : s.totalTime ≤ (s.run c bs).totalTime := by
  induction bs generalizing s with
  | nil => exact OrderedNumbers.le_refl (GrowingSums.isNaN_of_le hs).2
  | cons b bs ih =>
      have hline := totalTime_le_evaluate hc b hs
      exact GrowingSums.le_trans hline (ih (GrowingSums.le_trans hs hline))

/-- The time of a line is not negative exactly if the time before it is finite. -/
theorem nonneg_time_iff (hc : c.validate = .ok ()) {s : State α} (hs : 0 ≤ s.totalTime)
    (b : Block α) : 0 ≤ (evaluate c s b).result.time ↔ isFinite s.totalTime = true :=
  OrderedDifferences.nonneg_sub_iff hs (totalTime_le_evaluate hc b hs)

/-- **If a run ends at a finite time, the times of all of its lines are not negative.** -/
theorem nonneg_times_of_isFinite (hc : c.validate = .ok ()) {s : State α} {bs : List (Block α)}
    (hs : 0 ≤ s.totalTime) (hfinite : isFinite (s.run c bs).totalTime = true) :
    ∀ line ∈ s.record c bs, 0 ≤ line.2.time := by
  induction bs generalizing s with
  | nil => exact fun line hline => absurd hline List.not_mem_nil
  | cons b bs ih =>
      have hbefore : isFinite s.totalTime = true :=
        OrderedDifferences.isFinite_of_le hs (totalTime_le_run hc (b :: bs) hs) hfinite
      have hafter : 0 ≤ (evaluate c s b).state.totalTime :=
        GrowingSums.le_trans hs (totalTime_le_evaluate hc b hs)
      rw [record_cons]
      exact List.forall_mem_cons.mpr ⟨(nonneg_time_iff hc hs b).mpr hbefore, ih hafter hfinite⟩

/-- **The time that is reported for a line.** For an accepted configuration, whatever its start
state holds, and after every list of blocks, whatever their words hold, the time of a further line
is a number, and then not negative, exactly if the time of the run before it is finite; after an
infinite time it is no number. In a run that ends at a finite time all lines have such times. -/
theorem time_reported (hc : c.validate = .ok ()) :
    ∃ s₀, start? c = .ok s₀ ∧ ∀ bs : List (Block α),
      (∀ b : Block α,
        (0 ≤ (evaluate c (s₀.run c bs) b).result.time ↔
          isFinite (s₀.run c bs).totalTime = true) ∧
        isNaN (evaluate c (s₀.run c bs) b).result.time = !isFinite (s₀.run c bs).totalTime) ∧
      (isFinite (s₀.run c bs).totalTime = true → ∀ line ∈ s₀.record c bs, 0 ≤ line.2.time) := by
  have hzero : (0 : α) ≤ (start c).totalTime := OrderedNumbers.le_refl GrowingSums.isNaN_zero
  refine ⟨start c, start?_of_validate hc, fun bs => ⟨fun b => ?_, ?_⟩⟩
  · have hnonneg := totalTime_nonneg_run hc bs hzero
    refine ⟨nonneg_time_iff hc hnonneg b, ?_⟩
    exact OrderedDifferences.isNaN_sub_eq hnonneg (totalTime_le_evaluate hc b hnonneg)
  · exact nonneg_times_of_isFinite hc hzero

/-- A wait of more than half of the largest double. -/
def longWait : Block Float := .ofWords [⟨'G', 4⟩, ⟨'P', 1.7e308⟩]

/-- After two such waits the time of the run is infinite. Their own times are numbers, an infinite
one among them, and the time of a line that takes no time at all is none. -/
theorem time_reported_longWaits :
    ∃ s₀ : State Float, start? .standard = .ok s₀ ∧
      (∀ line ∈ s₀.record .standard [longWait], 0 ≤ line.2.time) ∧
      0 ≤ (evaluate .standard (s₀.run .standard [longWait]) longWait).result.time ∧
      (evaluate .standard (s₀.run .standard [longWait, longWait])
        (.ofWords [⟨'M', 5⟩])).result.events = [] ∧
      isNaN (evaluate .standard (s₀.run .standard [longWait, longWait])
        (.ofWords [⟨'M', 5⟩])).result.time = true := by
  have hc : (Config.standard : Config Float).validate = .ok () :=
    Config.validate_eq_ok.2 (by decide +kernel)
  obtain ⟨s₀, hstart, hrun⟩ := time_reported hc
  obtain rfl : start .standard = s₀ := Except.ok.inj ((start?_of_validate hc).symm.trans hstart)
  have hone : isFinite ((start .standard).run .standard [longWait]).totalTime = true := by
    decide +kernel
  have htwo :
      isFinite ((start .standard).run .standard [longWait, longWait]).totalTime = false := by
    decide +kernel
  obtain ⟨hnext, hlines⟩ := hrun [longWait]
  obtain ⟨-, hnone⟩ := (hrun [longWait, longWait]).1 (.ofWords [⟨'M', 5⟩])
  rw [htwo] at hnone
  exact ⟨_, hstart, hlines hone, (hnext longWait).1.mpr hone, by decide +kernel, hnone⟩

end DryRun.State
