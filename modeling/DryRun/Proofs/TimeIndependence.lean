import DryRun.Number.Double
import DryRun.Proofs.Records

/-!
# Timing does not show in the motion

A move both takes the machine to a new position and is timed, and the limits of the machine,
the shortest time of a move and the way arcs are measured decide which branch of the timing
is taken. The time of the run and the axis feeds that the next move starts from are the only
traces that it leaves (`State.UpToTime`), and no other part of a line reads them.

## Main results

* `State.upToTime_lockstep`: machines that differ in these two stay in lockstep, whatever
  their limits are.
* `State.timing_invisible`: two runs with the same axes and start state agree after every
  line in everything but time.
-/

namespace DryRun

variable {α : Type} [Scalar α]

/-! ### What is left without time -/

/-- An event without its time. -/
def Event.untimed (e : Event α) : Event α := { e with time := 0 }

/-- The result of a line without the time of the line and of its events. -/
def LineResult.untimed (r : LineResult α) : LineResult α :=
  { r with time := 0, events := r.events.map Event.untimed }

/-- Results that are alike but for time are the same without it. -/
theorem LineResult.Alike.untimed {r r' : LineResult α} (h : r.Alike Event.untimed r') :
    r'.untimed = r.untimed := by
  rw [LineResult.untimed, LineResult.untimed, h.isMotion, h.motion, h.changedFrame, h.events]

namespace State

/-- A state without the time of the run and the axis feeds of the last move. -/
def untimed (s : State α) : State α := { s with totalTime := 0, axisFeeds := none }

/-- Two states that are the same but for the time of the run and the axis feeds. -/
def UpToTime : State α → State α → Prop := UpToRecords fun r r' => r'.flagged = r.flagged

/-- States that are the same but for time are the same without it. -/
theorem UpToTime.untimed_eq {s s' : State α} (h : s.UpToTime s') : s'.untimed = s.untimed := by
  obtain ⟨⟨totalTime, axisFeeds, flagged⟩, rfl, rfl⟩ := h
  rfl

/-! ### Lockstep -/

/-- **The time of a run does not show in its motion**: machines that differ in it stay in
lockstep on every line, whatever their limits are. -/
theorem upToTime_lockstep (c c' : Config α) (b : Block α) :
    Lockstep c c' UpToTime Event.untimed id b b := by
  refine upToRecords_lockstep ⟨fun _ hr => hr, fun hr => hr⟩ rfl ?_ ?_
  · rintro s s' ⟨r, hr, rfl⟩
    exact ⟨((s.setRecords r).count b).records, by simp only [records, count, setRecords, hr], rfl⟩
  · rintro s s' motion targets feed travel travel' g ⟨r, hr, rfl⟩ -
    exact ⟨⟨((s.setRecords r).perform c' motion targets feed travel' g).1.records, hr, rfl⟩, rfl⟩

/-! ### Runs -/

/-- A line keeps states the same but for time, and its results are the same without it. -/
theorem UpToTime.evaluate {s s' : State α} (h : s.UpToTime s') (c c' : Config α) (b : Block α) :
    (evaluate c s b).state.UpToTime (evaluate c' s' b).state ∧
      (evaluate c' s' b).result.untimed = (evaluate c s b).result.untimed := by
  have hlock := upToTime_lockstep c c' b
  have htargets : (s'.prepare b).blockTargets b = (s.prepare b).blockTargets b := by
    obtain ⟨r, -, hprep⟩ := hlock.prepare h
    rw [hprep]
    rfl
  obtain ⟨hstate, hresult⟩ := hlock.evaluate h htargets
  exact ⟨hstate, hresult.untimed⟩

/-- The state that a run starts from depends on the axes and the start state only. -/
theorem start_congr {c c' : Config α} (haxes : c'.axes = c.axes) (hstart : c'.start = c.start) :
    start c' = start c := by
  simp only [start, Config.axisCount, haxes, hstart]

/-- **Timing does not show in the motion.** Two accepted configurations with the same axes and
the same start state may differ in all limits, in the shortest time of a move and in the way
arcs are measured: after every line their runs agree in everything but the time of the run and
the axis feeds, and the results of all lines agree in everything but their times. -/
theorem timing_invisible {c c' : Config α} (hc : c.validate = .ok ())
    (hc' : c'.validate = .ok ()) (haxes : c'.axes = c.axes) (hstart : c'.start = c.start) :
    ∃ s₀ s₀', start? c = .ok s₀ ∧ start? c' = .ok s₀' ∧ ∀ bs : List (Block α),
      (s₀'.run c' bs).untimed = (s₀.run c bs).untimed ∧
      (s₀'.record c' bs).map (fun line => line.2.untimed) =
        (s₀.record c bs).map fun line => line.2.untimed := by
  refine ⟨start c, start c', start?_of_validate hc, start?_of_validate hc', fun bs => ?_⟩
  have hs : (start c).UpToTime (start c') :=
    ⟨(start c).records, rfl, start_congr haxes hstart⟩
  have hbs : ∀ b ∈ bs, True := fun _ _ => trivial
  obtain ⟨hrun, hrecord⟩ := run_alike (fun hs _ => hs.evaluate c c' _) hbs hs
  exact ⟨hrun.untimed_eq, hrecord⟩

/-- A slow machine that measures arcs by their length. -/
def sluggish : Config Float :=
  { Config.standard with
    maxFeed := .perAxis [50, 20, 5]
    acceleration := .uniform 2
    minMoveTime := 1.5
    arcLengthTravel := true }

/-- A program with a feed move, a wait, a half circle in inverse-time mode and a return. -/
def mixedProgram : List (Block Float) :=
  [.ofWords [⟨'G', 1⟩, ⟨'X', 3⟩, ⟨'F', 100⟩], .ofWords [⟨'G', 4⟩, ⟨'P', 2⟩],
    .ofWords [⟨'G', 93⟩, ⟨'G', 2⟩, ⟨'X', 5⟩, ⟨'I', 1⟩], .ofWords [⟨'G', 28⟩, ⟨'Z', 4⟩]]

/-- The ordinary machine and the slow one need different times for the first line, and they
make the same motion. -/
theorem timing_invisible_sluggish :
    (Config.standard : Config Float).validate = .ok () ∧ sluggish.validate = .ok () ∧
      ∃ s₀ s₀' : State Float, start? .standard = .ok s₀ ∧ start? sluggish = .ok s₀' ∧
        (s₀'.run sluggish (mixedProgram.take 1)).totalTime ≠
          (s₀.run .standard (mixedProgram.take 1)).totalTime ∧
        (s₀'.run sluggish mixedProgram).untimed = (s₀.run .standard mixedProgram).untimed ∧
        (s₀'.record sluggish mixedProgram).map (fun line => line.2.untimed) =
          (s₀.record .standard mixedProgram).map fun line => line.2.untimed := by
  have hc : (Config.standard : Config Float).validate = .ok () :=
    Config.validate_eq_ok.2 (by decide +kernel)
  have hc' : sluggish.validate = .ok () := Config.validate_eq_ok.2 (by decide +kernel)
  obtain ⟨s₀, s₀', hstart, hstart', hrun⟩ := timing_invisible hc hc' rfl rfl
  obtain rfl : start .standard = s₀ :=
    Except.ok.inj ((start?_of_validate hc).symm.trans hstart)
  obtain rfl : start sluggish = s₀' :=
    Except.ok.inj ((start?_of_validate hc').symm.trans hstart')
  exact ⟨hc, hc', _, _, hstart, hstart', by decide +kernel, hrun mixedProgram⟩

end State

end DryRun
