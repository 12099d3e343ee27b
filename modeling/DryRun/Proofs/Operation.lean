import DryRun.Proofs.Indexing
import DryRun.Proofs.Streaming

/-!
# Operating a machine

Whoever holds a machine can feed it blocks, lines and programs, ask it for the events of a
program and stop asking at any time, switch it off and on again, and give it another
configuration. `Machine.Operation` lists what can be done, `Machine.operate` does it, and a
configuration that is refused changes nothing.

All lines reach the state through `Machine.runLine`. In particular a stream of events has
always run the first lines of its program and no others, wherever it was left
(`EventStream.machine_take`).

## Main results

* `Machine.WellFormed`: the configuration is accepted and the state has its shape.
* `Machine.shape_and_indices`: every machine that can be reached is well formed, so that no
  block makes it access an index out of range.
-/

namespace DryRun

variable {α : Type} [Scalar α]

namespace Machine

/-- What can be done with a machine. -/
inductive Operation (α : Type) where
  | apply (b : Block α)
  | runLine (line : String)
  | runLines (lines : List String)
  /-- Asks for up to `k` events of a program, and for no more. -/
  | pull (lines : List String) (k : Nat)
  | reset
  | reconfigure (c : Config α)

/-- The machine after an operation. One that fails leaves the machine as it was. -/
def operate (m : Machine α) : Operation α → Machine α
  | .apply b => m.apply b
  | .runLine line => m.runLine line
  | .runLines lines => m.runLines lines
  | .pull lines k => ((EventStream.of m lines).take k).2.machine
  | .reset => m.reset.toOption.getD m
  | .reconfigure c => (m.reconfigure c).toOption.getD m

/-- The machine after a list of operations. -/
def operateAll (m : Machine α) (ops : List (Operation α)) : Machine α := ops.foldl operate m

/-! ### Well-formed machines -/

/-- A machine is well formed if its configuration is accepted and its state has the shape
that the configuration asks for. -/
structure WellFormed (m : Machine α) : Prop where
  config : m.config.validate = .ok ()
  state : m.state.pose.Shaped m.config

/-- A machine that was built is well formed. -/
theorem wellFormed_of_build {c : Config α} {m : Machine α} (h : build c = .ok m) :
    m.WellFormed := by
  simp only [build, State.start?] at h
  cases hf : c.fault? with
  | some fault => simp [hf] at h
  | none =>
      have hc : c.validate = .ok () := Config.validate_eq_ok.mpr hf
      simp only [hf, Except.ok.injEq] at h
      obtain rfl := h
      exact ⟨hc, Pose.shaped_start hc⟩

/-- Building a machine anew, or keeping it if that fails, gives a well-formed one. -/
theorem WellFormed.build_getD {m : Machine α} (h : m.WellFormed) (c : Config α) :
    ((build c).toOption.getD m).WellFormed := by
  cases hb : build c with
  | error fault => exact h
  | ok m' => exact wellFormed_of_build hb

/-- A machine stays well formed when it evaluates a block. -/
theorem WellFormed.apply {m : Machine α} (h : m.WellFormed) (b : Block α) :
    (m.apply b).WellFormed :=
  ⟨h.config, (Pose.shaped_invariant m.config).evaluate b h.state⟩

/-- A machine stays well formed when it runs a program. -/
theorem WellFormed.runLines {m : Machine α} (h : m.WellFormed) (lines : List String) :
    (m.runLines lines).WellFormed := by
  induction lines generalizing m with
  | nil => exact h
  | cons line lines ih => exact ih (h.apply (Block.parse line))

/-- A machine stays well formed whatever is done with it. -/
theorem WellFormed.operate {m : Machine α} (h : m.WellFormed) (op : Operation α) :
    (m.operate op).WellFormed := by
  cases op with
  | apply b => exact h.apply b
  | runLine line => exact h.apply (Block.parse line)
  | runLines lines => exact h.runLines lines
  | pull lines k =>
      obtain ⟨lines', rest, -, hm⟩ := EventStream.machine_take m lines k
      change ((EventStream.of m lines).take k).2.machine.WellFormed
      rw [hm]
      exact h.runLines lines'
  | reset => exact h.build_getD m.config
  | reconfigure c => exact h.build_getD c

/-- A machine stays well formed through a list of operations. -/
theorem WellFormed.operateAll {m : Machine α} (h : m.WellFormed) (ops : List (Operation α)) :
    (m.operateAll ops).WellFormed := by
  induction ops generalizing m with
  | nil => exact h
  | cons op ops ih => exact ih (h.operate op)

/-- **Every machine that can be reached is well formed, and no block makes it access an index
out of range.** Its configuration is accepted, all lists of its state have the length that
the configuration asks for, each limit is given for every axis, and the evaluation of any
block in which every access is checked has a result, which is that of the evaluator. -/
theorem shape_and_indices {c : Config α} {m₀ : Machine α} (h : build c = .ok m₀)
    (ops : List (Operation α)) :
    (m₀.operateAll ops).WellFormed ∧
      (∀ axis, axis < (m₀.operateAll ops).config.axisCount →
        (m₀.operateAll ops).config.maxFeed.at? axis =
            some ((m₀.operateAll ops).config.maxFeed.forAxis axis) ∧
          (m₀.operateAll ops).config.acceleration.at? axis =
            some ((m₀.operateAll ops).config.acceleration.forAxis axis)) ∧
      ∀ b, Checked.evaluate (m₀.operateAll ops).config (m₀.operateAll ops).state b =
        some ((m₀.operateAll ops).evaluate b) := by
  have hm := (wellFormed_of_build h).operateAll ops
  refine ⟨hm, ?_, ?_⟩
  · intro axis haxis
    exact ⟨Checked.maxFeed_at? hm.config haxis, Checked.acceleration_at? hm.config haxis⟩
  · intro b
    exact Checked.evaluate_eq hm.config hm.state b

/-- A machine with two axes that starts in its second work coordinate system, of which only
the first three have offsets. -/
def twoAxes : Config Float :=
  { Config.standard with
    axes := ['X', 'a']
    maxFeed := .perAxis [1000, 360]
    start := some { StartState.empty with
      system := some 1
      systems := some [[1, 2], [0.5, -4], [0, 0]]
      machine := some [3, 4] } }

/-- A machine that is given a configuration with two axes of one name, which it refuses, and
then one with fewer axes and offsets for some systems only, and that is left in the middle
of a return to its reference position. -/
theorem shape_and_indices_twoAxes :
    ∃ m₀ m : Machine Float, build Config.standard = .ok m₀ ∧
      m = m₀.operateAll [.reconfigure { Config.standard with axes := ['x', 'X'] },
        .reconfigure twoAxes, .pull ["G28 X1 A2", "G1 A7"] 1,
        .apply (.ofWords [⟨'G', 10⟩, ⟨'L', 20⟩, ⟨'P', 6⟩, ⟨'A', 0⟩])] ∧
      m.config = twoAxes ∧ m.WellFormed ∧
      ∀ b, Checked.evaluate m.config m.state b = some (m.evaluate b) := by
  have hbuild : build (Config.standard : Config Float) =
      .ok ⟨Config.standard, State.start Config.standard⟩ := by decide +kernel
  obtain ⟨hm, -, hb⟩ := shape_and_indices hbuild
    [.reconfigure { Config.standard with axes := ['x', 'X'] },
      .reconfigure twoAxes, .pull ["G28 X1 A2", "G1 A7"] 1,
      .apply (.ofWords [⟨'G', 10⟩, ⟨'L', 20⟩, ⟨'P', 6⟩, ⟨'A', 0⟩])]
  exact ⟨_, _, hbuild, rfl, by decide +kernel, hm, hb⟩

end Machine

end DryRun
