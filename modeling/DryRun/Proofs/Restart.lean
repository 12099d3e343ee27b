import DryRun.Proofs.Operation

/-!
# Restarting a machine

A machine is restarted with its own configuration (`reset`) or with another one
(`reconfigure`). As functions the two give back a machine or a fault, and there is no machine
in between. Whoever holds a machine restarts it *in place*, however, field by field, and a
failure does not undo what was written before it. So this module writes both restarts as a
`Procedure` first, in which the order of the writes is visible, and shows that the new state is
there before anything is written (`on_resetInPlace`, `on_reconfigureInPlace`): a restart
happens as a whole or not at all.

What a machine shows of itself are its answers to operations (`Machine.answers`): results of
lines, reports and events. A machine *starts afresh* with a configuration if its answers to all
that can follow are those of a machine that was just built. Nothing else is said about what it
remembers, and nothing else can be seen of it.

## Main results

* `Machine.Reached.wellFormed`: every machine that can be reached, by blocks, lines, programs,
  streams that are left at any point, bytes, files and restarts, is well formed.
* `Machine.Reached.hasRun`: it is where some blocks lead from the start of its configuration.
* `Machine.restart_atomic`: a reached machine can always be reset, a configuration that is
  refused changes nothing, and after a restart the machine starts afresh.
-/

namespace DryRun

variable {α : Type} [Scalar α]

namespace Machine

/-! ### Machines that can be reached -/

/-- The machines that can be reached from one that was built. -/
inductive Reached : Machine α → Prop
  | build {c : Config α} {m : Machine α} (h : build c = .ok m) : Reached m
  | operate {m : Machine α} (h : Reached m) (op : Operation α) : Reached (m.operate op)
  | bytes {m : Machine α} (h : Reached m) (bs : List UInt8) : Reached (m.runBytes bs)
  | file {m m' : Machine α} {content : FileContent} (h : Reached m)
      (hfile : m.runFile content = .ok m') : Reached m'

/-- A list of operations leads from one reached machine to another. -/
theorem Reached.operateAll {m : Machine α} (h : m.Reached) (ops : List (Operation α)) :
    (m.operateAll ops).Reached := by
  induction ops generalizing m with
  | nil => exact h
  | cons op ops ih => exact ih (h.operate op)

/-- A file that can be read is run as its bytes. -/
theorem runFile_eq_ok {m m' : Machine α} {content : FileContent}
    (h : m.runFile content = .ok m') : ∃ bs, m' = m.runBytes bs := by
  cases content with
  | bytes bs => exact ⟨bs, (Except.ok.inj h).symm⟩
  | unopened reason => cases h
  | unreadable reason => cases h

/-- **Every machine that can be reached is well formed.** -/
theorem Reached.wellFormed {m : Machine α} (h : m.Reached) : m.WellFormed := by
  induction h with
  | build h => exact wellFormed_of_build h
  | operate h op ih => exact ih.operate op
  | bytes h bs ih => exact ih.runLines (Text.linesOfBytes bs)
  | file h hfile ih =>
      obtain ⟨bs, rfl⟩ := runFile_eq_ok hfile
      exact ih.runLines (Text.linesOfBytes bs)

/-! ### Restarting in place -/

/-- A procedure that changes a machine in place and may fail. What it has written before it
fails stays written. -/
abbrev Procedure (α : Type) : Type → Type := ExceptT ConfigFault (StateM (Machine α))

/-- How a procedure ends on a machine, and the machine that it leaves behind. -/
def Procedure.on (p : Procedure α Unit) (m : Machine α) : Except ConfigFault Unit × Machine α :=
  Id.run (p.run.run m)

/-- Resets a machine in place: the state is replaced, the configuration stays. -/
def resetInPlace : Procedure α Unit := do
  let m ← get
  let state ← State.start? m.config
  modify fun m => { m with state }

/-- Gives a machine another configuration in place: the state for it is set up first, then the
configuration and the state are replaced, one after the other. -/
def reconfigureInPlace (c : Config α) : Procedure α Unit := do
  let state ← State.start? c
  modify fun m => { m with config := c }
  modify fun m => { m with state }

/-- How a restart ends, given the machine that it is to result in or its fault. -/
def restarted (m : Machine α) : Except ConfigFault (Machine α) →
    Except ConfigFault Unit × Machine α
  | .ok m' => (.ok (), m')
  | .error fault => (.error fault, m)

/-- **Reconfiguring in place is all or nothing**: it fails, if at all, before it writes. -/
theorem on_reconfigureInPlace (m : Machine α) (c : Config α) :
    (reconfigureInPlace c).on m = m.restarted (m.reconfigure c) := by
  rw [Procedure.on, reconfigureInPlace, reconfigure, build]
  cases State.start? c with
  | ok state => rfl
  | error fault => rfl

/-- **Resetting in place is all or nothing.** -/
theorem on_resetInPlace (m : Machine α) : resetInPlace.on m = m.restarted m.reset := by
  -- reading the configuration does not change the machine
  have hread : resetInPlace.on m =
      Procedure.on (do let state ← State.start? m.config; modify ({ · with state })) m := rfl
  rw [hread, Procedure.on, reset, build]
  cases State.start? m.config with
  | ok state => rfl
  | error fault => rfl

/-- As an operation, a reset is done in place. -/
theorem operate_reset (m : Machine α) : m.operate .reset = (resetInPlace.on m).2 := by
  rw [on_resetInPlace, operate]
  cases m.reset with
  | ok m' => rfl
  | error fault => rfl

/-- As an operation, another configuration is given in place. -/
theorem operate_reconfigure (m : Machine α) (c : Config α) :
    m.operate (.reconfigure c) = ((reconfigureInPlace c).on m).2 := by
  rw [on_reconfigureInPlace, operate]
  cases m.reconfigure c with
  | ok m' => rfl
  | error fault => rfl

/-! ### What a machine shows -/

/-- The answer of a machine to an operation. -/
inductive Answer (α : Type) where
  | line (result : LineResult α)
  | report (report : Report α)
  | events (events : List (Event α))
  | restart (result : Except ConfigFault Unit)

/-- What a machine answers to an operation. -/
def answer (m : Machine α) : Operation α → Answer α
  | .apply b => .line (m.evaluate b).result
  | .runLine line => .line (m.evaluateLine line).result
  | .runLines lines => .report (m.runLines lines).report
  | .pull lines k => .events (((EventStream.of m lines).take k).1.map Prod.fst)
  | .reset => .restart (resetInPlace.on m).1
  | .reconfigure c => .restart ((reconfigureInPlace c).on m).1

/-- What a machine answers to operations, one after the other. -/
def answers (m : Machine α) : List (Operation α) → List (Answer α)
  | [] => []
  | op :: ops => m.answer op :: (m.operate op).answers ops

/-- Whether a machine has a configuration and answers, whatever is asked of it, as one that was
just built. -/
def StartsAfresh (m : Machine α) (c : Config α) : Prop :=
  m.config = c ∧ ∃ fresh, build c = .ok fresh ∧ ∀ ops, m.answers ops = fresh.answers ops

/-- A machine can be built from the configurations that are accepted. -/
theorem build_eq_ok_iff {c : Config α} {m : Machine α} :
    build c = .ok m ↔ c.validate = .ok () ∧ m = ⟨c, State.start c⟩ := by
  rw [Config.validate_eq_ok, build, State.start?]
  cases c.fault? with
  | none => simp [eq_comm]
  | some fault => simp

/-- A program is run as the blocks of its lines. -/
theorem runLines_eq_run (m : Machine α) (lines : List String) :
    m.runLines lines = { m with state := m.state.run m.config (lines.map Block.parse) } := by
  induction lines generalizing m with
  | nil => rfl
  | cons line lines ih =>
      rw [runLines_cons, ih]
      rfl

/-- Whether a machine is where some blocks lead from the start of its configuration. -/
def HasRun (m : Machine α) : Prop :=
  ∃ bs : List (Block α), m.state = (State.start m.config).run m.config bs

/-- A machine that has run some blocks runs further ones. -/
theorem HasRun.run {m : Machine α} (h : m.HasRun) (bs : List (Block α)) :
    HasRun { m with state := m.state.run m.config bs } := by
  obtain ⟨before, hstate⟩ := h
  refine ⟨before ++ bs, ?_⟩
  rw [State.run_append, ← hstate]

/-- A machine that has run some blocks runs the lines of a program. -/
theorem HasRun.runLines {m : Machine α} (h : m.HasRun) (lines : List String) :
    (m.runLines lines).HasRun := by
  rw [runLines_eq_run]
  exact h.run _

/-- Building a machine anew, or keeping it if that fails, gives one that has run some blocks. -/
theorem HasRun.build_getD {m : Machine α} (h : m.HasRun) (c : Config α) :
    ((build c).toOption.getD m).HasRun := by
  cases hb : build c with
  | error fault => exact h
  | ok m' =>
      obtain ⟨-, rfl⟩ := build_eq_ok_iff.mp hb
      exact ⟨[], rfl⟩

/-- **Every machine that can be reached is where some blocks lead from its start.** What holds
after every run of blocks holds of every machine that can be reached. -/
theorem Reached.hasRun {m : Machine α} (h : m.Reached) : m.HasRun := by
  induction h with
  | build h =>
      obtain ⟨-, rfl⟩ := build_eq_ok_iff.mp h
      exact ⟨[], rfl⟩
  | @operate m h op ih =>
      cases op with
      | apply b => exact ih.run [b]
      | runLine line => exact ih.runLines [line]
      | runLines lines => exact ih.runLines lines
      | pull lines k =>
          obtain ⟨ran, rest, -, hm⟩ := EventStream.machine_take m lines k
          change ((EventStream.of m lines).take k).2.machine.HasRun
          rw [hm]
          exact ih.runLines ran
      | reset => exact ih.build_getD m.config
      | reconfigure c => exact ih.build_getD c
  | bytes h bs ih => exact ih.runLines (Text.linesOfBytes bs)
  | file h hfile ih =>
      obtain ⟨bs, rfl⟩ := runFile_eq_ok hfile
      exact ih.runLines (Text.linesOfBytes bs)

/-- A machine that was built starts afresh. -/
theorem startsAfresh_of_build {c : Config α} {m : Machine α} (h : build c = .ok m) :
    m.StartsAfresh c := by
  obtain ⟨-, rfl⟩ := build_eq_ok_iff.mp h
  exact ⟨rfl, _, h, fun _ => rfl⟩

omit [Scalar α] in
/-- A restart succeeds if there is a machine for it to result in. -/
theorem restarted_eq_ok_iff {m m' : Machine α} {r : Except ConfigFault (Machine α)} :
    m.restarted r = (.ok (), m') ↔ r = .ok m' := by
  cases r with
  | ok m'' => simp [restarted]
  | error fault => simp [restarted]

omit [Scalar α] in
/-- A restart that fails leaves the machine as it was. -/
theorem eq_of_restarted_eq_error {m m' : Machine α} {r : Except ConfigFault (Machine α)}
    {fault : ConfigFault} (h : m.restarted r = (.error fault, m')) : m' = m := by
  cases r with
  | ok m'' => cases h
  | error fault' =>
      cases h
      rfl

/-- **Restarts are atomic and erase history.** A machine that can be reached is always reset;
another configuration is taken over exactly if it is accepted, and one that is refused changes
neither the configuration nor the state. After a restart the machine starts afresh: its results,
reports and events are those of a machine that was just built with the same configuration,
whatever was done with it before. -/
theorem restart_atomic {m : Machine α} (hm : m.Reached) :
    (∃ m', resetInPlace.on m = (.ok (), m') ∧ m'.StartsAfresh m.config) ∧
      (∀ c, (∃ m', (reconfigureInPlace c).on m = (.ok (), m')) ↔ c.validate = .ok ()) ∧
      (∀ c m', (reconfigureInPlace c).on m = (.ok (), m') → m'.StartsAfresh c) ∧
      ∀ c fault m', (reconfigureInPlace c).on m = (.error fault, m') → m' = m := by
  simp only [on_resetInPlace, on_reconfigureInPlace, restarted_eq_ok_iff]
  refine ⟨?_, ?_, ?_, ?_⟩
  · have hbuild : m.reset = .ok ⟨m.config, State.start m.config⟩ :=
      build_eq_ok_iff.mpr ⟨hm.wellFormed.config, rfl⟩
    exact ⟨_, hbuild, startsAfresh_of_build hbuild⟩
  · intro c
    constructor
    · rintro ⟨m', hbuild⟩
      exact (build_eq_ok_iff.mp hbuild).1
    · intro hc
      exact ⟨_, build_eq_ok_iff.mpr ⟨hc, rfl⟩⟩
  · intro c m' hbuild
    exact startsAfresh_of_build hbuild
  · intro c fault m' h
    exact eq_of_restarted_eq_error h

/-- A machine that has shifted its origin, was left in the middle of a return to its reference
position, has refused a configuration and has read bytes. -/
def leftStream : Machine Float :=
  ((⟨.standard, State.start .standard⟩ : Machine Float).operateAll
    [.runLine "G92 X5", .runLine "G1 Y2 F100", .pull ["G28 X1", "G0 Z3"] 1,
      .reconfigure { Config.standard with axes := [] }]).runBytes [71, 57, 49, 10]

/-- The machine above remembers all of it. It refuses a configuration without axes and stays
what it is, and once it is reset nothing of it shows. -/
theorem restart_atomic_leftStream :
    ∃ m₀ m' : Machine Float, build Config.standard = .ok m₀ ∧ leftStream.Reached ∧
      leftStream.state.axisFeeds ≠ m₀.state.axisFeeds ∧ leftStream.state.catalogue.lines = 4 ∧
      (reconfigureInPlace { Config.standard with axes := [] }).on leftStream =
        (.error .noAxes, leftStream) ∧
      resetInPlace.on leftStream = (.ok (), m') ∧ ∀ ops, m'.answers ops = m₀.answers ops := by
  have hbuild : build (Config.standard : Config Float) =
      .ok ⟨.standard, State.start .standard⟩ := by decide +kernel
  have hreached : leftStream.Reached := ((Reached.build hbuild).operateAll _).bytes _
  have hconfig : leftStream.config = .standard := by decide +kernel
  obtain ⟨⟨m', hreset, -, fresh, hfresh, hanswers⟩, -, -, hkept⟩ := restart_atomic hreached
  rw [hconfig] at hfresh
  obtain rfl := Except.ok.inj (hbuild.symm.trans hfresh)
  obtain ⟨m, hrefused⟩ : ∃ m, (reconfigureInPlace { Config.standard with axes := [] }).on
      leftStream = (.error .noAxes, m) := ⟨_, Prod.ext (by decide +kernel) rfl⟩
  obtain rfl := hkept _ _ _ hrefused
  exact ⟨_, m', hbuild, hreached, by decide +kernel, by decide +kernel, hrefused, hreset, hanswers⟩

end Machine

end DryRun
