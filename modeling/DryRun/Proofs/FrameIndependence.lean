import DryRun.Number.Double
import DryRun.Proofs.Lockstep
import DryRun.Proofs.Shape

/-!
# The machine frame does not show in the work frame

The work position and the machine position are derived from each other all the time. Still
the moves of a program are computed and timed in work coordinates alone: where the machine
frame lies, what its offsets are and which references are stored (`State.UpToMachine`) shows
in nothing else, as long as no line asks for it.

A line asks for it by a command (`frameCodes`, and the returns to a reference position), or
because a return is the motion in force. No line makes a return stay in force, but a start
state may have one, and then a line without any command goes to the reference position
(`State.machineFrame_visible_return`).

## Main results

* `State.workAlike_lockstep`: machines that differ in their frames stay in lockstep on lines
  that do not ask for them.
* `State.machineFrame_invisible`: two runs of such lines agree after every line in everything
  but the machine frame.
* `State.machineFrame_visible_return`: with a return in force they need not.
-/

namespace DryRun

variable {α : Type}

/-! ### What is left without the machine frame -/

/-- A shape without its centre in machine coordinates. -/
def Geometry.workView : Geometry α → Geometry α
  | .line => .line
  | .arc centre _ clockwise plane => .arc centre [] clockwise plane

/-- An event without its machine coordinates. -/
def Event.workView (e : Event α) : Event α :=
  { e with machineSource := [], machineTarget := [], geometry := e.geometry.workView }

/-- The result of a line without the machine coordinates of its events. -/
def LineResult.workView (r : LineResult α) : LineResult α :=
  { r with events := r.events.map Event.workView }

/-- A state without its machine position, frames, references and bounds in machine
coordinates. -/
def State.workView (s : State α) : State α :=
  { s with
    machine := []
    frame := ⟨0, [], [], false⟩
    home := []
    secondaryHome := []
    envelope := { s.envelope with machine := ⟨[], []⟩ } }

/-- Two states that are the same but for what belongs to the machine frame. -/
def State.UpToMachine (s s' : State α) : Prop :=
  ∃ machine frame home secondaryHome bounds, s' = { s with
    machine, frame, home, secondaryHome, envelope := { s.envelope with machine := bounds } }

/-- States are the same but for the machine frame if they are the same without it. -/
theorem State.upToMachine_iff {s s' : State α} : s.UpToMachine s' ↔ s'.workView = s.workView := by
  constructor
  · rintro ⟨machine, frame, home, secondaryHome, bounds, rfl⟩
    rfl
  · intro h
    obtain ⟨axes, work, machine, frame, home, secondaryHome, settings, motion, totalTime,
      axisFeeds, ⟨bounds, machineBounds, moved⟩, catalogue⟩ := s'
    simp only [State.workView, State.mk.injEq, Envelope.mk.injEq, true_and] at h
    obtain ⟨rfl, rfl, rfl, rfl, rfl, rfl, ⟨rfl, rfl⟩, rfl⟩ := h
    exact ⟨machine, frame, home, secondaryHome, machineBounds, rfl⟩

/-! ### Lines that do not ask for the machine frame -/

variable [Scalar α]

/-- Whether a line has none of these codes of a letter. -/
def Block.lacks (b : Block α) (letter : Char) (codes : List Int) : Bool :=
  (b.codes letter).all fun code => !codes.contains code

/-- The `G` codes that change the frame, store a reference, home axes or give a target in
machine coordinates. -/
def frameCodes : List Int :=
  [100, 281, 282, 283, 301, 530, 540, 550, 560, 570, 580, 590, 920, 921, 922, 923]

/-- The `G` codes of the returns to a reference position. -/
def returnCodes : List Int := [280, 300]

/-- The `M` codes that end a program. -/
def endCodes : List Int := [20, 300]

namespace Block

variable {b : Block α}

/-- A line lacks codes if none of them is one of its own. -/
theorem lacks_iff {letter : Char} {codes : List Int} :
    b.lacks letter codes = true ↔ ∀ code ∈ codes, code ∉ b.codes letter := by
  rw [lacks, List.all_eq_true]
  constructor
  · intro h code hcode hmem
    simpa [hcode] using h code hmem
  · intro h code hmem
    have hnot : code ∉ codes := fun hcode => h code hcode hmem
    simpa using hnot

/-- A line that lacks the codes of two lists lacks those of each. -/
theorem lacks_append {letter : Char} {codes codes' : List Int} :
    b.lacks letter (codes ++ codes') = true ↔
      b.lacks letter codes = true ∧ b.lacks letter codes' = true := by
  simp only [lacks_iff, List.forall_mem_append]

/-- A line without frame commands has no action. -/
theorem ofCodes?_eq_none_of_lacks (h : b.lacks 'G' frameCodes = true) :
    Action.ofCodes? (b.codes 'G') = none := by
  have hframe : ∀ code ∈ actionCodes, code ∈ frameCodes := by decide
  exact Action.ofCodes?_eq_none_iff.2 fun code hcode => lacks_iff.1 h code (hframe code hcode)

/-- A line without frame commands gives no target in machine coordinates. -/
theorem contains_machineFrame_of_lacks (h : b.lacks 'G' frameCodes = true) :
    (b.codes 'G').contains 530 = false := by
  rw [lacks_iff] at h
  simp [h 530 (by decide)]

/-- A line that lacks the codes of all modal commands of a kind has no command of that kind. -/
theorem command_of_lacks {kind : ModalCommand → Bool} {codes : List Int}
    (hkind : ∀ x ∈ ModalCommand.table, kind x.2 = true → x.1 ∈ codes)
    (h : b.lacks 'G' codes = true) {code : Int} {command : ModalCommand}
    (hcode : code ∈ b.codes 'G') (hc : ModalCommand.ofCode? code = some command) :
    kind command = false := by
  rw [lacks_iff] at h
  rw [Bool.eq_false_iff]
  intro hcommand
  exact h code (hkind _ (mem_of_lookup_eq_some hc) hcommand) hcode

/-- A line without frame commands selects no work coordinate system. -/
theorem modalChangesFrame_of_lacks (h : b.lacks 'G' frameCodes = true) :
    modalChangesFrame b = false := by
  rw [modalChangesFrame, List.any_eq_false]
  intro code hcode
  cases hc : ModalCommand.ofCode? code with
  | none => simp
  | some command =>
      have hcommand : command.changesFrame = false := command_of_lacks (by decide) h hcode hc
      simp [hcommand]

/-- A line that lacks the codes for it asks for no return to a reference position. -/
theorem returnMotion?_of_lacks (h : b.lacks 'G' returnCodes = true) :
    returnMotion? (b.codes 'G') = none := by
  rw [lacks_iff] at h
  simp [returnMotion?, h 280 (by decide), h 300 (by decide)]

/-- A line that lacks the codes for it does not end the program. -/
theorem endsProgram_of_lacks (h : b.lacks 'M' endCodes = true) :
    endsProgram (b.codes 'M') = false := by
  rw [lacks_iff] at h
  simp [endsProgram, h 20 (by decide), h 300 (by decide)]

/-- A line that does not ask for the machine frame. -/
structure OnWorkFrame (b : Block α) : Prop where
  frame : b.lacks 'G' frameCodes = true
  returns : b.lacks 'G' returnCodes = true
  goesOn : b.lacks 'M' endCodes = true

end Block

namespace State

/-- A line that lacks the codes for it does not end the program. -/
theorem finish_of_lacks {b : Block α} (h : b.lacks 'M' endCodes = true) (s : State α) :
    s.finish b = s := by
  rw [finish, Block.endsProgram_of_lacks h, if_neg Bool.false_ne_true]

/-! ### Lockstep -/

/-- Two states that are the same but for the machine frame, where no return to a reference
position is in force. -/
structure WorkAlike (s s' : State α) : Prop where
  same : s.UpToMachine s'
  motion : ∀ m ∈ s.motion, m.isReturn = false

/-- A modal command that keeps the frame does not read it. -/
theorem WorkAlike.applyModal {s s' : State α} (h : s.WorkAlike s') (b : Block α)
    {command : ModalCommand} (hcommand : command.changesFrame = false) :
    (s.applyModal b command).WorkAlike (s'.applyModal b command) := by
  obtain ⟨⟨machine, frame, home, secondaryHome, bounds, rfl⟩, hmotion⟩ := h
  cases command with
  | system index => cases hcommand
  | cancelMotion => exact ⟨⟨_, _, _, _, _, rfl⟩, by simp [State.applyModal]⟩
  | dwell =>
      simp only [State.applyModal, dwell]
      split <;> exact ⟨⟨_, _, _, _, _, rfl⟩, hmotion⟩
  | feedMode _ | plane _ | units _ | distanceMode _ => exact ⟨⟨_, _, _, _, _, rfl⟩, hmotion⟩

/-- **Moves do not read the machine frame**: machines that differ in it stay in lockstep on
lines that do not ask for it. -/
theorem workAlike_lockstep (c : Config α) {b : Block α} (hb : b.OnWorkFrame) :
    Lockstep c c WorkAlike Event.workView Geometry.workView b b where
  parallel := .refl b
  sight := by
    rintro s s' ⟨⟨machine, frame, home, secondaryHome, bounds, rfl⟩, -⟩
    exact ⟨rfl, rfl, rfl, rfl, rfl, rfl⟩
  count := by
    rintro s s' ⟨⟨machine, frame, home, secondaryHome, bounds, rfl⟩, hmotion⟩
    exact ⟨⟨_, _, _, _, _, rfl⟩, hmotion⟩
  modal hcode hc hs := hs.applyModal b (Block.command_of_lacks (by decide) hb.frame hcode hc)
  feed := by
    rintro s s' ⟨⟨machine, frame, home, secondaryHome, bounds, rfl⟩, hmotion⟩
    simp only [applyFeed]
    split <;> exact ⟨⟨_, _, _, _, _, rfl⟩, hmotion⟩
  speed := by
    rintro s s' ⟨⟨machine, frame, home, secondaryHome, bounds, rfl⟩, hmotion⟩
    simp only [applySpeed]
    split <;> exact ⟨⟨_, _, _, _, _, rfl⟩, hmotion⟩
  tool := by
    rintro s s' tool ⟨⟨machine, frame, home, secondaryHome, bounds, rfl⟩, hmotion⟩
    exact ⟨⟨_, _, _, _, _, rfl⟩, hmotion⟩
  switch := by
    rintro s s' command ⟨⟨machine, frame, home, secondaryHome, bounds, rfl⟩, hmotion⟩
    cases command <;> exact ⟨⟨_, _, _, _, _, rfl⟩, hmotion⟩
  select := by
    rintro s s' ⟨⟨machine, frame, home, secondaryHome, bounds, rfl⟩, hmotion⟩
    exact ⟨⟨_, _, _, _, _, rfl⟩, isReturn_motionInForce hmotion _⟩
  act := by
    intro s s' a ha
    rw [Block.ofCodes?_eq_none_of_lacks hb.frame] at ha
    cases ha
  centre _ _ _ _ := rfl
  perform := by
    rintro s s' motion targets feed travel travel' g g'
      ⟨⟨machine, frame, home, secondaryHome, bounds, rfl⟩, hmotion⟩ htravel hg
    obtain rfl := htravel rfl
    refine ⟨⟨⟨_, _, _, _, _, rfl⟩, hmotion⟩, ?_⟩
    simp only [perform, event, Event.workView, hg]
    rfl
  returns := by
    -- without a return in force, or one on the line, no motion reads a reference position
    intro s s' m hs hm
    have hreturn : m.isReturn = false := by
      rw [blockMotion?, lineMotion?, Block.returnMotion?_of_lacks hb.returns, Option.none_or] at hm
      exact isReturn_motionInForce hs.motion _ m (Option.eq_some_of_filter_eq_some hm)
    rw [reference?_of_not_isReturn s hreturn, reference?_of_not_isReturn s' hreturn]
    rfl
  finish hs := by
    simp only [finish, Block.endsProgram_of_lacks hb.goesOn]
    exact hs

/-! ### Runs -/

/-- A line that does not ask for the machine frame keeps states alike, and its results are the
same without machine coordinates. The time of a line is read off the states. -/
theorem WorkAlike.evaluate {s s' : State α} (h : s.WorkAlike s') (c : Config α) {b : Block α}
    (hb : b.OnWorkFrame) :
    (evaluate c s b).state.WorkAlike (evaluate c s' b).state ∧
      (evaluate c s' b).result.workView = (evaluate c s b).result.workView := by
  have hlock := workAlike_lockstep c hb
  have htargets : (s'.prepare b).blockTargets b = (s.prepare b).blockTargets b := by
    obtain ⟨machine, frame, home, secondaryHome, bounds, hprep⟩ := (hlock.prepare h).same
    simp only [blockTargets, targets, Block.contains_machineFrame_of_lacks hb.frame, hprep]
    rfl
  obtain ⟨hstate, hresult⟩ := hlock.evaluate h htargets
  have htime {s s' : State α} (h : s.UpToMachine s') : s'.totalTime = s.totalTime := by
    obtain ⟨machine, frame, home, secondaryHome, bounds, rfl⟩ := h
    rfl
  exact ⟨hstate, hresult.map_events (evaluate_time_eq (htime h.same) (htime hstate.same))⟩

/-- **The machine frame does not show in the work frame.** Let two states agree in everything
but the machine frame, with no return to a reference position in force. If they run a program
whose lines do not ask for the machine frame, they agree in everything else after every line,
and the results of all lines agree in everything but the machine coordinates of their events. -/
theorem machineFrame_invisible (c : Config α) {s s' : State α} (h : s'.workView = s.workView)
    (hmotion : ∀ m ∈ s.motion, m.isReturn = false) {bs : List (Block α)}
    (hbs : ∀ b ∈ bs, b.lacks 'G' (frameCodes ++ returnCodes) = true ∧
      b.lacks 'M' endCodes = true) (k : Nat) :
    (s'.run c (bs.take k)).workView = (s.run c (bs.take k)).workView ∧
      (s'.record c bs).map (fun line => line.2.workView) =
        (s.record c bs).map fun line => line.2.workView := by
  have hs : s.WorkAlike s' := ⟨upToMachine_iff.2 h, hmotion⟩
  have hwork : ∀ b ∈ bs, b.OnWorkFrame := by
    intro b hb
    obtain ⟨hcodes, hend⟩ := hbs b hb
    obtain ⟨hframe, hreturns⟩ := Block.lacks_append.1 hcodes
    exact ⟨hframe, hreturns, hend⟩
  have hrun {bs : List (Block α)} (hbs : ∀ b ∈ bs, b.OnWorkFrame) :=
    run_alike (fun hs hb => hs.evaluate c hb) hbs hs
  refine ⟨upToMachine_iff.1 (hrun ?_).1.same, (hrun hwork).2⟩
  exact fun b hb => hwork b (List.mem_of_mem_take hb)

/-- The standard machine at power-on, but with its second work coordinate system in force. -/
def shifted : State Float :=
  { start .standard with
    machine := [30, -4, 0.5]
    frame := ⟨1, (List.replicate systemCount [0, 0, 0]).set 1 [30, -4, 0.5], [7, 7, 7], false⟩
    home := [100, 100, 0] }

/-- A feed move, a half circle that is only an end point and a radius, and a sticky move in
inches. -/
def workProgram : List (Block Float) :=
  [.ofWords [⟨'G', 1⟩, ⟨'X', 3⟩, ⟨'F', 100⟩], .ofWords [⟨'G', 2⟩, ⟨'X', 5⟩, ⟨'R', 1⟩],
    .ofWords [⟨'G', 91⟩, ⟨'G', 20⟩, ⟨'G', 0⟩, ⟨'Z', 4⟩]]

/-- The machine stands elsewhere after a run in a shifted frame, and nothing else differs. -/
theorem machineFrame_invisible_shifted :
    shifted.workView = (start .standard).workView ∧
      (shifted.run .standard (workProgram.take 3)).machine ≠
        ((start .standard).run .standard (workProgram.take 3)).machine ∧
      (shifted.run .standard (workProgram.take 3)).workView =
        ((start .standard).run .standard (workProgram.take 3)).workView ∧
      (shifted.record .standard workProgram).map (fun line => line.2.workView) =
        ((start .standard).record .standard workProgram).map fun line => line.2.workView := by
  have hsame : shifted.workView = (start .standard).workView := by decide +kernel
  have hmotion : ∀ m ∈ (start (.standard : Config Float)).motion, m.isReturn = false := by
    rintro m hm
    cases hm
    rfl
  have hlines : ∀ b ∈ workProgram, b.lacks 'G' (frameCodes ++ returnCodes) = true ∧
      b.lacks 'M' endCodes = true := by decide +kernel
  exact ⟨hsame, by decide +kernel, machineFrame_invisible .standard hsame hmotion hlines 3⟩

/-! ### A return in force -/

/-- The standard machine, but a run starts with a return to the reference position in force. -/
def returning : Config Float :=
  { Config.standard with start := some { StartState.empty with motion := some .home } }

/-- **A return in force shows the machine frame.** Two states of an accepted configuration may
have all vectors of the right length, agree in everything but the machine frame, and still be
led to different work positions by a line that has no command at all. -/
theorem machineFrame_visible_return :
    ∃ (s s' : State Float) (b : Block Float), returning.validate = .ok () ∧
      s.pose.Shaped returning ∧ s'.pose.Shaped returning ∧ s'.workView = s.workView ∧
      b.codes 'G' = [] ∧ b.codes 'M' = [] ∧
      (evaluate returning s' b).state.work ≠ (evaluate returning s b).state.work := by
  have hc : returning.validate = .ok () := Config.validate_eq_ok.2 (by decide +kernel)
  have hshape := Pose.shaped_start hc
  exact ⟨start returning, { start returning with home := [5, 0, 0] }, .ofWords [⟨'X', 1⟩], hc,
    hshape, { hshape with home := rfl }, rfl, by decide +kernel, by decide +kernel,
    by decide +kernel⟩

end State

end DryRun
