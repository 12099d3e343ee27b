import DryRun.Proofs.FrameConsistency
import DryRun.Proofs.MoveOrders
import DryRun.Proofs.Restart

/-!
# Words in machine coordinates

A line may say that its axis words are machine coordinates. No frame is switched for it: the words
are converted into work coordinates, as targets of the named axes only, and the move is made in the
work frame like any other. So the machine position that the move leads to has been converted back
and forth, under whatever work coordinate system, override offset and distance mode are in force,
and on the axes without a word it is derived from the work position alone.

With exact sums nothing of this shows. The named axes end at their words and the others where they
were (`Event.ByMachineWords`), because the two positions of a state describe one point
(`Pose.Consistent`). Nothing is left to switch back either: the next line without the code is read
in the work frame again (`Event.ByWorkWords`).

## Main results

* `State.destination_machineWords`: the end of the move, as a machine position.
* `State.byMachineWords`, `State.byWorkWords`: where lines with the code and without it lead.
* `State.readsOn`: what a line leaves of the way in which lines are read.
* `Machine.machine_words`: the three together, for every machine that can be reached.
-/

namespace DryRun

variable {α : Type} [Scalar α]

/-! ### Where moves end -/

/-- A move that ends, on each axis, at the word of its line in machine coordinates, or where it
starts if there is none. -/
def Event.ByMachineWords (axes : List Char) (b : Block α) (e : Event α) : Prop :=
  ∀ (axis : Nat) (label : Char), axes[axis]? = some label →
    e.machineTarget[axis]? = (b.get? label).or e.machineSource[axis]?

/-- A move that ends, on each axis, at the word of its line in work coordinates, counted from where
it starts in incremental mode, or where it starts if there is none. -/
def Event.ByWorkWords (axes : List Char) (b : Block α) (e : Event α) : Prop :=
  ∀ (axis : Nat) (label : Char), axes[axis]? = some label →
    e.target[axis]? = e.source[axis]?.map fun here =>
      match b.get? label with
      | some value => if e.modal.settings.incremental then here + value else value
      | none => here

/-! ### The last word of a kind -/

/-- The work coordinate system that a modal command selects. -/
def ModalCommand.system? : ModalCommand → Option Nat
  | .system index => some index
  | _ => none

/-- The distance mode that a modal command selects: whether it is the incremental one. -/
def ModalCommand.incremental? : ModalCommand → Option Bool
  | .distanceMode incremental => some incremental
  | _ => none

/-- What the last of the modal commands of a line that select something selects. -/
def Block.last? {β : Type} (b : Block α) (selects : ModalCommand → Option β) : Option β :=
  ((b.codes 'G').filterMap fun code => (ModalCommand.ofCode? code).bind selects).getLast?

namespace State

/-- The end of a move to words in machine coordinates: on the named axes they replace the machine
position, which the frame then turns into a work position. -/
theorem destination_machineWords {s : State α} (hwork : s.work = s.frame.toWork s.machine)
    (words : List (Option α)) :
    s.destination (s.machineWordsToWork words) =
      s.frame.toWork (words.zipWith (fun word here => word.getD here) s.machine) := by
  refine List.ext_getElem? fun axis => ?_
  simp only [destination, machineWordsToWork, hwork, Frame.toWork, Frame.convert,
    List.getElem?_zipWith, List.getElem?_mapIdx]
  rcases words[axis]? with - | - | word
  · rcases s.machine[axis]? with - | here <;> rfl
  · rcases s.machine[axis]? with - | here <;> rfl
  · rcases s.machine[axis]? with - | here <;> rfl

/-- The events of a chain of moves carry the settings that it is made under. -/
theorem Performs.settings {c : Config α} {s s' : State α}
    {moves : List (List (Option α) × Event α)} (h : Performs c s moves s') :
    ∀ e ∈ moves.map Prod.snd, e.modal.settings = s.settings := by
  induction h with
  | done s => simp
  | move motion feed travel geometry hleg _ ih => exact List.forall_mem_cons.2 ⟨rfl, ih⟩

/-- The events of a line carry the settings that its modal words lead to. -/
theorem settings_of_mem_events {c : Config α} {s : State α} {b : Block α} :
    ∀ e ∈ (evaluate c s b).result.events, e.modal.settings = (s.prepare b).settings := by
  change ∀ e ∈ ((s.prepare b).step c b).events, _
  have hstep := step_stepped c (s.prepare b) b
  generalize (s.prepare b).step c b = o at hstep
  cases hstep with
  | action a notes ha => exact fun e he => nomatch he
  | motion m p ha hm hp =>
      obtain ⟨moves, hmoves, hevents, -⟩ := hp
      rw [hevents]
      exact hmoves.settings
  | skipped code notes ha hm => exact fun e he => nomatch he
  | nothing notes ha hm => exact fun e he => nomatch he

/-! ### How the next line is read -/

/-- What a line without an action leaves of the way in which lines are read. It keeps the offsets,
unless it ends the program, and the last of its own words for them says which system and which
distance mode are in force, if it has such words. -/
structure ReadsOn (s s' : State α) (b : Block α) : Prop where
  systems : s'.frame.systems = s.frame.systems
  offset : b.lacks 'M' endCodes = true → s'.frame.offset = s.frame.offset
  offsetEnabled : b.lacks 'M' endCodes = true → s'.frame.offsetEnabled = s.frame.offsetEnabled
  active : b.lacks 'M' endCodes = true →
    s'.frame.active = (b.last? ModalCommand.system?).getD s.frame.active
  incremental : b.lacks 'M' endCodes = true →
    s'.settings.incremental = (b.last? ModalCommand.incremental?).getD s.settings.incremental

/-- A `G` code selects the work coordinate system that its command names. -/
theorem active_applyG {s : State α} (hs : s.frame.systems.length = systemCount) (b : Block α)
    (code : Int) : (s.applyG b code).frame.active =
      ((ModalCommand.ofCode? code).bind ModalCommand.system?).getD s.frame.active := by
  rw [applyG]
  cases hc : ModalCommand.ofCode? code with
  | none => rfl
  | some command =>
      cases command with
      | system index =>
          have hsystems : ∀ x ∈ ModalCommand.table, ∀ index ∈ x.2.system?, index < systemCount := by
            decide
          have hindex : s.frame.hasSystem index = true :=
            decide_eq_true (hs ▸ hsystems _ (mem_of_lookup_eq_some hc) index rfl)
          simp only [applyModal, selectSystem, hindex, if_true]
          rfl
      | dwell =>
          simp only [applyModal, dwell]
          split <;> rfl
      | feedMode _ | plane _ | units _ | cancelMotion | distanceMode _ => rfl

/-- A `G` code selects the distance mode that its command names. -/
theorem incremental_applyG (s : State α) (b : Block α) (code : Int) :
    (s.applyG b code).settings.incremental =
      ((ModalCommand.ofCode? code).bind ModalCommand.incremental?).getD
        s.settings.incremental := by
  rw [applyG]
  cases ModalCommand.ofCode? code with
  | none => rfl
  | some command =>
      cases command with
      | system index =>
          obtain ⟨frame, work, hselect⟩ := selectSystem_eq s index
          exact congrArg (·.settings.incremental) hselect
      | dwell =>
          simp only [applyModal, dwell]
          split <;> rfl
      | feedMode _ | plane _ | units _ | cancelMotion | distanceMode _ => rfl

/-- If each `G` code sets a value as its command says, or keeps it, the last one that sets it
counts. -/
theorem foldl_applyG_last {γ : Type} (b : Block α) (value : State α → γ)
    (selects : ModalCommand → Option γ) {P : State α → Prop}
    (hP : ∀ s code, P s → P (s.applyG b code))
    (hvalue : ∀ s code, P s → value (s.applyG b code) =
      ((ModalCommand.ofCode? code).bind selects).getD (value s)) {s : State α} (hs : P s) :
    value ((b.codes 'G').foldl (applyG b) s) = (b.last? selects).getD (value s) := by
  rw [Block.last?]
  generalize b.codes 'G' = codes
  induction codes generalizing s with
  | nil => rfl
  | cons code codes ih =>
      rw [List.foldl_cons, ih (hP s code hs), hvalue s code hs, List.filterMap_cons]
      cases (ModalCommand.ofCode? code).bind selects with
      | none => rfl
      | some selected => rw [List.getLast?_cons]; rfl

/-- After its modal words the system that a line selects last is active. -/
theorem active_prepare {s : State α} (hs : s.frame.systems.length = systemCount) (b : Block α) :
    (s.prepare b).frame.active = (b.last? ModalCommand.system?).getD s.frame.active := by
  have hkept (s : State α) (code : Int) (h : s.frame.systems.length = systemCount) :
      (s.applyG b code).frame.systems.length = systemCount := by
    rcases pose_applyG s b code with hpose | ⟨index, -, hselect⟩
    · exact (congrArg (·.frame.systems.length) hpose).trans h
    · rw [hselect, selectSystem]
      split <;> exact h
  have hfold := foldl_applyG_last b (·.frame.active) ModalCommand.system? hkept
    (fun s code h => active_applyG h b code) (s := s.count b) hs
  exact (congrArg (·.frame.active) (pose_prepare s b)).trans hfold

omit [Scalar α] in
/-- Steps that each keep the distance mode keep it one after the other. -/
theorem incremental_foldl {β : Type} {f : State α → β → State α}
    (h : ∀ (s : State α) (x : β), (f s x).settings.incremental = s.settings.incremental)
    (xs : List β) (s : State α) :
    (xs.foldl f s).settings.incremental = s.settings.incremental :=
  List.foldlRecOn (motive := fun t : State α => t.settings.incremental = s.settings.incremental)
    xs f rfl fun t ht x _ => (h t x).trans ht

/-- After its modal words the distance mode that a line selects last is in force. -/
theorem incremental_prepare (s : State α) (b : Block α) :
    (s.prepare b).settings.incremental =
      (b.last? ModalCommand.incremental?).getD s.settings.incremental := by
  have hG : ((b.codes 'G').foldl (applyG b) (s.count b)).settings.incremental =
      (b.last? ModalCommand.incremental?).getD s.settings.incremental :=
    foldl_applyG_last b (·.settings.incremental) ModalCommand.incremental? (P := fun _ => True)
      (fun _ _ _ => trivial) (fun s code _ => incremental_applyG s b code) trivial
  have hfeed (t : State α) :
      (t.applyFeed b).settings.incremental = t.settings.incremental := by
    rw [applyFeed]
    split <;> rfl
  have hspeed (t : State α) :
      (t.applySpeed b).settings.incremental = t.settings.incremental := by
    rw [applySpeed]
    split <;> rfl
  have htools (t : State α) :
      (t.applyTools b).settings.incremental = t.settings.incremental := by
    refine incremental_foldl (fun t tool => ?_) _ t
    rfl
  have hM (t : State α) :
      ((b.codes 'M').foldl applyM t).settings.incremental = t.settings.incremental := by
    refine incremental_foldl (fun t code => ?_) _ t
    rw [applyM]
    split
    · next command _ => cases command <;> rfl
    · rfl
  rw [prepare, applyModalWords, hM, htools, hspeed, hfeed, hG]

/-- A prepared line that does not act keeps the frame and the settings. -/
theorem frame_settings_step (c : Config α) (s : State α) {b : Block α}
    (ha : Action.ofCodes? (b.codes 'G') = none) :
    (s.step c b).state.frame = s.frame ∧ (s.step c b).state.settings = s.settings := by
  have hstep := step_stepped c s b
  generalize s.step c b = o at hstep
  cases hstep with
  | action a notes ha' => rw [ha] at ha'; cases ha'
  | motion m p ha hm hp =>
      obtain ⟨moves, hmoves, -, -⟩ := hp
      obtain ⟨work, machine, totalTime, axisFeeds, envelope, hstate⟩ := hmoves.state_eq
      rw [hstate]
      exact ⟨rfl, rfl⟩
  | skipped code notes ha hm => exact ⟨rfl, rfl⟩
  | nothing notes ha hm => exact ⟨rfl, rfl⟩

/-- **What a line without an action leaves of the way in which lines are read.** -/
theorem readsOn {c : Config α} {s : State α} (hs : s.pose.Shaped c) {b : Block α}
    (ha : Action.ofCodes? (b.codes 'G') = none) : s.ReadsOn (evaluate c s b).state b := by
  obtain ⟨active, hprepare⟩ := frame_prepare s b
  obtain ⟨hframe, hsettings⟩ := frame_settings_step c (s.prepare b) ha
  have hgoesOn (h : b.lacks 'M' endCodes = true) :
      (evaluate c s b).state = ((s.prepare b).step c b).state := finish_of_lacks h _
  refine ⟨?_, fun h => ?_, fun h => ?_, fun h => ?_, fun h => ?_⟩
  · have hfinish (t : State α) : (t.finish b).frame.systems = t.frame.systems := by
      rw [finish]
      split <;> rfl
    exact (hfinish _).trans (by rw [hframe, hprepare])
  · rw [hgoesOn h, hframe, hprepare]
  · rw [hgoesOn h, hframe, hprepare]
  · rw [hgoesOn h, hframe, active_prepare hs.frame.systems]
  · rw [hgoesOn h, hsettings, incremental_prepare]

section Moves

variable {c : Config α} {s : State α} {b : Block α} {motion : Motion}
  (hasked : s.askedMotion? b = some motion)
  (hmotion : motion = .rapid ∨ motion = .linear ∨ motion.isArc = true)

include hasked hmotion

/-- **A line with words in machine coordinates leads to them.** -/
theorem byMachineWords [Scalar.ExactSums α] (hs : s.pose.Shaped c) (hpose : s.pose.Consistent)
    (hcode : 530 ∈ b.codes 'G') :
    ∃ e, (evaluate c s b).result.events = [e] ∧ e.ByMachineWords s.axes b ∧
      e.machineSource = s.machine ∧ (evaluate c s b).state.machine = e.machineTarget := by
  obtain ⟨-, hstate, e, hevents, he⟩ := evaluate_moveOrder c hasked hmotion
  obtain ⟨hwork, -⟩ := Pose.Consistent.both
    (prepare_induction (Pose.consistent_invariant c).selectSystem b hpose)
  have htarget : e.machineTarget =
      (axisWords s.axes b).zipWith (fun word here => word.getD here) s.machine := by
    rw [he.machineTarget]
    change (s.prepare b).frame.toMachine
      ((s.prepare b).destination ((s.prepare b).blockTargets b)) = _
    rw [blockTargets, targets, if_pos (List.contains_iff_mem.2 hcode),
      destination_machineWords hwork, Frame.toMachine_toWork, axes_prepare, machine_prepare]
  have hsource : e.machineSource = s.machine := he.machineSource.trans (machine_prepare s b)
  refine ⟨e, hevents, ?_, hsource, ?_⟩
  · intro axis label hlabel
    have haxis : axis < s.machine.length := by
      have hlength : s.machine.length = s.axes.length := hs.machine.trans hs.length_axes.symm
      exact hlength ▸ (List.getElem?_eq_some_iff.1 hlabel).1
    rw [htarget, hsource, List.getElem?_zipWith, getElem?_axisWords hlabel,
      List.getElem?_eq_getElem haxis]
    cases b.get? label with
    | none => rfl
    | some value => rfl
  · rw [hstate, machine_finish, he.machineTarget]

/-- **A line without the code for it leads to its words in work coordinates**, in the distance mode
that it finds or selects. Unless it selects a system, it starts at the work position. -/
theorem byWorkWords (c : Config α) (hcode : 530 ∉ b.codes 'G') :
    ∃ e, (evaluate c s b).result.events = [e] ∧ e.ByWorkWords s.axes b ∧
      (modalChangesFrame b = false → e.source = s.work) ∧
      e.modal.settings.incremental =
        (b.last? ModalCommand.incremental?).getD s.settings.incremental := by
  obtain ⟨-, -, e, hevents, he⟩ := evaluate_moveOrder c hasked hmotion
  have hsource : e.source = (s.prepare b).work := he.source
  have hsettings : e.modal.settings = (s.prepare b).settings :=
    settings_of_mem_events (c := c) e (by rw [hevents]; exact List.mem_singleton_self e)
  refine ⟨e, hevents, fun axis label hlabel => ?_, fun hmodal => ?_, ?_⟩
  · have hcontains : ¬(b.codes 'G').contains 530 = true := by rwa [List.contains_iff_mem]
    rw [he.target, hsource, hsettings]
    change ((s.prepare b).destination ((s.prepare b).blockTargets b))[axis]? = _
    rw [destination, List.getElem?_zipWith, blockTargets, targets, if_neg hcontains,
      List.getElem?_zipWith, axes_prepare, getElem?_axisWords hlabel]
    rcases (s.prepare b).work[axis]? with - | here
    · rfl
    · cases b.get? label with
      | none => rfl
      | some value => rfl
  · rw [hsource]
    exact congrArg Pose.work (pose_prepare_of_not_changesFrame hmodal s)
  · rw [hsettings, incremental_prepare]

end Moves

end State

namespace Machine

/-- The two positions of every machine that can be reached describe one point. -/
theorem Reached.consistent {m : Machine α} (h : m.Reached) : m.state.pose.Consistent := by
  obtain ⟨bs, hstate⟩ := h.hasRun
  rw [hstate]
  exact (Pose.consistent_invariant m.config).run bs (.inl rfl)

/-- A line leaves the labels of the axes as they are. -/
theorem axes_evaluate (m : Machine α) (b : Block α) :
    (m.evaluate b).state.axes = m.state.axes :=
  (State.axes_invariant m.config m.state.axes).evaluate b rfl

/-- A line that just names an axis performs the motion in force. -/
theorem motion_of_justNames {m : Machine α} {b : Block α} (hb : b.JustNames m.state.axes) :
    (m.evaluate b).result.motion = m.state.motion :=
  (State.motion_result m.config m.state b).trans (State.askedMotion?_of_justNames hb)

/-- Of two lines that just name axes the second performs the same motion as the first. -/
theorem motion_of_justNames_apply {m : Machine α} {b next : Block α}
    (hb : b.JustNames m.state.axes) (hnext : next.JustNames m.state.axes) :
    ((m.apply b).evaluate next).result.motion = m.state.motion := by
  rw [motion_of_justNames (m.axes_evaluate b ▸ hnext)]
  exact State.motion_evaluate m.config m.state hb.keepsMotion

/-- **Words in machine coordinates are for their line only.** Whatever the work coordinate system,
the override offset and the distance mode are, a rapid move, a feed move or an arc on a line with
the code for it ends in machine coordinates at the words of the line, and where it starts on the
other axes. The line leaves the offsets, the active system and the distance mode as they are, up to
its own words for the latter two and the end of the program, and the next line without the code is
read in work coordinates again. -/
theorem machine_words {m : Machine α} (hm : m.Reached) {b : Block α} (hcode : 530 ∈ b.codes 'G')
    {motion : Motion} (hperforms : (m.evaluate b).result.motion = some motion)
    (hmotion : motion = .rapid ∨ motion = .linear ∨ motion.isArc = true) :
    (Scalar.ExactSums α → ∃ e, (m.evaluate b).result.events = [e] ∧
      e.ByMachineWords m.state.axes b ∧ e.machineSource = m.state.machine ∧
      (m.evaluate b).state.machine = e.machineTarget) ∧
    m.state.ReadsOn (m.evaluate b).state b ∧
    ∀ (next : Block α) (motion' : Motion), 530 ∉ next.codes 'G' →
      ((m.apply b).evaluate next).result.motion = some motion' →
      motion' = .rapid ∨ motion' = .linear ∨ motion'.isArc = true →
      ∃ e, ((m.apply b).evaluate next).result.events = [e] ∧
        e.ByWorkWords m.state.axes next ∧
        (modalChangesFrame next = false → e.source = (m.evaluate b).state.work) ∧
        e.modal.settings.incremental =
          (next.last? ModalCommand.incremental?).getD
            (m.evaluate b).state.settings.incremental := by
  have hasked : m.state.askedMotion? b = some motion :=
    (State.motion_result m.config m.state b).symm.trans hperforms
  obtain ⟨haction, -⟩ := State.askedMotion?_eq_some_iff.1 hasked
  refine ⟨fun _ => ?_, State.readsOn hm.wellFormed.state haction, ?_⟩
  · exact State.byMachineWords hasked hmotion hm.wellFormed.state hm.consistent hcode
  · intro next motion' hnext hperforms' hmotion'
    have hasked' : (m.evaluate b).state.askedMotion? next = some motion' :=
      (State.motion_result m.config (m.evaluate b).state next).symm.trans hperforms'
    rw [← m.axes_evaluate b]
    exact State.byWorkWords hasked' hmotion' m.config hnext

/-- A machine in incremental mode and away from all origins. -/
noncomputable def away : Machine ℝ := ⟨State.elsewhere, State.start State.elsewhere⟩

/-- A line with a word in machine coordinates. -/
noncomputable def machineLine : Block ℝ := .ofWords [⟨'G', Scalar.ofNat 53⟩, ⟨'X', Scalar.ofNat 10⟩]

/-- A line with a word in work coordinates. -/
noncomputable def workLine : Block ℝ := .ofWords [⟨'X', Scalar.ofNat 5⟩]

/-- The motion in force leads this machine to the word in machine coordinates and then by the word
in work coordinates. -/
theorem machine_words_away :
    build State.elsewhere = .ok away ∧ away.state.settings.incremental = true ∧
      (away.evaluate machineLine).result.motion = some .rapid ∧
      (∃ e, (away.evaluate machineLine).result.events = [e] ∧
        e.machineTarget[0]? = some (Scalar.ofNat 10) ∧
        e.machineTarget[1]? = some (Scalar.ofNat 4) ∧
        e.machineTarget[2]? = some (Scalar.ofNat 5)) ∧
      (away.evaluate machineLine).state.frame.active = 1 ∧
      ∃ e here, ((away.apply machineLine).evaluate workLine).result.events = [e] ∧
        e.source[0]? = some here ∧ e.target[0]? = some (here + Scalar.ofNat 5) := by
  have hbuild : build State.elsewhere = .ok away :=
    build_eq_ok_iff.2 ⟨State.validate_elsewhere, rfl⟩
  have hreached : away.Reached := .build hbuild
  have hcodes : machineLine.codes 'G' = [530] :=
    congrArg (fun code : Int => [code]) (Exact.toCode_ofNat (n := 53) (by decide))
  have hlast {β : Type} (selects : ModalCommand → Option β) : machineLine.last? selects = none := by
    rw [Block.last?, hcodes]
    rfl
  have hnames : machineLine.JustNames away.state.axes := by
    refine ⟨?_, ?_, 0, rfl⟩
    · rw [Block.keepsMotion, Block.lacks, hcodes]
      rfl
    · rw [Block.lacks, hcodes]
      rfl
  have hperforms : (away.evaluate machineLine).result.motion = some .rapid :=
    motion_of_justNames hnames
  have hperforms' : ((away.apply machineLine).evaluate workLine).result.motion = some .rapid :=
    motion_of_justNames_apply hnames ⟨rfl, rfl, 0, rfl⟩
  obtain ⟨hmoves, hreads, hnext⟩ := machine_words hreached
    (by rw [hcodes]; exact List.mem_singleton_self _) hperforms (.inl rfl)
  obtain ⟨e, hevents, hwords, hsource, -⟩ := hmoves inferInstance
  obtain ⟨e', hevents', hwords', hwork, hincremental⟩ :=
    hnext workLine .rapid List.not_mem_nil hperforms' (.inl rfl)
  obtain ⟨here, hhere⟩ : ∃ here, e'.source[0]? = some here := by
    have hlength : (away.evaluate machineLine).state.work.length = 3 :=
      ((Pose.shaped_invariant State.elsewhere).evaluate machineLine hreached.wellFormed.state).work
    rw [hwork rfl]
    exact ⟨_, List.getElem?_eq_getElem (by omega)⟩
  refine ⟨hbuild, rfl, hperforms, ⟨e, hevents, hwords 0 'x' rfl, ?_, ?_⟩,
    ?_, e', here, hevents', hhere, ?_⟩
  · rw [hwords 1 'y' rfl, hsource]
    rfl
  · rw [hwords 2 'z' rfl, hsource]
    rfl
  · rw [hreads.active rfl, hlast]
    rfl
  · rw [hwords' 0 'x' rfl, hhere, hincremental, hreads.incremental rfl, hlast]
    rfl

end Machine

end DryRun
