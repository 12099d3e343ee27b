import DryRun.Proofs.FrameConsistency
import DryRun.Proofs.FrameIndependence
import DryRun.Proofs.Restart

/-!
# Offsets read back as they were set

Two commands change the offsets between the machine frame and the work frame while the machine
stands still. One shifts the origin, so that the named axes read as the line says. The other sets
the offsets of one work coordinate system on the named axes: to the words of the line, or so that
the current position is the origin of the system.

What is set is not what is read. The two offsets stack, the override offset may be switched off,
and the system whose offsets are set need not be the active one. So each command is described by
what can be read after it (`State.OriginSet`, `State.SystemSet`): on the axes that it names, with
exact sums, and on all others, where nothing changes, value for value.

## Main results

* `Frame.getElem?_toWork`: the work coordinate of an axis, from what is to be read there.
* `offsetSystem?_eq_some_iff`: which system a line sets the offsets of.
* `State.originSet_evaluate`, `State.systemSet_evaluate`: what can be read after the commands.
* `Machine.offsets_as_set`: both, for every machine that can be reached.
-/

namespace DryRun

variable {α : Type} [Scalar α]

/-! ### Reading a frame -/

namespace Frame

/-- The offset of an axis in a work coordinate system. -/
def systemOffset? (f : Frame α) (index axis : Nat) : Option α :=
  f.systems[index]?.bind (·[axis]?)

omit [Scalar α] in
/-- There is an offset for each axis in each system. -/
theorem Shaped.exists_systemOffset? {f : Frame α} {n : Nat} (hf : f.Shaped n) {index axis : Nat}
    (hindex : index < systemCount) (haxis : axis < n) :
    ∃ offset, f.systemOffset? index axis = some offset := by
  have hsystem : index < f.systems.length := hf.systems ▸ hindex
  have hlength : f.systems[index].length = n := hf.system _ (List.getElem_mem hsystem)
  have hentry : axis < f.systems[index].length := hlength ▸ haxis
  refine ⟨f.systems[index][axis], ?_⟩
  rw [systemOffset?, List.getElem?_eq_getElem hsystem]
  exact List.getElem?_eq_getElem hentry

/-- The work frame is shifted by the offset of the active system and the override offset. -/
theorem shift_work (f : Frame α) (axis : Nat) :
    f.shift f.work axis = (f.systemOffset? f.active axis).getD 0 + f.overrideAt axis := by
  rw [overrideAt]
  cases h : f.offsetEnabled with
  | true => simp only [shift, systemOf, work, component, h]; rfl
  | false => simp only [shift, systemOf, work, component, h]; rfl

/-- An axis reads the value from which the shift of the work frame leads to where it is. -/
theorem getElem?_toWork [Scalar.ExactSums α] (f : Frame α) {position : List α} {axis : Nat}
    {here value : α} (hhere : position[axis]? = some here)
    (hvalue : value + f.shift f.work axis = here) :
    (f.toWork position)[axis]? = some value := by
  rw [toWork, convert, List.getElem?_mapIdx, hhere, Option.map_some, shift_machine,
    Scalar.ExactSums.add_zero, ← hvalue, Scalar.ExactSums.add_sub_cancel]

end Frame

/-! ### Which system is set -/

/-- The work coordinate systems that a line means: the active one without a `P` word or with zero,
and otherwise the one with this number. -/
inductive Block.Means (b : Block α) (active : Nat) : Nat → Prop
  | active (h : b.get? 'P' = none) : Means b active active
  | zero {p : α} (h : b.get? 'P' = some p) (hp : (p == 0) = true) : Means b active active
  | numbered {p : α} {index : Nat} (h : b.get? 'P' = some p) (hindex : index < systemCount)
      (hp : (p == Scalar.ofNat (index + 1)) = true) : Means b active index

/-- The systems that a line means are there. -/
theorem Block.Means.lt {b : Block α} {active index : Nat} (h : b.Means active index)
    (hactive : active < systemCount) : index < systemCount := by
  cases h with
  | active h => exact hactive
  | zero h hp => exact hactive
  | numbered h hindex hp => exact hindex

/-- The system that a `P` word selects is the one that its line means. -/
theorem selectedSystem?_eq_some_iff [Scalar.DistinctDigits α] {b : Block α} {active index : Nat} :
    selectedSystem? active (b.get? 'P') = some index ↔ b.Means active index := by
  constructor
  · intro h
    cases hget : b.get? 'P' with
    | none =>
        rw [hget] at h
        obtain rfl : active = index := Option.some.inj h
        exact .active hget
    | some p =>
        rw [hget, selectedSystem?] at h
        split at h
        · next hp =>
          obtain rfl : active = index := Option.some.inj h
          exact .zero hget hp
        · obtain ⟨hp, hindex, -⟩ := List.find?_range_eq_some.1 h
          exact .numbered hget (List.mem_range.1 hindex) hp
  · intro h
    cases h with
    | active h => rw [h, selectedSystem?]
    | zero h hp => rw [h, selectedSystem?, if_pos hp]
    | @numbered p _ h hindex hp =>
        -- a value that is the number of a system is not that of an earlier one, nor zero
        have hother {k : Nat} (hk : k < index + 1) : ¬(p == Scalar.ofNat k) = true := by
          intro hpk
          rw [systemCount] at hindex
          exact Nat.ne_of_lt hk
            (Scalar.DistinctDigits.eq_of_beq (by omega) (by omega) hpk hp)
        have hzero : ¬(p == 0) = true := by
          rw [Scalar.DistinctDigits.beq_zero]
          exact hother index.succ_pos
        rw [h, selectedSystem?, if_neg hzero, List.find?_range_eq_some]
        refine ⟨hp, List.mem_range.2 hindex, fun j hj => ?_⟩
        rw [Bool.not_eq_true', ← Bool.not_eq_true]
        exact hother (Nat.succ_lt_succ hj)

namespace State

/-- A line sets offsets of the system that it means, if it sets any. -/
theorem offsetSystem?_eq_some_iff [Scalar.DistinctDigits α] {s : State α} {b : Block α}
    {index : Nat} :
    s.offsetSystem? b = some index ↔
      (givesOffsets b = true ∨ takesOffsets b = true) ∧ b.Means s.frame.active index := by
  rw [offsetSystem?, ← Bool.or_eq_true]
  split
  · next h => rw [selectedSystem?_eq_some_iff, and_iff_right h]
  · next h => simp [h]

/-! ### A new origin -/

/-- **What can be read after a new origin was set** by a line: the words of the line on the named
axes. Nothing is changed but the override offset on these axes, which is switched on, and the work
position. -/
structure OriginSet (s s' : State α) (b : Block α) : Prop where
  rest : ∃ frame work, s' = { s.prepare b with frame, work }
  machine : s'.machine = s.machine
  active : s'.frame.active = (s.prepare b).frame.active
  systems : s'.frame.systems = s.frame.systems
  enabled : s'.frame.offsetEnabled = true
  work : s'.work = s'.frame.toWork s'.machine
  kept : ∀ axis : Nat, b.names s.axes axis = false →
    s'.frame.offset[axis]? = s.frame.offset[axis]?
  named : Scalar.ExactSums α → ∀ (axis : Nat) (label : Char) (value : α),
    s.axes[axis]? = some label → b.get? label = some value → s'.work[axis]? = some value

/-- An axis that a line does not name has no word. -/
theorem join_axisWords_of_not_names {axes : List Char} {b : Block α} {axis : Nat}
    (h : b.names axes axis = false) : (axisWords axes b)[axis]?.join = none := by
  rw [← Option.not_isSome_iff_eq_none, isSome_join_axisWords, h]
  exact Bool.false_ne_true

/-- The override offset of an axis is shifted if a word names it. -/
theorem getElem?_shiftedOffset (s : State α) (words : List (Option α)) (axis : Nat) :
    (s.shiftedOffset words)[axis]? = s.frame.offset[axis]?.map fun old =>
      match words[axis]?.join with
      | some value =>
        (s.machine[axis]?).getD 0 - (s.frame.systemOffset? s.frame.active axis).getD 0 - value
      | none => old := by
  rw [shiftedOffset, List.getElem?_mapIdx]
  rfl

/-- With the shifted override offset a named axis reads its word. -/
theorem getElem?_work_set [Scalar.ExactSums α] {c : Config α} {s : State α}
    (hs : s.pose.Shaped c) {words : List (Option α)} {axis : Nat} {value : α}
    (haxis : axis < c.axisCount) (hword : words[axis]? = some (some value)) :
    (s.applyOrigin words .set).work[axis]? = some value := by
  have hmachine : axis < s.machine.length := hs.machine ▸ haxis
  have hoffset : axis < s.frame.offset.length := hs.frame.offset ▸ haxis
  refine Frame.getElem?_toWork _ (List.getElem?_eq_getElem hmachine) ?_
  rw [Frame.shift_work, Frame.overrideAt, if_pos rfl]
  change value + ((s.frame.systemOffset? s.frame.active axis).getD 0 +
    ((s.shiftedOffset words)[axis]?).getD 0) = _
  rw [getElem?_shiftedOffset, hword, List.getElem?_eq_getElem hoffset,
    List.getElem?_eq_getElem hmachine]
  -- the shift of the frame is the distance of the axis from the word
  change value + (_ + (s.machine[axis] - _ - value)) = s.machine[axis]
  rw [Scalar.ExactSums.add_comm value, Scalar.ExactSums.add_assoc, Scalar.ExactSums.sub_add_cancel,
    Scalar.ExactSums.add_comm, Scalar.ExactSums.sub_add_cancel]

/-! ### Offsets of a system -/

/-- **What can be read after the offsets of a system were set** by a line: the words of the line on
the named axes, or, if they are taken from the position, the origin of the system as soon as it is
the active one. No other offset is changed, and the work position follows if the system is the
active one. -/
structure OffsetsSet (s s' : State α) (b : Block α) (index : Nat) : Prop where
  others : ∀ k : Nat, k ≠ index → s'.frame.systems[k]? = s.frame.systems[k]?
  kept : ∀ axis : Nat, b.names s.axes axis = false →
    s'.frame.systemOffset? index axis = s.frame.systemOffset? index axis
  given : takesOffsets b = false → ∀ (axis : Nat) (label : Char) (value : α),
    s.axes[axis]? = some label → b.get? label = some value →
    s'.frame.systemOffset? index axis = some value
  taken : takesOffsets b = true → Scalar.ExactSums α → ∀ (axis : Nat) (label : Char) (value : α),
    s.axes[axis]? = some label → b.get? label = some value →
    ({ s'.frame with active := index }.toWork s'.machine)[axis]? = some 0
  active : index = s'.frame.active → s'.work = s'.frame.toWork s'.machine
  inactive : index ≠ s'.frame.active → s'.work = (s.prepare b).work

/-- **What a line with the command that sets offsets leaves behind.** It changes nothing but the
offsets of the systems and the work position, and nothing at all if it does not say how to set
them, or for no system that there is. -/
structure SystemSet (s s' : State α) (b : Block α) : Prop where
  rest : ∃ frame work, s' = { s.prepare b with frame, work }
  machine : s'.machine = s.machine
  active : s'.frame.active = (s.prepare b).frame.active
  offset : s'.frame.offset = s.frame.offset
  offsetEnabled : s'.frame.offsetEnabled = s.frame.offsetEnabled
  set : givesOffsets b = true ∨ takesOffsets b = true →
    ∀ index, b.Means s'.frame.active index → s.OffsetsSet s' b index
  unset : (givesOffsets b = false ∧ takesOffsets b = false) ∨
      (∀ index, ¬b.Means s'.frame.active index) →
    s'.frame.systems = s.frame.systems ∧ s'.work = (s.prepare b).work

/-- Setting the offsets of a system changes nothing else of the frame. -/
theorem frame_setOffsets (s : State α) (fromPosition : Bool) (index : Nat)
    (words : List (Option α)) :
    (s.setOffsets fromPosition index words).frame =
      { s.frame with
        systems := s.frame.systems.modify index (s.newOffsets fromPosition words) } := by
  simp only [setOffsets]
  split <;> rfl

/-- The machine stands still while offsets are set. -/
theorem machine_setOffsets (s : State α) (fromPosition : Bool) (index : Nat)
    (words : List (Option α)) :
    (s.setOffsets fromPosition index words).machine = s.machine := by
  simp only [setOffsets]
  split <;> rfl

/-- The work position follows the offsets of the active system. -/
theorem work_setOffsets (s : State α) (fromPosition : Bool) (index : Nat)
    (words : List (Option α)) :
    (s.setOffsets fromPosition index words).work = if index = s.frame.active then
      (s.setOffsets fromPosition index words).frame.toWork s.machine else s.work := by
  simp only [setOffsets]
  split <;> rfl

/-- The offset of an axis in the system that is set. -/
theorem systemOffset?_setOffsets (s : State α) (fromPosition : Bool) (index : Nat)
    (words : List (Option α)) (axis : Nat) :
    (s.setOffsets fromPosition index words).frame.systemOffset? index axis =
      (s.frame.systemOffset? index axis).map fun old =>
        match words[axis]?.join with
        | some value => if fromPosition then s.originOffset axis else value
        | none => old := by
  rw [Frame.systemOffset?, Frame.systemOffset?, frame_setOffsets, List.getElem?_modify_eq]
  cases s.frame.systems[index]? with
  | none => rfl
  | some offsets => exact List.getElem?_mapIdx

/-- A system whose offsets are taken from the position has its origin there. -/
theorem getElem?_toWork_taken [Scalar.ExactSums α] {c : Config α} {s : State α}
    (hs : s.pose.Shaped c) {words : List (Option α)} {index axis : Nat} {value : α}
    (hindex : index < systemCount) (haxis : axis < c.axisCount)
    (hword : words[axis]? = some (some value)) :
    ({ (s.setOffsets true index words).frame with active := index }.toWork s.machine)[axis]? =
      some 0 := by
  have hmachine : axis < s.machine.length := hs.machine ▸ haxis
  obtain ⟨old, hold⟩ := hs.frame.exists_systemOffset? hindex haxis
  have hentry : (s.setOffsets true index words).frame.systemOffset? index axis =
      some (s.originOffset axis) := by
    rw [systemOffset?_setOffsets, hword]
    exact congrArg (Option.map _) hold
  have hoverride : (s.setOffsets true index words).frame.overrideAt axis =
      s.frame.overrideAt axis := by
    rw [frame_setOffsets]
    rfl
  refine Frame.getElem?_toWork _ (List.getElem?_eq_getElem hmachine) ?_
  rw [Frame.shift_work]
  change 0 + (((s.setOffsets true index words).frame.systemOffset? index axis).getD 0 +
    (s.setOffsets true index words).frame.overrideAt axis) = s.machine[axis]
  rw [hentry, hoverride, Option.getD_some, originOffset, Scalar.ExactSums.sub_add_cancel,
    Scalar.ExactSums.add_comm, Scalar.ExactSums.add_zero, List.getElem?_eq_getElem hmachine,
    Option.getD_some]

section Lines

variable {c : Config α} {s : State α} (hs : s.pose.Shaped c) {b : Block α}
  (hgoesOn : b.lacks 'M' endCodes = true)

include hs hgoesOn

/-- **A line that sets a new origin** lets the named axes read its words. -/
theorem originSet_evaluate (ha : Action.ofCodes? (b.codes 'G') = some (.origin .set)) :
    s.OriginSet (evaluate c s b).state b := by
  have hstate : (evaluate c s b).state = (s.prepare b).applyOrigin (axisWords s.axes b) .set := by
    rw [← axes_prepare s b]
    exact (finish_of_lacks hgoesOn _).trans (state_step_of_action c _ ha)
  obtain ⟨active, hframe⟩ := frame_prepare s b
  rw [hstate]
  refine ⟨applyOrigin_eq _ _ _, machine_prepare s b, rfl, ?_, rfl, rfl, ?_, ?_⟩
  · change (s.prepare b).frame.systems = _
    rw [hframe]
  · intro axis hnames
    change ((s.prepare b).shiftedOffset (axisWords s.axes b))[axis]? = _
    rw [getElem?_shiftedOffset, join_axisWords_of_not_names hnames, hframe]
    exact Option.map_id_apply
  · intro _ axis label value hlabel hvalue
    refine getElem?_work_set (hs.prepare b) ?_ (by rw [getElem?_axisWords hlabel, hvalue])
    exact hs.length_axes ▸ (List.getElem?_eq_some_iff.1 hlabel).1

omit hgoesOn in
/-- A line whose modal words took effect sets the offsets of a system as it says. -/
theorem offsetsSet_setOffsets {index : Nat} (hindex : index < systemCount) :
    s.OffsetsSet ((s.prepare b).setOffsets (takesOffsets b) index (axisWords s.axes b)) b
      index := by
  obtain ⟨active, hframe⟩ := frame_prepare s b
  have hprepared := hs.prepare b
  have haxis {axis : Nat} {label : Char} (h : s.axes[axis]? = some label) :
      axis < c.axisCount := hs.length_axes ▸ (List.getElem?_eq_some_iff.1 h).1
  refine ⟨?_, ?_, ?_, ?_, ?_, ?_⟩
  · intro k hk
    rw [frame_setOffsets, hframe]
    exact List.getElem?_modify_ne _ _ hk.symm
  · intro axis hnames
    rw [systemOffset?_setOffsets, join_axisWords_of_not_names hnames, hframe]
    exact Option.map_id_apply
  · intro htakes axis label value hlabel hvalue
    obtain ⟨old, hold⟩ := hprepared.frame.exists_systemOffset? hindex (haxis hlabel)
    rw [systemOffset?_setOffsets, getElem?_axisWords hlabel, hvalue, htakes]
    exact congrArg (Option.map _) hold
  · intro htakes _ axis label value hlabel hvalue
    rw [htakes, machine_setOffsets]
    exact getElem?_toWork_taken hprepared hindex (haxis hlabel)
      (by rw [getElem?_axisWords hlabel, hvalue])
  · intro hactive
    rw [frame_setOffsets] at hactive
    rw [work_setOffsets, if_pos hactive, machine_setOffsets]
  · intro hactive
    rw [frame_setOffsets] at hactive
    rw [work_setOffsets, if_neg hactive]

/-- **A line with the command that sets offsets** sets those of the named axes in the system that
it means. -/
theorem systemSet_evaluate [Scalar.DistinctDigits α]
    (ha : Action.ofCodes? (b.codes 'G') = some .setSystem) :
    s.SystemSet (evaluate c s b).state b := by
  have hstate : (evaluate c s b).state = (s.prepare b).setSystem b :=
    (finish_of_lacks hgoesOn _).trans (state_step_of_action c _ ha)
  obtain ⟨active, hframe⟩ := frame_prepare s b
  have hmachine := machine_prepare s b
  rw [hstate]
  cases hsystem : (s.prepare b).offsetSystem? b with
  | none =>
      have hset : (s.prepare b).setSystem b = s.prepare b := by simp only [setSystem, hsystem]
      rw [hset]
      refine ⟨⟨_, _, rfl⟩, hmachine, rfl, by rw [hframe], by rw [hframe], ?_, fun _ => ?_⟩
      · intro hsets index hmeans
        rw [offsetSystem?_eq_some_iff.2 ⟨hsets, hmeans⟩] at hsystem
        cases hsystem
      · exact ⟨by rw [hframe], rfl⟩
  | some index =>
      have hset : (s.prepare b).setSystem b =
          (s.prepare b).setOffsets (takesOffsets b) index (axisWords s.axes b) := by
        simp only [setSystem, hsystem, axes_prepare]
      have hsetFrame := frame_setOffsets (s.prepare b) (takesOffsets b) index (axisWords s.axes b)
      obtain ⟨hsets, hmeans⟩ := offsetSystem?_eq_some_iff.1 hsystem
      refine ⟨setSystem_eq _ b, ?_, ?_, ?_, ?_, ?_, ?_⟩
      · rw [hset, machine_setOffsets, hmachine]
      · rw [hset, hsetFrame]
      · rw [hset, hsetFrame, hframe]
      · rw [hset, hsetFrame, hframe]
      · intro _ index' hmeans'
        rw [hset, hsetFrame] at hmeans'
        have hindex : some index = some index' :=
          hsystem.symm.trans (offsetSystem?_eq_some_iff.2 ⟨hsets, hmeans'⟩)
        obtain rfl := Option.some.inj hindex
        rw [hset]
        exact offsetsSet_setOffsets hs (hmeans.lt (hs.prepare b).frame.active)
      · rintro (⟨hgives, htakes⟩ | hnone)
        · rw [hgives, htakes] at hsets
          simp at hsets
        · rw [hset, hsetFrame] at hnone
          exact absurd hmeans (hnone index)

end Lines

end State

namespace Machine

/-- **Offsets read back as they were set.** Let a line that does not end the program come to a
machine that can be reached. If it sets a new origin, the work position reads its words on the
named axes, by way of the override offset on these axes. If it sets the offsets of a system, only
those of the named axes in the one system that it means are changed, to the words of the line or,
which has precedence, so that the named axes read zero in this system. In neither case does the
machine move, and nothing else is changed but by the modal words of the line. -/
theorem offsets_as_set [Scalar.DistinctDigits α] {m : Machine α} (hm : m.Reached) {b : Block α}
    (hgoesOn : b.lacks 'M' endCodes = true) :
    (Action.ofCodes? (b.codes 'G') = some (.origin .set) →
      m.state.OriginSet (m.evaluate b).state b) ∧
    (Action.ofCodes? (b.codes 'G') = some .setSystem →
      m.state.SystemSet (m.evaluate b).state b) :=
  ⟨State.originSet_evaluate hm.wellFormed.state hgoesOn,
    State.systemSet_evaluate hm.wellFormed.state hgoesOn⟩

/-- A line that sets a new origin on one axis. -/
noncomputable def originLine : Block ℝ := .ofWords [⟨'G', Scalar.ofNat 92⟩, ⟨'X', Scalar.ofNat 1⟩]

/-- A line that sets an offset of the first system in both ways. -/
noncomputable def offsetLine : Block ℝ :=
  .ofWords [⟨'G', Scalar.ofNat 10⟩, ⟨'L', Scalar.ofNat 2⟩, ⟨'L', Scalar.ofNat 20⟩,
    ⟨'P', Scalar.ofNat 1⟩, ⟨'Y', Scalar.ofNat 9⟩]

/-- Away from all origins and in the second system, one axis reads its new origin and another one
the origin of the first system, whatever its word is. The other axes and systems stay as they
are. -/
theorem offsets_as_set_elsewhere :
    ∃ m : Machine ℝ, build State.elsewhere = .ok m ∧ m.state.frame.active = 1 ∧
      (m.evaluate originLine).state.work[0]? = some (Scalar.ofNat 1) ∧
      (m.evaluate originLine).state.frame.offset[1]? = some (Scalar.ofNat 7) ∧
      ({ (m.evaluate offsetLine).state.frame with active := 0 }.toWork
        (m.evaluate offsetLine).state.machine)[1]? = some 0 ∧
      (m.evaluate offsetLine).state.frame.systems[1]? =
        some [Scalar.ofNat 30, 0, Scalar.ofNat 2] := by
  have hbuild : build State.elsewhere = .ok ⟨State.elsewhere, State.start State.elsewhere⟩ :=
    build_eq_ok_iff.2 ⟨State.validate_elsewhere, rfl⟩
  have horiginCodes : originLine.codes 'G' = [920] :=
    congrArg (fun code : Int => [code]) (Exact.toCode_ofNat (n := 92) (by decide))
  have hoffsetCodes : offsetLine.codes 'G' = [100] :=
    congrArg (fun code : Int => [code]) (Exact.toCode_ofNat (n := 10) (by decide))
  have horigin := (offsets_as_set (.build hbuild) (b := originLine) rfl).1
    (by rw [horiginCodes]; rfl)
  have hsystem := (offsets_as_set (.build hbuild) (b := offsetLine) rfl).2
    (by rw [hoffsetCodes]; rfl)
  have htakes : State.takesOffsets offsetLine = true :=
    List.contains_iff_mem.2 (List.mem_cons_of_mem _ (List.mem_singleton_self _))
  have hset := hsystem.set (.inr htakes) 0 (.numbered rfl (by decide) (beq_self_eq_true _))
  refine ⟨_, hbuild, rfl, ?_, ?_, ?_, ?_⟩
  · exact horigin.named inferInstance 0 'x' _ rfl rfl
  · exact horigin.kept 1 rfl
  · exact hset.taken htakes inferInstance 1 'y' _ rfl rfl
  · exact hset.others 1 (by decide)

end Machine

end DryRun
