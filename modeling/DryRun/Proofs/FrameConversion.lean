import DryRun.Proofs.Number.Real

/-!
# Conversions between frames

All positions change frames in one function, with different arguments: a frame may name a work
coordinate system that exists, one that does not exist, or none, and an override offset of any
length, or none. What is missing counts as zero.

With exact sums the conversions form a groupoid: those of two steps compose to that of the direct
way, and a conversion into the same frame changes nothing. So all of them have an inverse, whatever
the frames. The conversion into the machine's own frame adds the offsets of a frame, and this
determines all others. Numbers that round satisfy none of these laws, and all that holds of them is
that frames with the same offsets convert alike.

## Main results

* `Frame.convert_convert`, `Frame.convert_self`: the laws of the groupoid.
* `Frame.conversions_groupoid`: what follows from them.
-/

namespace DryRun

variable {α : Type} [Scalar α]

namespace Frame

/-! ### Frames with the same offsets -/

/-- How far the work frame is shifted depends on the active system and the override only. -/
theorem shift_work_congr {f g : Frame α}
    (hsystem : g.systems[g.active]? = f.systems[f.active]?) (hoffset : g.offset = f.offset)
    (henabled : g.offsetEnabled = f.offsetEnabled) (axis : Nat) :
    g.shift g.work axis = f.shift f.work axis := by
  simp only [shift, systemOf, work, Option.bind_some, hsystem, hoffset, henabled]

/-- Frames with the same active system and the same override read positions alike. -/
theorem toWork_congr {f g : Frame α} (hsystem : g.systems[g.active]? = f.systems[f.active]?)
    (hoffset : g.offset = f.offset) (henabled : g.offsetEnabled = f.offsetEnabled)
    (position : List α) : g.toWork position = f.toWork position := by
  simp only [toWork, convert, shift_work_congr hsystem hoffset henabled]
  rfl

/-- Frames with the same active system and the same override place positions alike. -/
theorem toMachine_congr {f g : Frame α}
    (hsystem : g.systems[g.active]? = f.systems[f.active]?) (hoffset : g.offset = f.offset)
    (henabled : g.offsetEnabled = f.offsetEnabled) (position : List α) :
    g.toMachine position = f.toMachine position := by
  simp only [toMachine, convert, shift_work_congr hsystem hoffset henabled]
  rfl

/-- A conversion keeps the number of axes. -/
theorem length_convert (f : Frame α) (source target : FrameRef α) (position : List α) :
    (f.convert source target position).length = position.length :=
  List.length_mapIdx

/-! ### The laws of conversions -/

variable [Scalar.ExactSums α]

/-- The machine's own frame is not shifted. -/
theorem shift_machine (f : Frame α) (axis : Nat) : f.shift .machine axis = 0 :=
  Scalar.ExactSums.add_zero 0

/-- **A conversion can be made by way of any other frame.** -/
theorem convert_convert (f : Frame α) (source middle target : FrameRef α) (position : List α) :
    f.convert middle target (f.convert source middle position) =
      f.convert source target position := by
  simp only [convert, List.mapIdx_mapIdx, Function.comp_def, Scalar.ExactSums.sub_add_cancel]

/-- **A conversion into the same frame changes nothing.** -/
theorem convert_self (f : Frame α) (r : FrameRef α) (position : List α) :
    f.convert r r position = position := by
  refine List.ext_getElem? fun axis => ?_
  rw [convert, List.getElem?_mapIdx]
  simp only [Scalar.ExactSums.add_sub_cancel, Option.map_id_fun', id]

/-- The conversion into the machine's own frame adds the offsets of a frame. -/
theorem convert_machine (f : Frame α) (source : FrameRef α) (position : List α) :
    f.convert source .machine position =
      position.mapIdx fun axis value => value + f.shift source axis := by
  simp only [convert, shift_machine, Scalar.ExactSums.sub_zero]

/-- With exact sums a machine position is the same after a conversion there and back. -/
theorem toMachine_toWork (f : Frame α) (position : List α) :
    f.toMachine (f.toWork position) = position := by
  rw [toMachine, toWork, convert_convert, convert_self]

/-- With exact sums a work position is the same after a conversion there and back. -/
theorem toWork_toMachine (f : Frame α) (position : List α) :
    f.toWork (f.toMachine position) = position := by
  rw [toMachine, toWork, convert_convert, convert_self]

/-- **Conversions between frames form a groupoid**, if sums are exact. For frames that name any
system, existing or not, and any override offset, long or short: two conversions compose to the
direct one, a conversion into the same frame changes nothing, and there and back is where one
started, between any two frames and between the work frame and the machine's own. A position keeps
its number of axes, and in the machine's own frame it is shifted by the offsets of the frame that it
was measured in. -/
theorem conversions_groupoid (f : Frame α) :
    (∀ (a b c : FrameRef α) (position : List α),
      f.convert b c (f.convert a b position) = f.convert a c position) ∧
    (∀ (a : FrameRef α) (position : List α), f.convert a a position = position) ∧
    (∀ (a b : FrameRef α) (position : List α),
      f.convert b a (f.convert a b position) = position) ∧
    (∀ position : List α, f.toMachine (f.toWork position) = position ∧
      f.toWork (f.toMachine position) = position) ∧
    (∀ (a b : FrameRef α) (position : List α),
      (f.convert a b position).length = position.length) ∧
    (∀ (a : FrameRef α) (position : List α), f.convert a .machine position =
      position.mapIdx fun axis value => value + f.shift a axis) := by
  refine ⟨f.convert_convert, f.convert_self, fun a b position => ?_, fun position => ?_,
    f.length_convert, f.convert_machine⟩
  · rw [convert_convert, convert_self]
  · exact ⟨f.toMachine_toWork position, f.toWork_toMachine position⟩

/-- The frames of a machine with one work coordinate system for two axes, of which a third one is
active that does not exist, and with an override offset for one axis. -/
noncomputable def ragged : Frame ℝ where
  active := 2
  systems := [[Scalar.ofNat 10, Scalar.ofNat 20]]
  offset := [Scalar.ofNat 5]
  offsetEnabled := true

/-- A position with three axes in the only system is converted by way of a system that does not
exist: its first two coordinates are shifted, and the third one is not. The way into the work frame
in force and back leads to where it started. -/
theorem conversions_groupoid_ragged :
    ragged.convert ⟨some 7, some [Scalar.ofNat 1]⟩ .machine
        (ragged.convert ⟨some 0, none⟩ ⟨some 7, some [Scalar.ofNat 1]⟩
          [Scalar.ofNat 1, Scalar.ofNat 2, Scalar.ofNat 3]) =
      [Scalar.ofNat 11, Scalar.ofNat 22, Scalar.ofNat 3] ∧
    ragged.toMachine (ragged.toWork [Scalar.ofNat 1, Scalar.ofNat 2, Scalar.ofNat 3]) =
      [Scalar.ofNat 1, Scalar.ofNat 2, Scalar.ofNat 3] := by
  obtain ⟨hcompose, -, -, hback, -, hmachine⟩ := conversions_groupoid ragged
  refine ⟨?_, (hback _).1⟩
  rw [hcompose, hmachine]
  simp only [List.mapIdx_cons, List.mapIdx_nil, shift, component, systemOf, ragged,
    Exact.ofNat_eq, List.cons.injEq]
  norm_num

end Frame

end DryRun
