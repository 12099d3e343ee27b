import DryRun.Proofs.FrameConversion
import DryRun.Proofs.Run

/-!
# The two positions describe one point

A machine keeps its position twice, in work and in machine coordinates. Every command that
changes one of them, or the frame between them, derives the other one again, in one of two
directions: a move derives the machine position from the work position, and everything else
derives the work position from the machine position.

Numbers that round are not the same after a conversion there and back. So the invariant of
a run is that *one* of the two conversions gives the other position exactly
(`Pose.Consistent`), and it does not stay the same one. With exact sums the two conversions
are inverse to each other and both equations hold.

## Main results

* `Pose.consistent_invariant`: no part of a line breaks the agreement.
* `State.positions_agree`: it holds after every line of every run.
-/

namespace DryRun

variable {α : Type} [Scalar α]

namespace Pose

/-! ### The agreement -/

/-- One of the two positions is what the frame in force makes of the other. -/
def Consistent (p : Pose α) : Prop :=
  p.work = p.frame.toWork p.machine ∨ p.machine = p.frame.toMachine p.work

/-- A frame that reads and poses positions alike keeps the agreement. -/
theorem Consistent.of_frame {p : Pose α} {f : Frame α} (h : p.Consistent)
    (hsystem : f.systems[f.active]? = p.frame.systems[p.frame.active]?)
    (hoffset : f.offset = p.frame.offset) (henabled : f.offsetEnabled = p.frame.offsetEnabled) :
    Consistent { p with frame := f } := by
  rcases h with h | h
  · exact .inl (h.trans (Frame.toWork_congr hsystem hoffset henabled _).symm)
  · exact .inr (h.trans (Frame.toMachine_congr hsystem hoffset henabled _).symm)

/-- Setting the offsets of a system keeps the agreement. The work position is derived again
only for the active system; the offsets of another one do not matter yet. -/
theorem consistent_setOffsets {s : State α} (hs : s.pose.Consistent) (fromPosition : Bool)
    (index : Nat) (words : List (Option α)) :
    (s.setOffsets fromPosition index words).pose.Consistent := by
  simp only [State.setOffsets]
  split
  · exact .inl rfl
  · next hindex => exact hs.of_frame (List.getElem?_modify_ne _ _ hindex) rfl rfl

/-- An action keeps the agreement. -/
theorem consistent_act {s : State α} (b : Block α) (a : Action) (hs : s.pose.Consistent) :
    (s.act b a).pose.Consistent := by
  cases a with
  | setSystem =>
      simp only [State.act, State.setSystem]
      split
      · exact consistent_setOffsets hs _ _ _
      · exact hs
  | storeHome => exact hs
  | storeSecondaryHome => exact hs
  | homeAxes => exact .inl rfl
  | origin command => cases command <;> exact .inl rfl

/-- **No part of a line breaks the agreement of the two positions.** -/
theorem consistent_invariant (c : Config α) : Invariant c Consistent where
  selectSystem s index hs := by
    rw [State.selectSystem]
    split
    · exact .inl rfl
    · exact hs
  act _ := consistent_act
  move _ _ _ _ _ _ := .inr rfl
  endProgram _ _ := .inl rfl

/-- With exact sums each position is what the frame in force makes of the other. -/
theorem Consistent.both [Scalar.ExactSums α] {p : Pose α} (h : p.Consistent) :
    p.work = p.frame.toWork p.machine ∧ p.machine = p.frame.toMachine p.work := by
  rcases h with h | h
  · exact ⟨h, by rw [h, Frame.toMachine_toWork]⟩
  · exact ⟨by rw [h, Frame.toWork_toMachine], h⟩

end Pose

namespace State

/-- **The work position and the machine position describe the same point** after every line
of every run from an accepted configuration: one of them is exactly, value for value, what
the frame in force makes of the other, and with exact sums each of them is. -/
theorem positions_agree {c : Config α} (hc : c.validate = .ok ()) :
    ∃ s₀, start? c = .ok s₀ ∧ ∀ bs : List (Block α),
      ((s₀.run c bs).work = (s₀.run c bs).frame.toWork (s₀.run c bs).machine ∨
        (s₀.run c bs).machine = (s₀.run c bs).frame.toMachine (s₀.run c bs).work) ∧
      (Scalar.ExactSums α →
        (s₀.run c bs).work = (s₀.run c bs).frame.toWork (s₀.run c bs).machine ∧
          (s₀.run c bs).machine = (s₀.run c bs).frame.toMachine (s₀.run c bs).work) := by
  refine ⟨start c, start?_of_validate hc, fun bs => ?_⟩
  have hstart : (start c).pose.Consistent := .inl rfl
  have hrun := (Pose.consistent_invariant c).run bs hstart
  exact ⟨hrun, fun _ => hrun.both⟩

/-- In exact numbers both equations hold after a line that shifts the origin and a line that
moves and ends the program. -/
theorem positions_agree_standard :
    (Config.standard : Config ℝ).validate = .ok () ∧
      ∃ s₀ s : State ℝ, start? Config.standard = .ok s₀ ∧
        s = s₀.run .standard
          [.ofWords [⟨'G', 92⟩, ⟨'X', 5⟩], .ofWords [⟨'G', 1⟩, ⟨'X', 2⟩, ⟨'M', 2⟩]] ∧
        s.work = s.frame.toWork s.machine ∧ s.machine = s.frame.toMachine s.work := by
  obtain ⟨s₀, hstart, hrun⟩ := positions_agree Exact.standard_validate
  exact ⟨Exact.standard_validate, s₀, _, hstart, rfl, (hrun _).2 inferInstance⟩

/-- A machine in doubles whose position is not the same after a conversion there and back. -/
def offGrid : Config Float :=
  { Config.standard with
    start := some { StartState.empty with
      systems := some [[0.7, 0, 0]]
      machine := some [0.1, 0, 0] } }

-- With rounding the second equation fails already at the start, so the agreement cannot be
-- strengthened to both equations.
example : offGrid.validate = .ok () ∧
    (start offGrid).machine ≠ (start offGrid).frame.toMachine (start offGrid).work := by
  decide +kernel

/-- A machine in exact numbers in incremental mode, in the second work coordinate system, with an
override offset on top of it and away from all origins. -/
noncomputable def elsewhere : Config ℝ :=
  { Config.standard with
    start := some { StartState.empty with
      incremental := some true
      system := some 1
      systems := some [[0, 0, 0], [Scalar.ofNat 30, 0, Scalar.ofNat 2]]
      offset := some [Scalar.ofNat 7, Scalar.ofNat 7, 0]
      offsetEnabled := some true
      machine := some [Scalar.ofNat 3, Scalar.ofNat 4, Scalar.ofNat 5] } }

/-- The machine above is accepted. -/
theorem validate_elsewhere : elsewhere.validate = .ok () := by
  rw [Config.validate_eq_ok, elsewhere, Exact.fault?_standard]
  rfl

end State

end DryRun
