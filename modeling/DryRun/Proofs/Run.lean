import DryRun.Proofs.Line

/-!
# Runs

A run is the evaluation of a list of blocks one after the other, from the state that a
configuration starts with or from any other. `State.run` is the state that it ends in,
`State.record` are its lines in order, each with its result.

A property of poses that every line preserves holds after every run
(`Pose.Invariant.run`), so it holds of every state that a machine can reach by evaluating
blocks.
-/

namespace DryRun

variable {α : Type} [Scalar α]

/-- An accepted configuration has no fault. -/
theorem Config.validate_eq_ok {c : Config α} : c.validate = .ok () ↔ c.fault? = none := by
  rw [validate]
  cases c.fault? <;> simp

namespace State

/-- The state after a list of blocks. -/
def run (c : Config α) (s : State α) (bs : List (Block α)) : State α :=
  bs.foldl (fun s b => (evaluate c s b).state) s

@[simp] theorem run_nil (c : Config α) (s : State α) : s.run c [] = s := rfl

@[simp] theorem run_cons (c : Config α) (s : State α) (b : Block α) (bs : List (Block α)) :
    s.run c (b :: bs) = (evaluate c s b).state.run c bs := rfl

/-- Blocks can be run in two parts. -/
theorem run_append (c : Config α) (s : State α) (bs bs' : List (Block α)) :
    s.run c (bs ++ bs') = (s.run c bs).run c bs' :=
  List.foldl_append

/-- The record of a run: its lines in order, each with what it did. -/
def record (c : Config α) : State α → List (Block α) → List (Block α × LineResult α)
  | _, [] => []
  | s, b :: bs => (b, (evaluate c s b).result) :: record c (evaluate c s b).state bs

@[simp] theorem record_nil (c : Config α) (s : State α) : s.record c [] = [] := rfl

@[simp] theorem record_cons (c : Config α) (s : State α) (b : Block α) (bs : List (Block α)) :
    s.record c (b :: bs) =
      (b, (evaluate c s b).result) :: (evaluate c s b).state.record c bs := rfl

/-- The entry of a line in a record: what it did in the state that the lines before it lead
to. -/
theorem getElem?_record (c : Config α) (s : State α) (bs : List (Block α)) (k : Nat) :
    (s.record c bs)[k]? =
      (bs[k]?).map fun b => (b, (evaluate c (s.run c (bs.take k)) b).result) := by
  induction bs generalizing s k with
  | nil => rfl
  | cons b bs ih =>
      cases k with
      | zero => rfl
      | succ k => exact ih (evaluate c s b).state k

/-- An accepted configuration has a state to start from. -/
theorem start?_of_validate {c : Config α} (h : c.validate = .ok ()) :
    start? c = .ok (start c) := by
  rw [start?, Config.validate_eq_ok.mp h]

end State

/-- **An invariant of poses holds after every run.** -/
theorem Pose.Invariant.run {c : Config α} {P : Pose α → Prop} (h : Invariant c P)
    {s : State α} (bs : List (Block α)) (hs : P s.pose) : P (s.run c bs).pose := by
  induction bs generalizing s with
  | nil => exact hs
  | cons b bs ih => exact ih (h.evaluate b hs)

end DryRun
