import DryRun.Move
import DryRun.Proofs.Number.Laws
import Mathlib.Order.Bounds.Defs

/-!
# What bounds record

Bounds are kept value by value: an observed value replaces the bound if it lies beyond it.
`Bounds.observe` takes a list of values for each axis, and observing twice is observing the
lists one after the other (`Bounds.observe_observe`), so that the bounds after a run are
those of all its values in order.

If all observed values are numbers, the two bounds of an axis are the least and the greatest
of them (`Bounds.isLeast_foldl_lower`, `Bounds.isGreatest_foldl_upper`). Both are one
statement about keeping the better of two values, `Bounds.foldl_keep`.
-/

namespace DryRun

variable {α : Type}

/-! ### The points of a move -/

/-- A move observes its start and its end on an axis that it names. -/
theorem movePoints_of_named {targets : List (Option α)} {start finish : List α} {axis : Nat}
    {target a b : α} (h : targets[axis]?.join = some target) (ha : start[axis]? = some a)
    (hb : finish[axis]? = some b) : movePoints targets start finish axis = [a, b] := by
  rw [Option.join_eq_some_iff] at h
  simp only [movePoints, h, ha, hb]

/-- A move observes nothing on an axis that it does not name. -/
theorem movePoints_of_unnamed {targets : List (Option α)} {axis : Nat}
    (h : targets[axis]?.join = none) (start finish : List α) :
    movePoints targets start finish axis = [] := by
  cases ht : targets[axis]? with
  | none => simp [movePoints, ht]
  | some target =>
      rw [ht, Option.join_some] at h
      simp [movePoints, ht, h]

namespace Bounds

variable [Scalar α]

/-! ### Observing lists of values -/

/-- Observing nothing changes nothing. -/
theorem observe_nil (b : Bounds α) : (b.observe fun _ => []) = b := by
  have hsame (xs : List (Option α)) : (xs.mapIdx fun _ bound => bound) = xs := by
    refine List.ext_getElem? fun axis => ?_
    rw [List.getElem?_mapIdx, Option.map_id']
  simp [observe, hsame]

/-- Observing twice is observing the values one after the other. -/
theorem observe_observe (b : Bounds α) (f g : Nat → List α) :
    (b.observe f).observe g = b.observe fun axis => f axis ++ g axis := by
  simp [observe, List.mapIdx_mapIdx, List.foldl_append, Function.comp_def]

/-- The lower bound of an axis after values were observed. -/
theorem getElem?_observe_min (b : Bounds α) (f : Nat → List α) (axis : Nat) :
    (b.observe f).min[axis]? = (b.min[axis]?).map fun bound => (f axis).foldl lower bound :=
  List.getElem?_mapIdx

/-- The upper bound of an axis after values were observed. -/
theorem getElem?_observe_max (b : Bounds α) (f : Nat → List α) (axis : Nat) :
    (b.observe f).max[axis]? = (b.max[axis]?).map fun bound => (f axis).foldl upper bound :=
  List.getElem?_mapIdx

/-! ### Least and greatest values -/

/-- Keeps the better of a bound and a value; without a bound it is the value. -/
def keep {α : Type} (r : α → α → Prop) [DecidableRel r] (bound : Option α) (value : α) :
    Option α :=
  match bound with
  | none => some value
  | some m => if r value m then some value else some m

/-- A lower bound keeps the smaller value. -/
theorem lower_eq_keep : (lower : Option α → α → Option α) = keep (· < ·) := rfl

/-- An upper bound keeps the larger value. -/
theorem upper_eq_keep : (upper : Option α → α → Option α) = keep fun value m => m < value := rfl

/-- Keeping the better value ends with one of the values, and none of them is better. The
first bound is never replaced by a worse one, which carries the induction past a value that
is passed over. -/
theorem foldl_keep {α : Type} {r : α → α → Prop} [DecidableRel r] (hirrefl : ∀ a, ¬ r a a)
    (htrans : ∀ {a b c}, r a b → r b c → r a c) (values : List α) (m : α) :
    ∃ m', values.foldl (keep r) (some m) = some m' ∧ (m' = m ∨ m' ∈ values ∧ r m' m) ∧
      ∀ v ∈ m :: values, ¬ r v m' := by
  induction values generalizing m with
  | nil => exact ⟨m, rfl, .inl rfl, by simpa using hirrefl m⟩
  | cons value values ih =>
      rw [List.foldl_cons]
      by_cases hbetter : r value m
      · obtain ⟨m', hfold, hm, hbest⟩ := ih value
        have hm' : m' ∈ value :: values ∧ r m' m := by
          rcases hm with rfl | ⟨hmem, hr⟩
          · exact ⟨List.mem_cons_self, hbetter⟩
          · exact ⟨List.mem_cons_of_mem value hmem, htrans hr hbetter⟩
        refine ⟨m', by rw [← hfold, keep, if_pos hbetter], .inr hm', ?_⟩
        intro v hv
        rcases List.mem_cons.mp hv with rfl | hv
        · exact fun h => hbest value List.mem_cons_self (htrans hbetter h)
        · exact hbest v hv
      · obtain ⟨m', hfold, hm, hbest⟩ := ih m
        refine ⟨m', by rw [← hfold, keep, if_neg hbetter], ?_, ?_⟩
        · rcases hm with rfl | ⟨hmem, hr⟩
          · exact .inl rfl
          · exact .inr ⟨List.mem_cons_of_mem value hmem, hr⟩
        · intro v hv
          rcases List.mem_cons.mp hv with rfl | hv
          · exact hbest v List.mem_cons_self
          rcases List.mem_cons.mp hv with rfl | hv
          · rcases hm with rfl | ⟨-, hr⟩
            · exact hbetter
            · exact fun h => hbetter (htrans h hr)
          · exact hbest v (List.mem_cons_of_mem m hv)

/-- Keeping the better of some values, without a bound before them, ends with one of them,
and none of them is better. -/
theorem foldl_keep_none {α : Type} {r : α → α → Prop} [DecidableRel r]
    (hirrefl : ∀ a, ¬ r a a) (htrans : ∀ {a b c}, r a b → r b c → r a c) {values : List α}
    (hne : values ≠ []) :
    ∃ m, values.foldl (keep r) none = some m ∧ m ∈ values ∧ ∀ v ∈ values, ¬ r v m := by
  obtain ⟨value, values, rfl⟩ := List.exists_cons_of_ne_nil hne
  obtain ⟨m, hfold, hm, hbest⟩ := foldl_keep hirrefl htrans values value
  refine ⟨m, hfold, ?_, hbest⟩
  rcases hm with rfl | ⟨hmem, -⟩
  · exact List.mem_cons_self
  · exact List.mem_cons_of_mem value hmem

section Ordered

open Scalar (OrderedNumbers isNaN)

variable [OrderedNumbers α] {values : List α}

/-- The lower bound of some numbers is the least of them. -/
theorem isLeast_foldl_lower (hne : values ≠ []) (hn : ∀ v ∈ values, isNaN v = false) :
    ∃ m, values.foldl lower none = some m ∧ IsLeast {v | v ∈ values} m := by
  rw [lower_eq_keep]
  obtain ⟨m, hfold, hmem, hleast⟩ :=
    foldl_keep_none OrderedNumbers.lt_irrefl OrderedNumbers.lt_trans hne
  refine ⟨m, hfold, hmem, ?_⟩
  intro v hv
  exact (OrderedNumbers.le_iff_not_lt (hn m hmem) (hn v hv)).mpr (hleast v hv)

/-- The upper bound of some numbers is the greatest of them. -/
theorem isGreatest_foldl_upper (hne : values ≠ []) (hn : ∀ v ∈ values, isNaN v = false) :
    ∃ m, values.foldl upper none = some m ∧ IsGreatest {v | v ∈ values} m := by
  rw [upper_eq_keep]
  obtain ⟨m, hfold, hmem, hgreatest⟩ :=
    foldl_keep_none (r := fun value m : α => m < value) OrderedNumbers.lt_irrefl
      (fun h h' => OrderedNumbers.lt_trans h' h) hne
  refine ⟨m, hfold, hmem, ?_⟩
  intro v hv
  exact (OrderedNumbers.le_iff_not_lt (hn v hv) (hn m hmem)).mpr (hgreatest v hv)

end Ordered

end Bounds

end DryRun
