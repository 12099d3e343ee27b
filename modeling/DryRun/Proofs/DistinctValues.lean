import DryRun.Proofs.Catalogue
import DryRun.Proofs.Number.Packing

/-!
# Distinct values are a set in the order of first sight

The values of a list are told apart by comparing them one by one. A list that grows long keeps an
index of what it has seen: for each value the bits of the double, and one key for both zeros, in a
hash set (`IndexedValues`). Values are then listed after a look at the index alone, and asked for
after a look at the list alone, and nothing but an invariant keeps the two together.

This module shows that the index changes nothing (`IndexedValues.Indexes`), for doubles that are
numbers and for those that are not: two doubles have one key exactly if they are the same entry
(`Double.same_iff`). What the list amounts to is then said of the list without an index.

## Main results

* `Double.same_iff`: what the key of a double tells apart.
* `IndexedValues.Indexes.insertAll`: a list with an index and one without list the same.
* `DistinctValues.listed_once`: numbers are listed once each, in the order of first sight.
-/

namespace DryRun

/-! ### Keys -/

namespace Double

/-- The key of a double: its bits, and none for both zeros. -/
def key (x : Float) : UInt64 := if x == 0 then 0 else x.toBits

theorem key_of_ne_zero {x : Float} (h : ¬ (x == 0) = true) : key x = x.toBits := if_neg h

/-- The two zeros have the key without bits, and no other double has. -/
theorem key_eq_zero_iff {x : Float} : key x = 0 ↔ (x == 0) = true := by
  refine ⟨fun hkey => ?_, fun hzero => if_pos hzero⟩
  by_contra hzero
  rw [key_of_ne_zero hzero] at hkey
  obtain rfl : x = 0 := Float.toBits_inj.1 (hkey.trans (by decide +kernel))
  exact hzero (by decide +kernel)

/-- Doubles that equal the same number equal each other. -/
theorem beq_trans {x y z : Float} (hxy : (x == y) = true) (hyz : (y == z) = true) :
    (x == z) = true := by
  rw [beq_iff] at hxy hyz ⊢
  exact ⟨hxy.1, hyz.2.1, hxy.2.2.trans hyz.2.2⟩

/-- A double that is not zero equals no double but itself. -/
theorem eq_of_beq {x y : Float} (hzero : ¬ (x == 0) = true) (h : (x == y) = true) : x = y := by
  obtain ⟨-, -, heq | ⟨rfl, -⟩ | ⟨rfl, -⟩⟩ := Float.beq_iff_ne_nan_and_eq.1 h
  · exact heq
  · exact absurd (by decide +kernel) hzero
  · exact absurd (by decide +kernel) hzero

/-- **Two doubles have one key exactly if they are the same entry of a list.** -/
theorem same_iff (x y : Float) : Scalar.same x y = true ↔ key x = key y := by
  have hsame : Scalar.same x y = true ↔ (x == y) = true ∨ x = y := by
    change (x == y || x.toBits == y.toBits) = true ↔ _
    rw [Bool.or_eq_true]
    exact or_congr_right (beq_iff_eq.trans Float.toBits_inj)
  rw [hsame]
  by_cases hx : (x == 0) = true
  · rw [key_eq_zero_iff.2 hx, eq_comm (a := 0), key_eq_zero_iff]
    constructor
    · rintro (h | rfl)
      · exact beq_trans (beq_comm x y ▸ h) hx
      · exact hx
    · intro hy
      exact .inl (beq_trans hx (beq_comm y 0 ▸ hy))
  · by_cases hy : (y == 0) = true
    · rw [key_eq_zero_iff.2 hy, key_eq_zero_iff]
      refine iff_of_false ?_ hx
      rintro (h | rfl)
      · exact hx (beq_trans h hy)
      · exact hx hy
    · rw [key_of_ne_zero hx, key_of_ne_zero hy, Float.toBits_inj]
      exact ⟨fun h => h.elim (eq_of_beq hx) id, .inr⟩

end Double

/-! ### An index of keys -/

/-- Values in the order in which they were first seen, and the keys of what was seen. -/
structure IndexedValues where
  values : List Float
  seen : Std.HashSet UInt64

namespace IndexedValues

open Double (key)

/-- No values. -/
def empty : IndexedValues := ⟨[], ∅⟩

/-- Lists a value if its key was not seen before, and tells whether it was new. -/
def insert (v : IndexedValues) (x : Float) : Bool × IndexedValues :=
  if v.seen.contains (key x) then (false, v)
  else (true, ⟨v.values ++ [x], v.seen.insert (key x)⟩)

/-- The values that were listed one after the other. -/
def insertAll (v : IndexedValues) (xs : List Float) : IndexedValues :=
  xs.foldl (fun v x => (v.insert x).2) v

/-- Whether a list with an index holds what a list without one does: it has the same values, and
the index holds their keys, one for each value. -/
structure Indexes (v : IndexedValues) (d : DistinctValues Float) : Prop where
  values : v.values = d.values
  mem_seen : ∀ k, k ∈ v.seen ↔ ∃ x ∈ d.values, key x = k
  size_seen : v.seen.size = d.values.length

/-- Nothing was seen at first. -/
theorem indexes_empty : empty.Indexes .empty :=
  ⟨rfl, by simp [empty, DistinctValues.empty], rfl⟩

/-- The index knows whether a value is new. -/
theorem Indexes.isNew_eq {v : IndexedValues} {d : DistinctValues Float} (h : v.Indexes d)
    (x : Float) : d.isNew x = !v.seen.contains (key x) := by
  have hany : d.values.any (Scalar.same · x) = v.seen.contains (key x) := by
    rw [Bool.eq_iff_iff, List.any_eq_true, Std.HashSet.contains_iff_mem, h.mem_seen]
    simp only [Double.same_iff]
  rw [DistinctValues.isNew, hany]

/-- **One insertion** gives the same answer with an index and without one, and keeps the index. -/
theorem Indexes.insert {v : IndexedValues} {d : DistinctValues Float} (h : v.Indexes d)
    (x : Float) : (v.insert x).1 = d.isNew x ∧ (v.insert x).2.Indexes (d.insert x) := by
  rw [DistinctValues.insert, IndexedValues.insert, h.isNew_eq]
  cases hseen : v.seen.contains (key x) with
  | true => exact ⟨rfl, h⟩
  | false =>
      have hnew : key x ∉ v.seen := by simpa using hseen
      refine ⟨rfl, congrArg (· ++ [x]) h.values, fun k => ?_, ?_⟩
      · change k ∈ v.seen.insert (key x) ↔ ∃ y ∈ d.values ++ [x], key y = k
        rw [Std.HashSet.mem_insert, beq_iff_eq, h.mem_seen]
        simp only [List.mem_append, List.mem_singleton, or_and_right, exists_or, exists_eq_left]
        exact or_comm
      · change (v.seen.insert (key x)).size = (d.values ++ [x]).length
        rw [Std.HashSet.size_insert, if_neg hnew, h.size_seen, List.length_append]
        rfl

/-- **A list with an index and one without list the same.** -/
theorem Indexes.insertAll {v : IndexedValues} {d : DistinctValues Float} (h : v.Indexes d)
    (xs : List Float) : (v.insertAll xs).Indexes (d.insertAll xs) := by
  induction xs generalizing v d with
  | nil => exact h
  | cons x xs ih => exact ih (h.insert x).2

end IndexedValues

/-! ### Values that are numbers -/

namespace DistinctValues

open Scalar (isNaN)

variable {x : Float}

/-- A number is new exactly if it is not found. -/
theorem isNew_eq_not_contains (d : DistinctValues Float) (hx : isNaN x = false) :
    d.isNew x = !d.contains x := by
  have hany : (d.values.any fun y => Scalar.same y x) = d.values.any (· == x) := by
    congr 1
    funext y
    rw [Scalar.ListedNumbers.same_eq hx, Double.beq_comm]
  rw [isNew, hany, contains]

/-- A number is found after it was listed. -/
theorem contains_insert_self (d : DistinctValues Float) (hx : isNaN x = false) :
    (d.insert x).contains x = true := by
  have hself : (x == x) = true := by simpa [isNaN] using hx
  have hnew := d.isNew_eq_not_contains hx
  rw [insert]
  cases h : d.isNew x with
  | true => simp [contains, hself]
  | false => simpa [h] using hnew

/-- Listing a number keeps the values different from each other. -/
theorem pairwise_insert {d : DistinctValues Float}
    (h : d.values.Pairwise fun a b => (a == b) = false) (hx : isNaN x = false) :
    (d.insert x).values.Pairwise fun a b => (a == b) = false := by
  rw [insert]
  cases hnew : d.isNew x with
  | false => exact h
  | true =>
      rw [d.isNew_eq_not_contains hx, Bool.not_eq_true', contains, List.any_eq_false] at hnew
      rw [if_pos rfl, List.pairwise_append]
      refine ⟨h, List.pairwise_singleton _ x, fun a ha b hb => ?_⟩
      rw [List.mem_singleton.1 hb]
      exact Bool.eq_false_iff.2 (hnew a ha)

/-- What is listed after one more value. -/
theorem insertAll_concat (d : DistinctValues Float) (xs : List Float) (x : Float) :
    d.insertAll (xs ++ [x]) = (d.insertAll xs).insert x :=
  List.foldl_concat ..

/-- **Numbers are listed once each, in the order of first sight.** -/
theorem values_insertAll {xs : List Float} (hxs : ∀ x ∈ xs, isNaN x = false) :
    (empty.insertAll xs).values = xs.eraseDups ∧
      (empty.insertAll xs).values.Pairwise fun a b => (a == b) = false := by
  induction xs using List.reverseRecOn with
  | nil => exact ⟨rfl, .nil⟩
  | append_singleton xs x ih =>
      obtain ⟨hxs, hx⟩ := List.forall_mem_append.1 hxs
      obtain ⟨hvalues, hpairs⟩ := ih hxs
      have hx := hx x List.mem_cons_self
      rw [insertAll_concat]
      exact ⟨values_insert hvalues hx, pairwise_insert hpairs hx⟩

/-- **Distinct values are a set in the order of first sight.** Of numbers that are listed one after
the other, those stay that equal none before them, in their order, and no two of these are equal.
Each of them is new exactly if it was not found before, and it is found afterwards. With an index of
keys the answers and the values are the same, and there are as many keys as values. -/
theorem listed_once {xs : List Float} (hxs : ∀ x ∈ xs, isNaN x = false) :
    (empty.insertAll xs).values = xs.eraseDups ∧
    (empty.insertAll xs).values.Pairwise (fun a b => (a == b) = false) ∧
    (∀ before x after, xs = before ++ x :: after →
      (empty.insertAll before).isNew x = !(empty.insertAll before).contains x ∧
      ((empty.insertAll before).insert x).contains x = true ∧
      ((IndexedValues.empty.insertAll before).insert x).1 = (empty.insertAll before).isNew x) ∧
    (IndexedValues.empty.insertAll xs).values = (empty.insertAll xs).values ∧
    (IndexedValues.empty.insertAll xs).seen.size = (empty.insertAll xs).values.length := by
  obtain ⟨hvalues, hpairs⟩ := values_insertAll hxs
  have hindex := IndexedValues.indexes_empty.insertAll xs
  refine ⟨hvalues, hpairs, ?_, hindex.values, hindex.size_seen⟩
  rintro before x after rfl
  have hx := hxs x (List.mem_append_right _ List.mem_cons_self)
  exact ⟨isNew_eq_not_contains _ hx, contains_insert_self _ hx,
    ((IndexedValues.indexes_empty.insertAll before).insert x).1⟩

/-- Rates that repeat, with both zeros and an infinity. -/
def repeatedRates : List Float := [500, -0.0, 1200, 0.0, 500, 1 / 0, 1200]

/-- The zero that comes first is kept. -/
theorem listed_once_repeatedRates :
    (repeatedRates.all fun x => isNaN x = false) = true ∧
    (empty.insertAll repeatedRates).values = [500, -0.0, 1200, 1 / 0] ∧
    (IndexedValues.empty.insertAll repeatedRates).seen.size = 4 := by
  have hall : (repeatedRates.all fun x => isNaN x = false) = true := by decide +kernel
  obtain ⟨hvalues, -, -, -, hsize⟩ := listed_once fun x hx =>
    of_decide_eq_true (List.all_eq_true.1 hall x hx)
  have hlisted : (empty.insertAll repeatedRates).values = [500, -0.0, 1200, 1 / 0] :=
    hvalues.trans (by decide +kernel)
  exact ⟨hall, hlisted, hsize.trans (congrArg List.length hlisted)⟩

end DistinctValues

end DryRun
