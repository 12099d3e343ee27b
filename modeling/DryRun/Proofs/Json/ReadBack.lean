import DryRun.Motion
import DryRun.Plane
import DryRun.Proofs.Json.RoundTrip
import DryRun.Spindle
import DryRun.Units

/-!
# Data that is read back

Typed data is written by one function and read by another, a decoder that may refuse. For each pair
of them this module says which data comes back from a written text: `Json.ReadsBack write read a`
holds if `read` gets `a` from what is read where `write` put it. It is a property of the datum and
not of the pair, because not all data has a text: an infinite number is written as null, and a count
may be beyond what its decoder accepts.

## Main results

* `Json.readsBack_ofOption`, `Json.readsBack_ofList`, `Json.readsBack_pair`: optional values, lists
  and pairs come back with their parts.
* `Json.readsBack_ofScalar`: a double comes back if it is finite.
* `Json.fields?_object`: an object with one member for each name has all fields of a record.
-/

namespace DryRun

namespace Double

/-- The decimal that names a double is written so that it can be read. -/
theorem isNormal_of_numeral {x : Float} {tie : Tie} {d : Decimal}
    (h : numeral tie x = .finite d) : d.IsNormal := by
  rw [numeral] at h
  split at h
  · cases h
  · cases h
  · cases h
    exact fun _ => rfl
  · cases h
    exact Decimal.isNormal_normalize _

end Double

namespace Json

variable {β : Type}

/-! ### Values that can be written -/

/-- A list can be written if all its items can. -/
theorem itemsNormal_iff {vs : List Json} : ItemsNormal vs ↔ ∀ v ∈ vs, v.IsNormal := by
  induction vs with
  | nil => simp [ItemsNormal]
  | cons v vs ih => simp [ItemsNormal, ih]

/-- An object can be written if the values of all its members can. -/
theorem membersNormal_iff {ms : List (String × Json)} :
    MembersNormal ms ↔ ∀ m ∈ ms, m.2.IsNormal := by
  induction ms with
  | nil => simp [MembersNormal]
  | cons m ms ih => simp [MembersNormal, ih]

/-- What is written of a double is a normal numeral or null. -/
theorem isNormal_ofScalar (x : Float) : (ofScalar x).IsNormal := by
  rw [ofScalar]
  split
  · next h => exact Double.isNormal_of_numeral h
  · trivial

/-- An optional value can be written if the value can. -/
theorem isNormal_ofOption {f : β → Json} (h : ∀ a, (f a).IsNormal) (x : Option β) :
    (ofOption f x).IsNormal := by
  cases x with
  | none => trivial
  | some a => exact h a

/-- A list of values can be written if the values can. -/
theorem isNormal_ofList {f : β → Json} (h : ∀ a, (f a).IsNormal) (xs : List β) :
    (ofList f xs).IsNormal := by
  refine itemsNormal_iff.mpr fun v hv => ?_
  obtain ⟨a, -, rfl⟩ := List.mem_map.mp hv
  exact h a

/-- A list of doubles can be written, whatever they are. -/
theorem isNormal_ofScalars (xs : List Float) : (ofScalars xs).IsNormal :=
  isNormal_ofList isNormal_ofScalar xs

/-! ### Values -/

/-- A list is read again item by item. -/
theorem rereadItems_eq (vs : List Json) : rereadItems vs = vs.map reread := by
  induction vs with
  | nil => rfl
  | cons v vs ih => rw [rereadItems, ih, List.map_cons]

/-- Whether a decoder gets `a` back from what was written of it. -/
def ReadsBack (write : β → Json) (read : Json → Option β) (a : β) : Prop :=
  read (write a).reread = some a

/-- An optional value is read back if it is absent, or if it is read back where it has to be
given; then its decoder has to refuse null. -/
theorem readsBack_ofOption {write : β → Json} {read : Json → Option β}
    (hnull : read .null = none) (x : Option β) :
    ReadsBack (ofOption write) (asOption? read) x ↔ ∀ a ∈ x, ReadsBack write read a := by
  cases x with
  | none => simp [ReadsBack, ofOption, reread, asOption?]
  | some a =>
      simp only [ReadsBack, ofOption, Option.mem_def, Option.some.injEq, forall_eq']
      generalize (write a).reread = v
      cases v <;> simp [asOption?, hnull]

/-- An optional value is read back if what is given passes the test for it. -/
theorem readsBack_ofOption_iff {write : β → Json} {read : Json → Option β} {test : β → Bool}
    (hnull : read .null = none) (h : ∀ a, ReadsBack write read a ↔ test a) (x : Option β) :
    ReadsBack (ofOption write) (asOption? read) x ↔ x.all test := by
  rw [readsBack_ofOption hnull, Option.all_eq_true]
  exact forall₂_congr fun a _ => h a

/-- All elements of a list are left as they are if each of them is. -/
theorem mapM_eq_some_self_iff {f : β → Option β} {xs : List β} :
    xs.mapM f = some xs ↔ ∀ a ∈ xs, f a = some a := by
  induction xs with
  | nil => simp
  | cons x xs ih => simp [List.mapM_cons, Option.bind_eq_some_iff, ih]

/-- A list is read back if all its items are. -/
theorem readsBack_ofList {write : β → Json} {read : Json → Option β} (xs : List β) :
    ReadsBack (ofList write) (asList? read) xs ↔ ∀ a ∈ xs, ReadsBack write read a := by
  rw [ReadsBack, ofList, reread, rereadItems_eq, List.map_map, asList?, List.mapM_map]
  exact mapM_eq_some_self_iff

/-- A list is read back if all its items pass the test for them. -/
theorem readsBack_ofList_iff {write : β → Json} {read : Json → Option β} {test : β → Bool}
    (h : ∀ a, ReadsBack write read a ↔ test a) (xs : List β) :
    ReadsBack (ofList write) (asList? read) xs ↔ xs.all test := by
  rw [readsBack_ofList, List.all_eq_true]
  exact forall₂_congr fun a _ => h a

/-- A pair is read back if both its parts are. -/
theorem readsBack_pair {write : β → Json} {read : Json → Option β} (p : β × β) :
    ReadsBack (fun p => .list [write p.1, write p.2]) (asPair? read) p ↔
      ReadsBack write read p.1 ∧ ReadsBack write read p.2 := by
  simp [ReadsBack, reread, rereadItems, asPair?, Option.bind_eq_some_iff, Prod.ext_iff]

/-- A truth value is read back. -/
theorem readsBack_bool (b : Bool) : ReadsBack .bool asBool? b := rfl

/-- A character is read back from the string that consists of it. -/
theorem readsBack_ofChar (c : Char) : ReadsBack ofChar asChar? c := by
  simp [ReadsBack, ofChar, reread, asChar?]

/-- An integer is read back if it is within the bounds of its type. -/
theorem readsBack_ofInt {lo hi n : Int} : ReadsBack ofInt (asInt? lo hi) n ↔ lo ≤ n ∧ n ≤ hi := by
  simp [ReadsBack, ofInt, reread, Number.reread, asInt?]

/-- A natural number is read back if it has no more bits than its type. -/
theorem readsBack_ofNat (bits n : Nat) :
    ReadsBack ofNat (asNat? bits) n ↔ n < Nat.pow 2 bits := by
  simp only [ReadsBack, ofNat, reread, Number.reread, asNat?, asInt?]
  generalize Nat.pow 2 bits = limit
  split
  · next h => exact iff_of_true rfl (by omega)
  · next h => exact iff_of_false (fun hnone => by cases hnone) (by omega)

/-- **A measured number is read back if it is finite**, and then it is the same double. -/
theorem readsBack_ofScalar {x : Float} : ReadsBack ofScalar asScalar? x ↔ Scalar.isFinite x := by
  constructor
  · intro h
    unfold ReadsBack asScalar? at h
    split at h
    · obtain ⟨hfinite, hx⟩ := Option.ite_none_right_eq_some.mp h
      exact Option.some.inj hx ▸ hfinite
    · cases h
  · intro h
    obtain ⟨d, hd⟩ := Double.exists_numeral_eq h .even
    have hvalue : Scalar.ofDecimal d.reread = x :=
      Double.ofDecimal_of_numeral hd d.negative_reread d.absValue_reread
    have hwrite : ofScalar x = .number (.decimal d) := by
      rw [ofScalar, show Scalar.numeral .even x = .finite d from hd]
    simp only [ReadsBack, hwrite, reread, Number.reread, asScalar?, hvalue, if_pos h]

/-- Doubles are read back if all of them are finite. -/
theorem readsBack_ofScalars (xs : List Float) :
    ReadsBack ofScalars (asList? asScalar?) xs ↔ xs.all Scalar.isFinite :=
  readsBack_ofList_iff (fun _ => readsBack_ofScalar) xs

/-! ### Records -/

/-- An object with one member for each name has all fields of the record. -/
theorem fields?_object {names : List String} {ms : List (String × Json)}
    (hnames : ms.map Prod.fst = names) (hnodup : names.Nodup) :
    fields? names (.object ms) =
      some ⟨false, fun name => (ms.find? (·.1 = name)).map (·.2)⟩ := by
  have hmember (name : String) : ∃ r, member? name ms = some r := by
    have hcount : (ms.filter (·.1 = name)).length ≤ 1 := by
      have hcount := List.nodup_iff_count_le_one.mp hnodup name
      rw [← hnames, List.count_eq_length_filter, List.filter_map, List.length_map] at hcount
      exact hcount
    rcases hfilter : ms.filter (·.1 = name) with - | ⟨m, - | ⟨m', ms'⟩⟩
    · exact ⟨_, by rw [member?, hfilter]⟩
    · exact ⟨_, by rw [member?, hfilter]⟩
    · rw [hfilter, List.length_cons, List.length_cons] at hcount
      omega
  have hall : ∃ rs, names.mapM (member? · ms) = some rs := by
    clear hnames hnodup
    induction names with
    | nil => exact ⟨[], rfl⟩
    | cons name names ih =>
        obtain ⟨r, hr⟩ := hmember name
        obtain ⟨rs, hrs⟩ := ih
        exact ⟨r :: rs, by simp [List.mapM_cons, hr, hrs]⟩
  obtain ⟨rs, hrs⟩ := hall
  rw [fields?, hrs]
  rfl

/-- A field is read, and then the fields after it. -/
theorem bind_eq_some {γ : Type} {x : Option β} {f : β → Option γ} {a : β} {b : γ}
    (hx : x = some a) (hf : f a = some b) : (x >>= f) = some b := by
  rw [hx]
  exact hf

end Json

/-! ### Modes -/

open Json

/-- Units are read back from their name. -/
theorem Units.readsBack (u : Units) : ReadsBack toJson ofJson? u := by cases u <;> rfl

/-- A plane is read back from its name. -/
theorem Plane.readsBack (p : Plane) : ReadsBack toJson ofJson? p := by cases p <;> rfl

/-- A direction of the spindle is read back from its name. -/
theorem Rotation.readsBack (r : Rotation) : ReadsBack toJson ofJson? r := by cases r <;> rfl

/-- The coolant is read back from the byte of its switches. -/
theorem Coolant.readsBack (c : Coolant) : ReadsBack toJson ofJson? c := by
  have hread : asNat? 8 (Json.ofNat c.raw.toNat).reread = some c.raw.toNat :=
    (readsBack_ofNat 8 _).mpr c.raw.toNat_lt
  rw [ReadsBack, toJson, ofJson?, hread, Option.map_some, Nat.toUInt8_eq, UInt8.ofNat_toNat]

/-- Whether the code of a motion is one that data can hold. -/
def Motion.isStorable : Motion → Bool
  | .unsupported code => minCode ≤ code && code ≤ maxCode
  | _ => true

/-- A motion is read back, unless it is an unsupported one with a code that data cannot hold. -/
theorem Motion.readsBack {m : Motion} : ReadsBack toJson ofJson? m ↔ m.isStorable := by
  cases m with
  | unsupported code =>
      have hread : ofJson? (toJson (.unsupported code)).reread =
          (asInt? minCode maxCode (ofInt code).reread).map .unsupported := rfl
      have hinjective := Option.map_injective fun _ _ h => Motion.unsupported.inj h
      rw [ReadsBack, hread, ← Option.map_some, hinjective.eq_iff, isStorable, Bool.and_eq_true,
        decide_eq_true_eq, decide_eq_true_eq]
      exact readsBack_ofInt
  | _ => exact iff_of_true rfl rfl

/-- Every motion can be written. -/
theorem Motion.isNormal_toJson (m : Motion) : m.toJson.IsNormal := by
  cases m with
  | unsupported code => exact ⟨trivial, trivial⟩
  | _ => trivial

end DryRun
