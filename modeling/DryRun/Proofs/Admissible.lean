import DryRun.Proofs.Labels
import DryRun.Proofs.Number.Growth

/-!
# Admissible configurations

A configuration is checked part by part, and the first fault that is found ends the check. All
that a machine later on looks up by an index or divides by rests on what was checked, so this
module says without the check what is accepted (`Config.Admissible`), and which fault is reported
if the labels of the axes are to blame.

Each position of the labels is judged on its own: its label may be no letter, it may be reserved,
or it may occur at an earlier position, in either letter case (`Config.OffendsAt`). The fault that
is reported is that of the first such position. The three reasons do not get in each other's way
there: a label that repeats an earlier one is as good a letter as that one, which was passed.

## Main results

* `Config.fault?_eq_none`: a configuration has no fault exactly if it is admissible.
* `Config.labelFault?_eq_some`: the fault of the labels is that of the first offending position.
* `axisIndex?_eq_some`: which axis a letter names.
* `Config.accepted_exactly`: all of this for the check of a configuration, and for the state that a
  run starts from.
-/

namespace DryRun

open Scalar (isFinite GrowingSums OrderedNumbers)

variable {α : Type} [Scalar α]

/-! ### Values and limits -/

namespace Limit

/-- Which limits can be met on `n` axes: one for all of them or one for each, and all of them
finite and positive. -/
def Admissible (n : Nat) : Limit α → Prop
  | .uniform value => isFinite value = true ∧ 0 < value
  | .perAxis values =>
    values.length = n ∧ ∀ value ∈ values, isFinite value = true ∧ 0 < value

variable [GrowingSums α]

theorem isPositive_iff {x : α} : isPositive x = true ↔ isFinite x = true ∧ 0 < x := by
  rw [isPositive, Bool.and_eq_true, Bool.not_eq_true', decide_eq_false_iff_not]
  refine and_congr_right fun hfinite => ?_
  rw [OrderedNumbers.le_iff_not_lt (GrowingSums.isNaN_of_isFinite hfinite) GrowingSums.isNaN_zero,
    not_not]

theorem valueFault?_eq_none {field : String} {values : List α} :
    valueFault? field values = none ↔ ∀ value ∈ values, isFinite value = true ∧ 0 < value := by
  simp only [valueFault?, Option.map_eq_none_iff, List.find?_eq_none, Bool.not_eq_true,
    Bool.not_eq_false', isPositive_iff]

/-- **The check of a limit** accepts those that can be met. -/
theorem fault?_eq_none {field : String} {n : Nat} {l : Limit α} :
    l.fault? field n = none ↔ l.Admissible n := by
  cases l with
  | uniform value => simp [fault?, Admissible, valueFault?_eq_none]
  | perAxis values =>
      by_cases hlength : values.length = n
      · simp [fault?, Admissible, valueFault?_eq_none, hlength]
      · simp [fault?, Admissible, hlength]

end Limit

/-- The finite values that are not negative. -/
theorem Scalar.isFinite_and_not_neg_iff [GrowingSums α] {x : α} :
    (isFinite x && !decide (x < 0)) = true ↔ isFinite x = true ∧ 0 ≤ x := by
  rw [Bool.and_eq_true, Bool.not_eq_true', decide_eq_false_iff_not]
  refine and_congr_right fun hfinite => ?_
  rw [OrderedNumbers.le_iff_not_lt GrowingSums.isNaN_zero (GrowingSums.isNaN_of_isFinite hfinite)]

/-! ### Start states -/

namespace StartState

/-- Which start states a machine with `n` axes can start from: the lists that are given fit the
axes, there are not too many work coordinate systems, and the feed is finite and not negative. -/
structure Admissible (n : Nat) (i : StartState α) : Prop extends i.Fits n where
  systems_length : ∀ systems, i.systems = some systems → systems.length ≤ systemCount
  feed : ∀ feed, i.feed = some feed → isFinite feed = true ∧ 0 ≤ feed

variable [GrowingSums α]

theorem feedFault?_eq_none {i : StartState α} :
    i.feedFault? = none ↔ ∀ feed, i.feed = some feed → isFinite feed = true ∧ 0 ≤ feed := by
  unfold feedFault?
  split
  · next hi => simp [hi, ← Scalar.isFinite_and_not_neg_iff]
  · next hi => simp [hi]

/-- **The check of a start state** accepts those that a machine can start from. -/
theorem fault?_eq_none {n : Nat} {i : StartState α} : i.fault? n = none ↔ i.Admissible n := by
  constructor
  · intro h
    have hfits := fits_of_fault?_eq_none h
    simp only [fault?, Option.or_eq_none_iff] at h
    obtain ⟨⟨⟨⟨⟨-, hsystems⟩, -⟩, -⟩, -⟩, hfeed⟩ := h
    exact ⟨hfits, fun systems hi => (systemsFault?_eq_none.mp hsystems systems hi).1,
      feedFault?_eq_none.mp hfeed⟩
  · intro h
    simp only [fault?, Option.or_eq_none_iff, Option.bind_eq_none_iff, lengthFault?_eq_none]
    have hsystems : i.systemsFault? n = none := systemsFault?_eq_none.mpr fun systems hi =>
      ⟨h.systems_length systems hi, h.systems systems hi⟩
    exact ⟨⟨⟨⟨⟨systemFault?_eq_none.mpr h.system, hsystems⟩, h.offset⟩,
      referencesFault?_eq_none.mpr h.references⟩, h.machine⟩, feedFault?_eq_none.mpr h.feed⟩

end StartState

/-! ### Configurations -/

namespace Config

/-- **Which configurations are accepted.** -/
structure Admissible (c : Config α) : Prop where
  axes_ne_nil : c.axes ≠ []
  letter : ∀ label ∈ c.axes, label.isAlpha = true
  not_reserved : ∀ label ∈ c.axes, label.toUpper ∉ reservedLetters
  distinct : c.axes.Pairwise (·.toLower ≠ ·.toLower)
  maxFeed : c.maxFeed.Admissible c.axisCount
  acceleration : c.acceleration.Admissible c.axisCount
  minMoveTime : isFinite c.minMoveTime = true ∧ 0 ≤ c.minMoveTime
  start : ∀ i, c.start = some i → i.Admissible c.axisCount

theorem axesFault?_eq_none {labels : List Char} :
    axesFault? labels = none ↔ labels ≠ [] ∧ labelFault? [] labels = none := by
  cases labels <;> simp [axesFault?]

theorem minMoveTimeFault?_eq_none [GrowingSums α] {seconds : α} :
    minMoveTimeFault? seconds = none ↔ isFinite seconds = true ∧ 0 ≤ seconds := by
  simp [minMoveTimeFault?, ← Scalar.isFinite_and_not_neg_iff]

theorem validate_eq_error {c : Config α} {fault : ConfigFault} :
    c.validate = .error fault ↔ c.fault? = some fault := by
  rw [validate]
  cases c.fault? <;> simp

/-- **A configuration has no fault exactly if it is admissible.** -/
theorem fault?_eq_none [GrowingSums α] {c : Config α} : c.fault? = none ↔ c.Admissible := by
  simp only [fault?, Option.or_eq_none_iff, axesFault?_eq_none, labelFault?_eq_none,
    Limit.fault?_eq_none, minMoveTimeFault?_eq_none, Option.bind_eq_none_iff,
    StartState.fault?_eq_none]
  constructor
  · rintro ⟨⟨⟨⟨⟨hne, hletters, hdistinct, -⟩, hfeed⟩, haccel⟩, htime⟩, hstart⟩
    exact ⟨hne, fun label hl => (hletters label hl).1, fun label hl => (hletters label hl).2,
      hdistinct, hfeed, haccel, htime, hstart⟩
  · intro h
    exact ⟨⟨⟨⟨⟨h.axes_ne_nil, fun label hl => ⟨h.letter label hl, h.not_reserved label hl⟩,
      h.distinct, by simp⟩, h.maxFeed⟩, h.acceleration⟩, h.minMoveTime⟩, h.start⟩

end Config

/-! ### Offending labels -/

/-- The label that a fault reports. -/
def ConfigFault.label? : ConfigFault → Option Char
  | .duplicateAxis label | .reservedAxis label | .invalidAxis label => some label
  | _ => none

namespace Config

/-- What can be wrong with the label at a position: it is no letter, it is reserved, or it is the
label of an earlier position. -/
inductive OffendsAt (labels : List Char) (i : Nat) : ConfigFault → Prop
  | invalid {label : Char} (hi : labels[i]? = some label) (h : label.isAlpha = false) :
      OffendsAt labels i (.invalidAxis label)
  | reserved {label : Char} (hi : labels[i]? = some label)
      (h : label.toUpper ∈ reservedLetters) : OffendsAt labels i (.reservedAxis label)
  | duplicate {label other : Char} {j : Nat} (hi : labels[i]? = some label) (hj : j < i)
      (hother : labels[j]? = some other) (h : other.toLower = label.toLower) :
      OffendsAt labels i (.duplicateAxis label)

/-- The first offending position, and what is wrong with it. -/
def FirstOffence (labels : List Char) (i : Nat) (fault : ConfigFault) : Prop :=
  OffendsAt labels i fault ∧ ∀ j < i, ∀ other, ¬ OffendsAt labels j other

/-- A fault of a position reports the label that stands there. -/
theorem OffendsAt.getElem? {labels : List Char} {i : Nat} {fault : ConfigFault}
    (h : OffendsAt labels i fault) : labels[i]? = fault.label? := by
  cases h with
  | invalid hi | reserved hi | duplicate hi => exact hi

/-- Nothing is wrong with labels that have no fault. -/
theorem not_offendsAt {labels : List Char} (h : labelFault? [] labels = none) (i : Nat)
    (fault : ConfigFault) : ¬ OffendsAt labels i fault := by
  obtain ⟨hletters, hpairs, -⟩ := labelFault?_eq_none.1 h
  intro hoffends
  cases hoffends with
  | invalid hi hletter =>
      rw [(hletters _ (List.mem_of_getElem? hi)).1] at hletter
      cases hletter
  | reserved hi hreserved => exact (hletters _ (List.mem_of_getElem? hi)).2 hreserved
  | duplicate hi hj hother hcase =>
      obtain ⟨hlt, rfl⟩ := List.getElem?_eq_some_iff.1 hi
      obtain ⟨hlt', rfl⟩ := List.getElem?_eq_some_iff.1 hother
      exact List.pairwise_iff_getElem.1 hpairs _ _ hlt' hlt hj hcase

/-- A label that passes the check does not offend. -/
theorem not_offendsAt_length {earlier rest : List Char} {label : Char}
    (hletter : ¬ label.isAlpha = false) (hreserved : label.toUpper ∉ reservedLetters)
    (hindex : axisIndex? earlier label = none) (fault : ConfigFault) :
    ¬ OffendsAt (earlier ++ label :: rest) earlier.length fault := by
  intro hoffends
  cases hoffends with
  | invalid hi h =>
      obtain rfl : label = _ := by simpa using hi
      exact hletter h
  | reserved hi h =>
      obtain rfl : label = _ := by simpa using hi
      exact hreserved h
  | duplicate hi hj hother h =>
      obtain rfl : label = _ := by simpa using hi
      rw [List.getElem?_append_left hj] at hother
      exact axisIndex?_eq_none.1 hindex _ (List.mem_of_getElem? hother) h

/-- The fault that the check of some labels finds is that of an offending position, and no
position from its start on offends before it. -/
theorem exists_offendsAt {earlier labels : List Char} {fault : ConfigFault}
    (h : labelFault? earlier labels = some fault) :
    ∃ i, OffendsAt (earlier ++ labels) i fault ∧
      ∀ j, earlier.length ≤ j → j < i → ∀ other, ¬ OffendsAt (earlier ++ labels) j other := by
  induction labels generalizing earlier with
  | nil => cases h
  | cons label rest ih =>
      have hhere : (earlier ++ label :: rest)[earlier.length]? = some label := by simp
      simp only [labelFault?, Bool.not_eq_true', List.contains_iff_mem] at h
      split at h
      · next hletter =>
          cases h
          exact ⟨earlier.length, .invalid hhere hletter, by omega⟩
      · next hletter =>
        split at h
        · next hreserved =>
            cases h
            exact ⟨earlier.length, .reserved hhere hreserved, by omega⟩
        · next hreserved =>
          split at h
          · next hindex =>
              cases h
              obtain ⟨j, hj⟩ := Option.isSome_iff_exists.1 hindex
              obtain ⟨hlt, hcase, -⟩ := List.findIdx?_eq_some_iff_getElem.1 hj
              have hother : (earlier ++ label :: rest)[j]? = some earlier[j] := by
                rw [List.getElem?_append_left hlt, List.getElem?_eq_getElem hlt]
              exact ⟨earlier.length, .duplicate hhere hlt hother (of_decide_eq_true hcase),
                by omega⟩
          · next hindex =>
              rw [Option.not_isSome_iff_eq_none] at hindex
              obtain ⟨i, hoffends, hbefore⟩ := ih h
              rw [List.append_assoc, List.singleton_append, List.length_append] at hbefore
              rw [List.append_assoc, List.singleton_append] at hoffends
              refine ⟨i, hoffends, fun j hle hlt => ?_⟩
              rcases Nat.eq_or_lt_of_le hle with rfl | hlater
              · exact not_offendsAt_length hletter hreserved hindex
              · exact hbefore j hlater hlt

/-- A reserved label is a letter. -/
theorem isAlpha_of_reserved {label : Char} (h : label.toUpper ∈ reservedLetters) :
    label.isAlpha = true := by
  have hall : reservedLetters.all Char.isAlpha = true := by decide
  have hupper := List.all_eq_true.1 hall _ h
  rwa [← Label.isAlpha_toLower, Label.toLower_toUpper, Label.isAlpha_toLower] at hupper

/-- What is wrong with the first offending position is determined by its label: if that is a
letter and not reserved, then it occurs before. -/
theorem FirstOffence.eq {labels : List Char} {i : Nat} {fault : ConfigFault} {label : Char}
    (h : FirstOffence labels i fault) (hi : labels[i]? = some label) :
    fault = if label.isAlpha = false then .invalidAxis label
      else if label.toUpper ∈ reservedLetters then .reservedAxis label
      else .duplicateAxis label := by
  obtain ⟨hoffends, hbefore⟩ := h
  cases hoffends with
  | invalid hi' hletter =>
      cases hi.symm.trans hi'
      rw [if_pos hletter]
  | reserved hi' hreserved =>
      cases hi.symm.trans hi'
      rw [if_neg (by simp [isAlpha_of_reserved hreserved]), if_pos hreserved]
  | @duplicate _ other j hi' hj hother hcase =>
      cases hi.symm.trans hi'
      have hletter : ¬ label.isAlpha = false := by
        rw [← Label.isAlpha_toLower, ← hcase, Label.isAlpha_toLower]
        exact fun hinvalid => hbefore j hj _ (.invalid hother hinvalid)
      have hreserved : label.toUpper ∉ reservedLetters := by
        rw [← Label.toUpper_toLower, ← hcase, Label.toUpper_toLower]
        exact fun hreserved => hbefore j hj _ (.reserved hother hreserved)
      rw [if_neg hletter, if_neg hreserved]

/-- There is one first offending position, and one fault of it. -/
theorem FirstOffence.unique {labels : List Char} {i j : Nat} {fault other : ConfigFault}
    (h : FirstOffence labels i fault) (h' : FirstOffence labels j other) : fault = other := by
  obtain rfl : i = j := by
    rcases Nat.lt_trichotomy i j with hlt | heq | hlt
    · exact absurd h.1 (h'.2 i hlt fault)
    · exact heq
    · exact absurd h'.1 (h.2 j hlt other)
  obtain ⟨label, hi⟩ : ∃ label, labels[i]? = some label := by
    cases h.1 with
    | invalid hi | reserved hi | duplicate hi => exact ⟨_, hi⟩
  rw [h.eq hi, h'.eq hi]

/-- **The fault of the labels is that of the first offending position.** -/
theorem labelFault?_eq_some {labels : List Char} {fault : ConfigFault} :
    labelFault? [] labels = some fault ↔ ∃ i, FirstOffence labels i fault := by
  have hfirst {found : ConfigFault} (h : labelFault? [] labels = some found) :
      ∃ i, FirstOffence labels i found := by
    obtain ⟨i, hoffends, hbefore⟩ := exists_offendsAt h
    exact ⟨i, hoffends, fun j => hbefore j (Nat.zero_le j)⟩
  refine ⟨hfirst, ?_⟩
  rintro ⟨i, hi⟩
  cases h : labelFault? [] labels with
  | none => exact absurd hi.1 (not_offendsAt h i fault)
  | some found =>
      obtain ⟨j, hj⟩ := hfirst h
      rw [hi.unique hj]

end Config

/-! ### Faults with a label -/

/-- A limit's fault reports no label. -/
theorem Limit.label?_fault? {field : String} {n : Nat} {l : Limit α} {fault : ConfigFault}
    (h : l.fault? field n = some fault) : fault.label? = none := by
  have hvalues {values : List α} (h : valueFault? field values = some fault) :
      fault.label? = none := by
    obtain ⟨x, -, rfl⟩ := Option.map_eq_some_iff.1 h
    rfl
  cases l with
  | uniform value => exact hvalues h
  | perAxis values =>
      rw [fault?] at h
      split at h
      · exact hvalues h
      · cases h
        rfl

/-- A start state's fault reports no label. -/
theorem StartState.label?_fault? {n : Nat} {i : StartState α} {fault : ConfigFault}
    (h : i.fault? n = some fault) : fault.label? = none := by
  have hlength {field : String} {values : List α}
      (h : lengthFault? field n values = some fault) : fault.label? = none := by
    grind [lengthFault?, ConfigFault.label?]
  simp only [fault?, Option.or_eq_some_iff, Option.bind_eq_some_iff] at h
  rcases h with ((((h | ⟨-, h⟩) | ⟨-, _, -, h⟩) | ⟨-, h⟩) | ⟨-, _, -, h⟩) | ⟨-, h⟩
  · grind [systemFault?, ConfigFault.label?]
  · unfold systemsFault? at h
    split at h
    · split at h
      · cases h
        rfl
      · obtain ⟨_, -, h⟩ := List.exists_of_findSome?_eq_some h
        exact hlength h
    · cases h
  · exact hlength h
  · unfold referencesFault? at h
    split at h
    · rcases Option.or_eq_some_iff.1 h with h | ⟨-, h⟩ <;> exact hlength h
    · cases h
  · exact hlength h
  · grind [feedFault?, ConfigFault.label?]

namespace Config

/-- **A label is reported only by the check of the labels.** -/
theorem fault?_eq_some_of_label? {c : Config α} {fault : ConfigFault} {label : Char}
    (hlabel : fault.label? = some label) :
    c.fault? = some fault ↔ labelFault? [] c.axes = some fault := by
  have haxes : axesFault? c.axes = some fault ↔ labelFault? [] c.axes = some fault := by
    cases c.axes with
    | nil =>
        refine iff_of_false ?_ (by simp [labelFault?])
        rintro ⟨⟩
        cases hlabel
    | cons axis axes => simp [axesFault?]
  rw [← haxes]
  refine ⟨fun h => ?_, fun h => by simp [fault?, h]⟩
  simp only [fault?, Option.or_eq_some_iff, Option.bind_eq_some_iff] at h
  rcases h with (((h | ⟨-, h⟩) | ⟨-, h⟩) | ⟨-, h⟩) | ⟨-, i, -, h⟩
  · exact h
  · simp [Limit.label?_fault? h] at hlabel
  · simp [Limit.label?_fault? h] at hlabel
  · grind [minMoveTimeFault?, ConfigFault.label?]
  · simp [StartState.label?_fault? h] at hlabel

end Config

/-! ### The axis that a letter names -/

/-- The labels of a state are in lower case, which makes no difference to what a letter names. -/
theorem axisIndex?_map_toLower (axes : List Char) (letter : Char) :
    axisIndex? (axes.map Char.toLower) letter = axisIndex? axes letter := by
  simp only [axisIndex?, List.findIdx?_map, Function.comp_def, Label.toLower_toLower]

/-- **A letter names the axis whose label it is**, in either letter case. -/
theorem axisIndex?_eq_some {axes : List Char} (h : Config.labelFault? [] axes = none)
    {letter : Char} {i : Nat} :
    axisIndex? axes letter = some i ↔
      ∃ label, axes[i]? = some label ∧ label.toLower = letter.toLower := by
  constructor
  · intro hindex
    obtain ⟨hlt, hcase, -⟩ := List.findIdx?_eq_some_iff_getElem.1 hindex
    exact ⟨axes[i], List.getElem?_eq_getElem hlt, of_decide_eq_true hcase⟩
  · rintro ⟨label, hi, hcase⟩
    have hindex := axisIndex?_toUpper h hi
    rwa [axisIndex?, Label.toLower_toUpper, hcase] at hindex

namespace Config

/-- **Exactly the admissible configurations are accepted.** If the labels are to blame, then the
fault and the label that are reported are those of the first offending position: a label that
occurs twice is reported where it occurs again. In an accepted configuration a letter names the
axis whose label it is, in either letter case, and a run starts with a state in which it names the
same axis. -/
theorem accepted_exactly (c : Config Float) :
    (c.validate = .ok () ↔ c.Admissible) ∧
    (c.axes = [] → c.validate = .error .noAxes) ∧
    (∀ fault label, fault.label? = some label →
      (c.validate = .error fault ↔
        ∃ i, c.axes[i]? = some label ∧ FirstOffence c.axes i fault)) ∧
    (c.validate = .ok () →
      (∀ letter i, axisIndex? c.axes letter = some i ↔
        ∃ label, c.axes[i]? = some label ∧ label.toLower = letter.toLower) ∧
      ∃ s, State.start? c = .ok s ∧
        ∀ letter, s.axisIndex? letter = axisIndex? c.axes letter) := by
  refine ⟨validate_eq_ok.trans fault?_eq_none, ?_, ?_, ?_⟩
  · intro hnil
    rw [validate, fault?, axesFault?, hnil]
    rfl
  · intro fault label hlabel
    rw [validate_eq_error, fault?_eq_some_of_label? hlabel, labelFault?_eq_some]
    refine exists_congr fun i => (and_iff_right_of_imp fun hfirst => ?_).symm
    rw [hfirst.1.getElem?, hlabel]
  · intro hc
    refine ⟨fun letter i => axisIndex?_eq_some (labelFault?_axes hc), ?_⟩
    exact ⟨_, State.start?_of_validate hc, fun letter => axisIndex?_map_toLower c.axes letter⟩

/-- A machine with the same label twice, in both letter cases, before a label that is no letter. -/
def repeatedLabel : Config Float := { standard with axes := ['x', 'Y', 'y', '7'] }

/-- A machine with two axes that is resumed in the last of its work coordinate systems. -/
def resumedLathe : Config Float where
  axes := ['X', 'c']
  maxFeed := .perAxis [3000, 360]
  acceleration := .uniform 250
  minMoveTime := -0.0
  arcLengthTravel := true
  start := some { StartState.empty with
    system := some 5
    systems := some [[0.5, 90]]
    feed := some 0 }

/-- The second of two equal labels is reported, although a later one is no letter; and a machine
that is accepted finds its axes by letters in the other case. -/
theorem accepted_exactly_resumedLathe :
    (∃ i, repeatedLabel.axes[i]? = some 'y' ∧
      FirstOffence repeatedLabel.axes i (.duplicateAxis 'y')) ∧
    resumedLathe.Admissible ∧ axisIndex? resumedLathe.axes 'C' = some 1 ∧
    ∃ s, State.start? resumedLathe = .ok s ∧ s.axisIndex? 'C' = some 1 := by
  have hrepeated : repeatedLabel.validate = .error (.duplicateAxis 'y') :=
    validate_eq_error.2 (by decide +kernel)
  have haccepted : resumedLathe.validate = .ok () := validate_eq_ok.2 (by decide +kernel)
  obtain ⟨-, -, hreported, -⟩ := accepted_exactly repeatedLabel
  obtain ⟨hadmissible, -, -, hlookup⟩ := accepted_exactly resumedLathe
  obtain ⟨hindex, s, hstart, hsame⟩ := hlookup haccepted
  have hc : axisIndex? resumedLathe.axes 'C' = some 1 := (hindex 'C' 1).2 ⟨'c', rfl, by decide⟩
  exact ⟨(hreported _ 'y' rfl).1 hrepeated, hadmissible.1 haccepted, hc, s, hstart,
    (hsame 'C').trans hc⟩

end Config

end DryRun
