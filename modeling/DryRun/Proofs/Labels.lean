import DryRun.Proofs.Shape

/-!
# Labels of axes

A line names an axis by its letter, and it gives all other values by letters too. The two do
not get in each other's way because of what a configuration is checked for: no label is one of
the reserved letters, and no two labels are the same letter in different cases. So a word
belongs to one axis at most, and never to one if its letter has a meaning of its own.

## Main results

* `Config.labelFault?_eq_none`: what the check of the labels accepts.
* `axisIndex?_of_reserved`, `axisIndex?_toUpper`: which axis the letter of a word names.
* `Pose.Shaped.labelFault?_axes`: the labels in a state pass the check.
-/

namespace DryRun

/-! ### Letter case -/

namespace Label

/-- What holds of every ASCII character and of every character without case holds of all. -/
theorem char_cases {p : Char → Prop} (ascii : ∀ n, n < 128 → p (Char.ofNat n))
    (caseless : ∀ label, label.toUpper = label → label.toLower = label → p label)
    (label : Char) : p label := by
  by_cases h : label.toNat < 128
  · have hp := ascii label.toNat h
    rwa [Char.ofNat_toNat] at hp
  · have hbound (last : Char) (hlast : last.toNat < 128) : ¬ label.val ≤ last.val := by
      intro hle
      have := UInt32.le_iff_toNat_le.1 hle
      simp only [Char.toNat] at h hlast
      omega
    refine caseless label ?_ ?_
    · exact dif_neg fun hcase => hbound 'z' (by decide) hcase.2
    · exact dif_neg fun hcase => hbound 'Z' (by decide) hcase.2

/-- The lower case of a label does not depend on its case. -/
theorem toLower_toUpper (label : Char) : label.toUpper.toLower = label.toLower := by
  induction label using char_cases with
  | ascii n hn =>
      revert n
      decide
  | caseless label hupper _ => rw [hupper]

/-- The upper case of a label does not depend on its case. -/
theorem toUpper_toLower (label : Char) : label.toLower.toUpper = label.toUpper := by
  induction label using char_cases with
  | ascii n hn =>
      revert n
      decide
  | caseless label _ hlower => rw [hlower]

/-- The lower case is in lower case. -/
theorem toLower_toLower (label : Char) : label.toLower.toLower = label.toLower := by
  rw [← toLower_toUpper label.toLower, toUpper_toLower, toLower_toUpper]

/-- A letter is one in either case. -/
theorem isAlpha_toLower (label : Char) : label.toLower.isAlpha = label.isAlpha := by
  induction label using char_cases with
  | ascii n hn =>
      revert n
      decide
  | caseless label _ hlower => rw [hlower]

end Label

/-! ### The check of the labels -/

/-- No label names an axis if none is the letter in either case. -/
theorem axisIndex?_eq_none {labels : List Char} {label : Char} :
    axisIndex? labels label = none ↔ ∀ other ∈ labels, other.toLower ≠ label.toLower := by
  simp [axisIndex?, List.findIdx?_eq_none_iff]

namespace Config

/-- **The check of the labels** accepts letters that are not reserved and that are all
different, from each other and from the earlier ones, in either case. -/
theorem labelFault?_eq_none {earlier labels : List Char} :
    labelFault? earlier labels = none ↔
      (∀ label ∈ labels, label.isAlpha = true ∧ label.toUpper ∉ reservedLetters) ∧
        labels.Pairwise (·.toLower ≠ ·.toLower) ∧
        ∀ other ∈ earlier, ∀ label ∈ labels, other.toLower ≠ label.toLower := by
  induction labels generalizing earlier with
  | nil => simp [labelFault?]
  | cons label rest ih =>
      have hstep : labelFault? earlier (label :: rest) = none ↔
          label.isAlpha = true ∧ label.toUpper ∉ reservedLetters ∧
            axisIndex? earlier label = none ∧ labelFault? (earlier ++ [label]) rest = none := by
        simp only [labelFault?]
        split
        · simp_all
        · split
          · simp_all
          · cases axisIndex? earlier label <;> simp_all
      rw [hstep, ih, axisIndex?_eq_none]
      simp only [List.forall_mem_cons, List.pairwise_cons, List.forall_mem_append]
      grind

end Config

/-! ### The axis that a letter names -/

/-- Reserved letters are in upper case. -/
theorem toUpper_of_reserved {letter : Char} (hl : letter ∈ reservedLetters) :
    letter.toUpper = letter := by
  have hall : (reservedLetters.all fun letter => decide (letter.toUpper = letter)) = true := by
    decide
  exact of_decide_eq_true (List.all_eq_true.1 hall letter hl)

section Accepted

variable {axes : List Char} (h : Config.labelFault? [] axes = none)

include h

/-- A reserved letter names no axis. -/
theorem axisIndex?_of_reserved {letter : Char} (hl : letter ∈ reservedLetters) :
    axisIndex? axes letter = none := by
  rw [axisIndex?_eq_none]
  intro axis haxis hcase
  have hupper : axis.toUpper = letter := by
    rw [← Label.toUpper_toLower, hcase, Label.toUpper_toLower, toUpper_of_reserved hl]
  exact ((Config.labelFault?_eq_none.1 h).1 axis haxis).2 (hupper ▸ hl)

/-- The letter of an axis names that axis and no other. -/
theorem axisIndex?_toUpper {index : Nat} {axis : Char} (hi : axes[index]? = some axis) :
    axisIndex? axes axis.toUpper = some index := by
  obtain ⟨hlt, rfl⟩ := List.getElem?_eq_some_iff.1 hi
  have hpairs := List.pairwise_iff_getElem.1 (Config.labelFault?_eq_none.1 h).2.1
  rw [axisIndex?, List.findIdx?_eq_some_iff_getElem]
  refine ⟨hlt, decide_eq_true (Label.toLower_toUpper _).symm, ?_⟩
  intro other hother
  rw [Label.toLower_toUpper, decide_eq_true_iff]
  exact hpairs other index (Nat.lt_trans hother hlt) hlt hother

end Accepted

variable {α : Type} [Scalar α] {c : Config α}

/-- The labels of an accepted configuration pass the check. -/
theorem Config.labelFault?_axes (hc : c.validate = .ok ()) : labelFault? [] c.axes = none := by
  have hfault := validate_eq_ok.1 hc
  simp only [fault?, Option.or_eq_none_iff, axesFault?] at hfault
  split at hfault
  · simp at hfault
  · exact hfault.1.1.1.1

/-- The labels in a state pass the check, as those of its configuration do. -/
theorem Pose.Shaped.labelFault?_axes {p : Pose α} (hp : p.Shaped c) (hc : c.validate = .ok ()) :
    Config.labelFault? [] p.axes = none := by
  obtain ⟨hletters, hpairs, -⟩ := Config.labelFault?_eq_none.1 (Config.labelFault?_axes hc)
  rw [hp.axes, Config.labelFault?_eq_none]
  refine ⟨?_, ?_, by simp⟩
  · intro label hlabel
    obtain ⟨axis, haxis, rfl⟩ := List.mem_map.1 hlabel
    rw [Label.isAlpha_toLower, Label.toUpper_toLower]
    exact hletters axis haxis
  · simpa only [List.pairwise_map, Label.toLower_toLower] using hpairs

end DryRun
