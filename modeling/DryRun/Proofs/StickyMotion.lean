import DryRun.Proofs.SkippedMotion
import DryRun.Proofs.WordOrder

/-!
# The motion in force may be said

A motion stays in force until another one is given, so that the lines after it need not say it. A
line that does say it goes another way: its code is found among the modal words, it is the first
code of the motion group on the line, and it could be taken for an action or for a return. Still
nothing comes of it. The code belongs to no modal command, to no action and to no return
(`Motion.modal_of_ofCode?`, `Motion.ne_of_ofCode?`), and the motion that it selects is in force
already.

What differs is the catalogue of letters, as the line may have had no `G` word before.

## Main results

* `State.explicit_motion_redundant`: a line that says the motion in force does what it does
  without.
-/

namespace DryRun

variable {α : Type}

/-- The code of a motion selects it, if it is one of the modal motion group. -/
theorem Motion.code_of_ofCode? {code : Int} {m : Motion} (h : ofCode? code = some m) :
    m.code = code := by
  rw [ofCode?] at h
  split_ifs at h with h₀ h₁ h₂ h₃ <;> cases h
  all_goals first | rfl | exact Eq.symm ‹_›

/-! ### One more word -/

namespace Block

/-- The block with one more word, before the one at a position or at the end. -/
def insertWord (b : Block α) (i : Nat) (w : Word α) : Block α :=
  { b with words := b.words.take i ++ w :: b.words.drop i }

variable (b : Block α) (i : Nat) (w : Word α)

/-- The letters are those of the block and the one of the word. -/
theorem mem_letters_insertWord (letter : Char) :
    letter ∈ (b.insertWord i w).letters ↔ letter ∈ b.letters ++ [w.letter] := by
  have hwords : b.letters = (b.words.take i ++ b.words.drop i).map (·.letter) := by
    rw [List.take_append_drop, letters]
  rw [hwords]
  simp only [insertWord, letters, List.map_append, List.map_cons, List.mem_append, List.mem_cons,
    List.not_mem_nil, or_false]
  tauto

/-- The value of the word stands between those before it and those after it. -/
theorem values_insertWord (letter : Char) : ∃ before after,
    b.values letter = before ++ after ∧ (b.insertWord i w).values letter =
      before ++ (if w.letter = letter.toUpper then [w.value] else []) ++ after := by
  refine ⟨{ b with words := b.words.take i }.values letter,
    { b with words := b.words.drop i }.values letter, ?_, ?_⟩
  · rw [values, values, values, ← List.map_append, ← List.filter_append, List.take_append_drop]
  · simp only [values, insertWord, List.filter_append, List.filter_cons, decide_eq_true_eq]
    split <;> simp

/-- The values of the other letters are what they were. -/
theorem values_insertWord_of_ne {letter : Char} (h : letter.toUpper ≠ w.letter) :
    (b.insertWord i w).values letter = b.values letter := by
  obtain ⟨before, after, hvalues, hinsert⟩ := b.values_insertWord i w letter
  rw [hinsert, if_neg h.symm, List.append_nil, hvalues]

variable [Scalar α]

/-- Whoever ignores the code of the word reads the codes as they were. -/
theorem read_codes_insertWord {β : Type} {f : List Int → β}
    (hf : ∀ codes, f (codes.filter (· ≠ w.code)) = f codes) (letter : Char) :
    f ((b.insertWord i w).codes letter) = f (b.codes letter) := by
  have hothers : ((b.insertWord i w).codes letter).filter (· ≠ w.code) =
      (b.codes letter).filter (· ≠ w.code) := by
    obtain ⟨before, after, hvalues, hinsert⟩ := b.values_insertWord i w letter
    rw [codes, codes, hinsert, hvalues]
    split <;> simp [Word.code]
  rw [← hf, hothers, hf]

end Block

/-! ### Saying the motion in force -/

/-- The motion in force stays so after a line that selects no other one. -/
theorem motionInForce_of_forall {m : Motion} {codes : List Int}
    (h : ∀ code ∈ codes, ∀ m', Motion.ofCode? code = some m' → m' = m) :
    motionInForce (some m) codes = some m := by
  rw [motionInForce]
  split
  · rfl
  · cases hselected : selectedMotion? codes with
    | none => rfl
    | some m' =>
        obtain ⟨code, hcode, hm'⟩ := List.exists_of_findSome?_eq_some hselected
        rw [h code hcode m' hm', Option.some_or]

namespace State

variable [Scalar α]

/-- A word that says the motion in force, to be put on a line that selects and cancels none. -/
structure SaysMotion (s : State α) (b : Block α) (w : Word α) (m : Motion) : Prop where
  letter : w.letter = 'G'
  selects : Motion.ofCode? w.code = some m
  inForce : s.motion = some m
  keepsMotion : b.keepsMotion = true
  axes : ∀ axis ∈ s.axes, axis.toUpper ≠ 'G'

namespace SaysMotion

variable {s : State α} {b : Block α} {w : Word α} {m : Motion}

/-- The values of all letters but `G` are what they were. -/
theorem values (h : s.SaysMotion b w m) (i : Nat) (letter : Char)
    (hletter : letter.toUpper ≠ 'G') : (b.insertWord i w).values letter = b.values letter :=
  b.values_insertWord_of_ne i w (h.letter ▸ hletter)

/-- A code that is left out when the code of the word is left out is no modal one. -/
theorem modal (h : s.SaysMotion b w m) (code : Int) (hcode : decide (code ≠ w.code) = false) :
    ModalCommand.ofCode? code = none := by
  obtain rfl : code = w.code := by simpa using hcode
  exact Motion.modal_of_ofCode? h.selects

/-- What is read beside modal codes and motions is not left out. -/
theorem other (h : s.SaysMotion b w m) (code : Int)
    (hcode : code ∈ actionCodes ++ [280, 300, 530]) : decide (code ≠ w.code) = true :=
  decide_eq_true (Motion.ne_of_ofCode? h.selects hcode)

/-- A line that says the motion in force leaves it in force. -/
theorem motionInForce (h : s.SaysMotion b w m) (i : Nat) :
    DryRun.motionInForce (some m) ((b.insertWord i w).codes 'G') = some m := by
  refine motionInForce_of_forall fun code hcode m' hm' => ?_
  by_cases heq : code = w.code
  · rw [heq, h.selects] at hm'
    exact (Option.some.inj hm').symm
  · have hmem : code ∈ b.codes 'G' := by
      have hothers (codes : List Int) :
          (code ∈ codes.filter (· ≠ w.code)) = (code ∈ codes) := by simp [heq]
      exact (b.read_codes_insertWord i w hothers 'G').mp hcode
    have hkeeps := h.keepsMotion
    rw [Block.keepsMotion, Bool.and_eq_true, Option.isNone_iff_eq_none] at hkeeps
    rw [List.findSome?_eq_none_iff.1 hkeeps.1 code hmem] at hm'
    cases hm'

/-- The line has the orders that it had. -/
theorem sameOrders (h : s.SaysMotion b w m) (i : Nat) : s.SameOrders b (b.insertWord i w) := by
  have hread {β : Type} {f : List Int → β} :=
    fun hf => b.read_codes_insertWord (f := f) i w hf 'G'
  have hhome := h.other 280 (by decide)
  have hsecondary := h.other 300 (by decide)
  have hmachine := h.other 530 (by decide)
  refine ⟨?_, ?_, ?_, ?_, fun letter hletter => ?_⟩
  · exact hread fun codes => Action.ofCodes?_filter codes fun code hcode =>
      h.other code (List.mem_append_left _ hcode)
  · exact hread fun codes => returnMotion?_filter codes hhome hsecondary
  · rw [h.inForce, h.motionInForce, motionInForce_of_keepsMotion h.keepsMotion]
  · exact hread fun codes => contains_filter_of_pos codes hmachine
  · refine h.values i letter ?_
    rcases List.mem_append.1 hletter with hletter | hletter
    · have hupper : parameterLetters.all (fun letter => letter.toUpper ≠ 'G') = true := by decide
      exact of_decide_eq_true (List.all_eq_true.1 hupper letter hletter)
    · exact h.axes letter hletter

/-- The line is counted as it was, with one letter more. -/
theorem count (h : s.SaysMotion b w m) (i : Nat) :
    s.count (b.insertWord i w) = (s.count b).withLogbook
      { (s.count b).logbook with letters := (s.count b).catalogue.letters.insert 'G' } := by
  have hn := Block.get?_of_values (h.values i 'N' (by decide))
  have hletters : s.catalogue.letters.insertAll (b.insertWord i w).letters =
      (s.catalogue.letters.insertAll b.letters).insert 'G' := by
    rw [OrderedSet.insertAll_congr _ (b.mem_letters_insertWord i w), h.letter,
      OrderedSet.insertAll_append]
    rfl
  simp only [State.count, lineNumber?, hn, hletters]
  rfl

/-- The modal words of the line do what they did. -/
theorem applyModalWords (h : s.SaysMotion b w m) (i : Nat) (s' : State α) :
    s'.applyModalWords (b.insertWord i w) = s'.applyModalWords b := by
  have hp := Block.get?_of_values (h.values i 'P' (by decide))
  have hupper : modalLetters.all (fun letter => letter.toUpper ≠ 'G') = true := by decide
  refine applyModalWords_of_values (fun letter hl => h.values i letter ?_) ?_
  · exact of_decide_eq_true (List.all_eq_true.1 hupper letter hl)
  · rw [applyG_congr hp]
    exact b.read_codes_insertWord i w (fun codes => foldl_applyG_filter codes h.modal b s') 'G'

/-- The word says the motion in force after the modal words of the line as well. -/
theorem prepare (h : s.SaysMotion b w m) : (s.prepare b).SaysMotion b w m where
  letter := h.letter
  selects := h.selects
  inForce := (motion_prepare_of_keepsMotion s h.keepsMotion).trans h.inForce
  keepsMotion := h.keepsMotion
  axes := axes_prepare s b ▸ h.axes

end SaysMotion

/-- **A line that says the motion in force does what it does without.** The motion is one that
some code of the modal motion group selects, and the line selects and cancels none. No axis is
called `G`. Then a `G` word with the code of the motion may stand anywhere on the line: the result
is the same, and so is the state but for the letters that were seen. -/
theorem explicit_motion_redundant (c : Config α) {s : State α} {m : Motion}
    (hgroup : ∃ code, Motion.ofCode? code = some m) (hinForce : s.motion = some m)
    (haxes : ∀ axis ∈ s.axes, axis.toUpper ≠ 'G') {b : Block α} (hb : b.keepsMotion = true)
    {value : α} (hvalue : toCode value = m.code) (i : Nat) :
    (evaluate c s (b.insertWord i ⟨'G', value⟩)).result = (evaluate c s b).result ∧
      (evaluate c s (b.insertWord i ⟨'G', value⟩)).state =
        { (evaluate c s b).state with catalogue := { (evaluate c s b).state.catalogue with
            letters := (evaluate c s b).state.catalogue.letters.insert 'G' } } := by
  obtain ⟨code, hcode⟩ := hgroup
  have hselects : Motion.ofCode? (toCode value) = some m := by
    rw [hvalue, Motion.code_of_ofCode? hcode, hcode]
  have hword : s.SaysMotion b ⟨'G', value⟩ m := ⟨rfl, hselects, hinForce, hb, haxes⟩
  have horders := (hword.prepare).sameOrders i
  have hm := Block.codes_of_values (hword.values i 'M' (by decide))
  have hprepare : s.prepare (b.insertWord i ⟨'G', value⟩) = (s.prepare b).withLogbook
      { (s.count b).logbook with letters := (s.count b).catalogue.letters.insert 'G' } := by
    rw [prepare, hword.count, hword.applyModalWords, applyModalWords_withLogbook, prepare]
  have hmodal : modalChangesFrame (b.insertWord i ⟨'G', value⟩) = modalChangesFrame b := by
    rw [modalChangesFrame_eq, modalChangesFrame_eq]
    exact b.read_codes_insertWord i ⟨'G', value⟩
      (fun codes => codesChangeFrame_filter codes hword.modal) 'G'
  obtain ⟨hstate, hresult⟩ := evaluate_of_sameOrders_of_lines c hprepare
    (congrArg Logbook.lines (logbook_prepare s b).symm) horders hmodal (by rw [hm]) rfl
  have hletters : (s.count b).catalogue.letters = (evaluate c s b).state.catalogue.letters :=
    congrArg Logbook.letters (logbook_evaluate c s b).symm
  refine ⟨hresult, hstate.trans ?_⟩
  rw [← logbook_evaluate c s b, hletters]
  rfl

/-- A half circle, which leaves clockwise arcs in force. -/
def halfCircle : Block Float := .ofWords [⟨'G', 2⟩, ⟨'X', 5⟩, ⟨'I', 2.5⟩, ⟨'F', 100⟩]

/-- A full circle that gives nothing but its centre, at the end of the program. -/
def bareCentre : Block Float := .ofWords [⟨'I', 2.5⟩, ⟨'M', 30⟩]

/-- The full circle may say that it is one, between its two words. -/
theorem explicit_motion_redundant_bareCentre :
    ∃ s : State Float, s = (evaluate .standard (start .standard) halfCircle).state ∧
      Motion.ofCode? 20 = some .arcClockwise ∧ s.motion = some .arcClockwise ∧
      bareCentre.keepsMotion = true ∧ toCode (2 : Float) = Motion.arcClockwise.code ∧
      (evaluate .standard s bareCentre).result.isMotion = true ∧
      (bareCentre.insertWord 1 ⟨'G', 2⟩).words = [⟨'I', 2.5⟩, ⟨'G', 2⟩, ⟨'M', 30⟩] ∧
      (evaluate .standard s (bareCentre.insertWord 1 ⟨'G', 2⟩)).result =
        (evaluate .standard s bareCentre).result ∧
      (evaluate .standard s (bareCentre.insertWord 1 ⟨'G', 2⟩)).state =
        { (evaluate .standard s bareCentre).state with
          catalogue := { (evaluate .standard s bareCentre).state.catalogue with
            letters :=
              (evaluate .standard s bareCentre).state.catalogue.letters.insert 'G' } } := by
  have hinForce : (evaluate .standard (start .standard) halfCircle).state.motion =
      some .arcClockwise := by decide +kernel
  have haxes : (evaluate .standard (start .standard) halfCircle).state.axes.all
      (fun axis => axis.toUpper ≠ 'G') = true := by decide +kernel
  have hkeeps : bareCentre.keepsMotion = true := by decide +kernel
  have hcode : toCode (2 : Float) = Motion.arcClockwise.code := by decide +kernel
  refine ⟨_, rfl, rfl, hinForce, hkeeps, hcode, by decide +kernel, rfl, ?_⟩
  exact explicit_motion_redundant .standard ⟨20, rfl⟩ hinForce
    (fun axis h => of_decide_eq_true (List.all_eq_true.1 haxes axis h)) hkeeps hcode 1

end State

end DryRun
