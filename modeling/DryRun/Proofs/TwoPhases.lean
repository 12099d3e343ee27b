import DryRun.Proofs.SkippedMotion
import DryRun.Proofs.WordOrder

/-!
# A line in two phases

Evaluating a line is one long sequence of steps that read and write the same state. This module
shows that it has two phases and no more: first all modal words take effect, and then the line
acts or moves in the state that they lead to. To say so, a line is taken apart into two
(`Block.Phases`), one with its modal words and one with all others, and the two are evaluated one
after the other. Were a setting read before its word takes effect, or a coordinate system selected
after an offset was set, then this would show.

Three commands are left out. A wait is a modal word that reads the value of another one, and the
end of a program is carried out last, after the motion, though its word is a modal one.

The extra line is counted, and it may be flagged or not, so that the logbooks differ. The letters
in them do not, as the two lines have the letters of the one.

## Main results

* `State.TwoPhases`: what a line taken apart does, compared with the line.
* `State.modal_before_action`: every line has two phases.
-/

namespace DryRun

variable {α : Type}

/-! ### Taking a line apart -/

variable [Scalar α]

/-- Whether a word is a modal one. A `G` word is, unless its code belongs to a motion, to a return,
to an action or to machine coordinates. -/
def Word.isModal (w : Word α) : Bool :=
  modalLetters.contains w.letter || (w.letter = 'G' && !isActionCode w.code)

/-- A line taken apart into one with its modal words and one with all others, both in order. The
texts of the two may be any. -/
structure Block.Phases (b modal action : Block α) : Prop where
  modal : modal.words = b.words.filter Word.isModal
  action : action.words = b.words.filter fun w => !w.isModal

/-- Codes that are evaluated outside the modal words are no modal commands. -/
theorem ModalCommand.ofCode?_of_isActionCode {code : Int} (h : isActionCode code = true) :
    ModalCommand.ofCode? code = none := by
  have htable : ModalCommand.table.all (fun x => !isActionCode x.1) = true := by decide
  refine Option.eq_none_iff_forall_ne_some.2 fun command hcommand => ?_
  have hnot := List.all_eq_true.1 htable _ (mem_of_lookup_eq_some hcommand)
  rw [h] at hnot
  cases hnot

theorem modal_of_not_isActionCode (code : Int) (h : (!isActionCode code) = false) :
    ModalCommand.ofCode? code = none :=
  ModalCommand.ofCode?_of_isActionCode (by simpa using h)

/-- The codes of actions, of returns and of machine coordinates are evaluated outside the modal
words. -/
theorem isActionCode_of_mem {code : Int} (h : code ∈ actionCodes ++ [280, 300, 530]) :
    isActionCode code = true := by
  have hall : (actionCodes ++ [280, 300, 530]).all isActionCode = true := by decide
  exact List.all_eq_true.1 hall code h

namespace Block

omit [Scalar α] in
/-- Where only some words of a line are kept, all values of a letter are kept if its words are. -/
theorem values_of_filter {b b' : Block α} {p : Word α → Bool} (h : b'.words = b.words.filter p)
    {letter : Char} (hp : ∀ w : Word α, w.letter = letter.toUpper → p w = true) :
    b'.values letter = b.values letter := by
  rw [values, h, List.filter_filter, values]
  refine congrArg (List.map _) (List.filter_congr fun w _ => ?_)
  by_cases hw : w.letter = letter.toUpper
  · simp [hw, hp w hw]
  · simp [hw]

omit [Scalar α] in
/-- Where only some words of a line are kept, a letter is lost if its words are. -/
theorem values_eq_nil_of_filter {b b' : Block α} {p : Word α → Bool}
    (h : b'.words = b.words.filter p) {letter : Char}
    (hp : ∀ w : Word α, w.letter = letter.toUpper → p w = false) : b'.values letter = [] := by
  rw [values, h, List.map_eq_nil_iff, List.filter_eq_nil_iff]
  intro w hw hletter
  rw [List.mem_filter, hp w (of_decide_eq_true hletter)] at hw
  cases hw.2

/-- Where words of a line are kept by their codes, so are the codes. -/
theorem codes_of_filter {b b' : Block α} {p : Word α → Bool} {q : Int → Bool}
    (h : b'.words = b.words.filter p) {letter : Char}
    (hp : ∀ w : Word α, w.letter = letter.toUpper → p w = q w.code) :
    b'.codes letter = (b.codes letter).filter q := by
  rw [codes, values, h, codes, values, List.map_map, List.map_map, List.filter_map,
    List.filter_filter, List.filter_filter]
  refine congrArg (List.map _) (List.filter_congr fun w _ => ?_)
  by_cases hw : w.letter = letter.toUpper
  · simp [hw, hp w hw, Word.code]
  · simp [hw]

end Block

namespace Block.Phases

variable {b modal action : Block α} (h : b.Phases modal action)

include h

/-- The values of a letter whose words are all modal stand on the first line. -/
theorem values_modal (letter : Char) (hl : letter.toUpper ∈ modalLetters) :
    modal.values letter = b.values letter ∧ action.values letter = [] := by
  have hmodal (w : Word α) (hw : w.letter = letter.toUpper) : w.isModal = true := by
    simp [Word.isModal, hw, hl]
  exact ⟨values_of_filter h.modal hmodal,
    values_eq_nil_of_filter h.action fun w hw => by rw [hmodal w hw, Bool.not_true]⟩

/-- The values of a letter that has no modal words stand on the second line. -/
theorem values_action {letter : Char} (hg : letter.toUpper ≠ 'G')
    (hl : letter.toUpper ∉ modalLetters) :
    modal.values letter = [] ∧ action.values letter = b.values letter := by
  have hmodal (w : Word α) (hw : w.letter = letter.toUpper) : w.isModal = false := by
    simp [Word.isModal, hw, hl, hg]
  exact ⟨values_eq_nil_of_filter h.modal hmodal,
    values_of_filter h.action fun w hw => by rw [hmodal w hw, Bool.not_false]⟩

/-- The `G` codes go to one line or the other. -/
theorem codes_modal : modal.codes 'G' = (b.codes 'G').filter fun code => !isActionCode code :=
  codes_of_filter h.modal fun w (hw : w.letter = 'G') => by simp [Word.isModal, hw, modalLetters]

theorem codes_action : action.codes 'G' = (b.codes 'G').filter isActionCode :=
  codes_of_filter h.action fun w (hw : w.letter = 'G') => by simp [Word.isModal, hw, modalLetters]

/-- The second line has no modal code. -/
theorem filter_codes_action : (action.codes 'G').filter (fun code => !isActionCode code) = [] := by
  rw [h.codes_action, List.filter_filter, List.filter_eq_nil_iff]
  intro code _
  rw [Bool.not_and_self]
  exact Bool.false_ne_true

/-- The first line has no code that is evaluated outside the modal words. -/
theorem not_mem_modal (code : Int) (hcode : isActionCode code = true) :
    code ∉ modal.codes 'G' := by
  rw [h.codes_modal, List.mem_filter, hcode]
  exact fun hmem => Bool.false_ne_true hmem.2

/-- The first line gives no value to the other letters. -/
theorem get?_modal {letter : Char} (hg : letter.toUpper ≠ 'G')
    (hl : letter.toUpper ∉ modalLetters) : modal.get? letter = none := by
  rw [get?_eq_head?, (h.values_action hg hl).1, List.head?_nil]

/-- The second line gives no value to the letters of modal words. -/
theorem get?_action (letter : Char) (hl : letter.toUpper ∈ modalLetters) :
    action.get? letter = none := by
  rw [get?_eq_head?, (h.values_modal letter hl).2, List.head?_nil]

/-- The second line switches nothing. -/
theorem codes_action_eq_nil : action.codes 'M' = [] := by
  rw [codes, (h.values_modal 'M' (by decide)).2, List.map_nil]

/-- The two lines have the letters of the one. -/
theorem mem_letters (letter : Char) :
    letter ∈ modal.letters ++ action.letters ↔ letter ∈ b.letters := by
  simp only [letters, h.modal, h.action, List.mem_append, List.mem_map, List.mem_filter]
  constructor
  · rintro (⟨w, ⟨hw, -⟩, rfl⟩ | ⟨w, ⟨hw, -⟩, rfl⟩) <;> exact ⟨w, hw, rfl⟩
  · rintro ⟨w, hw, rfl⟩
    cases hmodal : w.isModal with
    | true => exact .inl ⟨w, ⟨hw, hmodal⟩, rfl⟩
    | false => exact .inr ⟨w, ⟨hw, by rw [hmodal, Bool.not_false]⟩, rfl⟩

end Block.Phases

namespace State

/-! ### The first phase -/

/-- A line that can be taken apart on a machine: it neither waits nor ends the program, and no
axis has the letter of a modal word. -/
structure Separable (s : State α) (b : Block α) : Prop where
  dwell : 40 ∉ b.codes 'G'
  ends : 20 ∉ b.codes 'M' ∧ 300 ∉ b.codes 'M'
  axes : ∀ axis ∈ s.axes, axis.toUpper ≠ 'G' ∧ axis.toUpper ∉ modalLetters

/-- Codes that do not wait read nothing of their line. -/
theorem foldl_applyG_of_no_dwell (b b' : Block α) {codes : List Int} (h : 40 ∉ codes)
    (s : State α) : codes.foldl (applyG b') s = codes.foldl (applyG b) s := by
  refine List.foldl_ext _ _ _ fun s code hcode => ?_
  rw [applyG, applyG]
  cases hc : ModalCommand.ofCode? code with
  | none => rfl
  | some command =>
      cases command with
      | dwell => exact absurd (ModalCommand.ofCode?_eq_dwell.1 hc ▸ hcode) h
      | system _ | feedMode _ | plane _ | units _ | cancelMotion | distanceMode _ => rfl

section Phases

variable {s : State α} {b modal action : Block α} (h : b.Phases modal action)

include h

/-- The modal words of the first line are those of the line. -/
theorem applyModalWords_modal (hdwell : 40 ∉ b.codes 'G') (s : State α) :
    s.applyModalWords modal = s.applyModalWords b := by
  have hupper : modalLetters.all (fun letter => letter.toUpper ∈ modalLetters) = true := by decide
  refine applyModalWords_of_values (fun letter hl => (h.values_modal letter ?_).1) ?_
  · exact of_decide_eq_true (List.all_eq_true.1 hupper letter hl)
  · rw [h.codes_modal, foldl_applyG_filter _ modal_of_not_isActionCode,
      foldl_applyG_of_no_dwell b modal hdwell]

/-- The first line prepares the machine as the line does. -/
theorem prepare_modal (hdwell : 40 ∉ b.codes 'G') :
    s.prepare modal = (s.prepare b).withLogbook (s.count modal).logbook := by
  have hn := Block.get?_of_values (h.values_modal 'N' (by decide)).1
  have hcount : s.count modal = (s.count b).withLogbook (s.count modal).logbook := by
    simp only [count, lineNumber?, hn]
    rfl
  calc s.prepare modal
    _ = (s.count modal).applyModalWords b := applyModalWords_modal h hdwell _
    _ = ((s.count b).withLogbook (s.count modal).logbook).applyModalWords b := by rw [← hcount]
    _ = (s.prepare b).withLogbook (s.count modal).logbook := applyModalWords_withLogbook _ _ b

/-- The first line asks for no motion, and leaves the one in force. -/
theorem motionInForce_modal (current : Option Motion) :
    returnMotion? (modal.codes 'G') = none ∧
      motionInForce current (modal.codes 'G') = current := by
  have hhome := h.not_mem_modal 280 (by decide)
  have hsecondary := h.not_mem_modal 300 (by decide)
  have hselected : selectedMotion? (modal.codes 'G') = none := by
    refine List.findSome?_eq_none_iff.2 fun code hcode => ?_
    refine Option.eq_none_iff_forall_ne_some.2 fun m hm => h.not_mem_modal code ?_ hcode
    rw [isActionCode, hm, Option.isSome_some, Bool.or_true]
  constructor
  · simp [returnMotion?, hhome, hsecondary]
  · rw [motionInForce, hselected, Option.none_or, ite_self]

/-- The first line does nothing but prepare the machine. -/
theorem step_modal (c : Config α)
    (haxes : ∀ axis ∈ s.axes, axis.toUpper ≠ 'G' ∧ axis.toUpper ∉ modalLetters) :
    ∃ notes, s.step c modal = s.idle false notes := by
  have haction : Action.ofCodes? (modal.codes 'G') = none :=
    Action.ofCodes?_eq_none_iff.2 fun code hcode =>
      h.not_mem_modal code (isActionCode_of_mem (List.mem_append_left _ hcode))
  obtain ⟨hreturns, hinForce⟩ := motionInForce_modal h s.motion
  have hselects : s.selectMotion (modal.codes 'G') = s := by rw [selectMotion, hinForce]
  have hnamed : anyNamed (axisWords s.axes modal) = false := by
    refine List.any_eq_false.2 fun word hword => ?_
    obtain ⟨axis, haxis, rfl⟩ := List.mem_map.1 hword
    rw [h.get?_modal (haxes axis haxis).1 (haxes axis haxis).2]
    exact Bool.false_ne_true
  have hcentre : hasCentre modal = false := by
    simp only [hasCentre, Block.has_eq_isSome_get?]
    rw [h.get?_modal (by decide) (by decide), h.get?_modal (by decide) (by decide),
      h.get?_modal (by decide) (by decide)]
    rfl
  have hmotion : s.blockMotion? modal = none := by
    rw [blockMotion?, lineMotion?, hreturns, hnamed, hcentre]
    simp
  rw [step_of_no_action c s haction, hmotion, hselects]
  exact ⟨_, rfl⟩

/-! ### The second phase -/

/-- The second line has no modal words. -/
theorem applyModalWords_action (s : State α) : s.applyModalWords action = s := by
  have hf := h.get?_action 'F' (by decide)
  have hs := h.get?_action 'S' (by decide)
  have ht := (h.values_modal 'T' (by decide)).2
  have hm := h.codes_action_eq_nil
  have hg : (action.codes 'G').foldl (applyG action) s = s := by
    rw [← foldl_applyG_filter _ modal_of_not_isActionCode, h.filter_codes_action, List.foldl_nil]
  simp only [applyModalWords, applyFeed, applySpeed, applyTools, hf, hs, ht, hm, hg]
  rfl

/-- The second line is counted, and prepares nothing else. -/
theorem prepare_action : s.prepare action = s.withLogbook (s.count action).logbook := by
  have hn := h.get?_action 'N' (by decide)
  rw [prepare, applyModalWords_action h]
  simp only [count, lineNumber?, hn]
  rfl

/-- The second line selects no other frame. -/
theorem modalChangesFrame_action : modalChangesFrame action = false := by
  rw [modalChangesFrame_eq, ← codesChangeFrame_filter _ modal_of_not_isActionCode,
    h.filter_codes_action]
  rfl

/-- The second line has the orders of the line. -/
theorem sameOrders_action
    (haxes : ∀ axis ∈ s.axes, axis.toUpper ≠ 'G' ∧ axis.toUpper ∉ modalLetters) :
    s.SameOrders b action := by
  have hreturns : returnMotion? (action.codes 'G') = returnMotion? (b.codes 'G') := by
    rw [h.codes_action, returnMotion?_filter _ (by decide) (by decide)]
  have hselected : selectedMotion? (action.codes 'G') = selectedMotion? (b.codes 'G') := by
    rw [h.codes_action, selectedMotion?, findSome?_filter_of_neg, selectedMotion?]
    intro code hcode
    rw [isActionCode, Bool.or_eq_false_iff] at hcode
    simpa using hcode.2
  refine ⟨?_, hreturns, ?_, ?_, fun letter hletter => ?_⟩
  · rw [h.codes_action, Action.ofCodes?_filter]
    exact fun code hcode => isActionCode_of_mem (List.mem_append_left _ hcode)
  · rw [motionInForce, hreturns, hselected, motionInForce]
  · rw [h.codes_action, contains_filter_of_pos _ (by decide)]
  · rcases List.mem_append.1 hletter with hletter | hletter
    · have hall : parameterLetters.all (fun letter =>
          letter.toUpper ≠ 'G' ∧ letter.toUpper ∉ modalLetters) = true := by decide
      have hother := of_decide_eq_true (List.all_eq_true.1 hall letter hletter)
      exact (h.values_action hother.1 hother.2).2
    · exact (h.values_action (haxes letter hletter).1 (haxes letter hletter).2).2

end Phases

/-! ### Both phases -/

/-- What two lines do one after the other, compared with one line: the first has the modal words
and does nothing else, and the second one acts. -/
structure TwoPhases (c : Config α) (s : State α) (b modal action : Block α) : Prop where
  /-- The states differ at most in their logbooks. -/
  state : (evaluate c (evaluate c s modal).state action).state =
    (evaluate c s b).state.withLogbook (evaluate c (evaluate c s modal).state action).state.logbook
  /-- There is one more line in the logbook. -/
  lines : (evaluate c (evaluate c s modal).state action).state.catalogue.lines =
    (evaluate c s b).state.catalogue.lines + 1
  /-- The letters in the logbook are the same. -/
  letters : (evaluate c (evaluate c s modal).state action).state.catalogue.letters =
    (evaluate c s b).state.catalogue.letters
  /-- The first line performs no motion. -/
  modalMotion : (evaluate c s modal).result.isMotion = false ∧
    (evaluate c s modal).result.motion = none ∧ (evaluate c s modal).result.events = []
  /-- The first line takes no time. -/
  modalTime : (evaluate c s modal).state.totalTime = s.totalTime
  /-- Its result says so, as long as the time of the run is finite. -/
  modalResultTime : (evaluate c s modal).result.time = 0 ↔ Scalar.isFinite s.totalTime = true
  /-- The second line performs the motion of the line. -/
  actionMotion : (evaluate c (evaluate c s modal).state action).result.isMotion =
      (evaluate c s b).result.isMotion ∧
    (evaluate c (evaluate c s modal).state action).result.motion =
      (evaluate c s b).result.motion
  /-- The second line takes the time of the line. -/
  actionTime : (evaluate c (evaluate c s modal).state action).result.time =
    (evaluate c s b).result.time
  /-- The events of the second line are those of the line, under the next number. -/
  actionEvents : (evaluate c (evaluate c s modal).state action).result.events =
    (evaluate c s b).result.events.map (·.onLine ((evaluate c s b).state.catalogue.lines + 1))
  /-- The line announces a change of the frame if one of the two does. -/
  changedFrame : (evaluate c s b).result.changedFrame =
    ((evaluate c s modal).result.changedFrame ||
      (evaluate c (evaluate c s modal).state action).result.changedFrame)

/-- Preparing a line that does not wait takes no time. -/
theorem totalTime_prepare_of_no_dwell (s : State α) {b : Block α} (h : 40 ∉ b.codes 'G') :
    (s.prepare b).totalTime = s.totalTime := by
  have hdwells : b.dwells = [] := by
    rw [Block.dwells, List.count_eq_zero.2 h]
    cases b.get? 'P' with
    | none => rfl
    | some seconds => exact ite_self _
  rw [totalTime_prepare, hdwells, List.foldl_nil]

/-- So the first line takes no time to prepare. -/
theorem totalTime_prepare_modal (s : State α) {b modal action : Block α}
    (h : b.Phases modal action) (hdwell : 40 ∉ b.codes 'G') :
    (s.prepare modal).totalTime = s.totalTime := by
  rw [prepare_modal h hdwell, ← totalTime_prepare_of_no_dwell s hdwell]
  rfl

/-- All that the first line does is to prepare the machine. -/
theorem evaluate_modal (c : Config α) {s : State α} {b modal action : Block α}
    (h : b.Phases modal action) (hs : s.Separable b) :
    (evaluate c s modal).state = s.prepare modal ∧ (evaluate c s modal).result =
      ⟨false, none, modalChangesFrame b, s.totalTime - s.totalTime, []⟩ := by
  obtain ⟨notes, hstep⟩ := step_modal (s := s.prepare modal) h c (axes_prepare s modal ▸ hs.axes)
  have hm := Block.codes_of_values (h.values_modal 'M' (by decide)).1
  have hends : endsProgram (modal.codes 'M') = false := by
    rw [hm]
    simp [endsProgram, hs.ends]
  have hframe : modalChangesFrame modal = modalChangesFrame b := by
    rw [modalChangesFrame_eq, h.codes_modal, codesChangeFrame_filter _ modal_of_not_isActionCode,
      modalChangesFrame_eq]
  have htime := totalTime_prepare_modal s h hs.dwell
  constructor
  · simp [evaluate, hstep, finish, hends, idle]
  · simp [evaluate, hstep, finish, hends, idle, hframe, htime]

/-- Behind the first line, the second one prepares the machine as the line does. -/
theorem prepare_evaluate_modal (c : Config α) {s : State α} {b modal action : Block α}
    (h : b.Phases modal action) (hs : s.Separable b) :
    (evaluate c s modal).state.prepare action =
      (s.prepare b).withLogbook ((evaluate c s modal).state.count action).logbook := by
  rw [prepare_action h]
  nth_rewrite 1 [(evaluate_modal c h hs).1]
  rw [prepare_modal h hs.dwell]
  rfl

/-- The two lines are counted as two, and they have the letters of the one. -/
theorem logbook_action (c : Config α) (s : State α) {b modal action : Block α}
    (h : b.Phases modal action) :
    ((evaluate c s modal).state.count action).logbook.lines =
        (evaluate c s b).state.catalogue.lines + 1 ∧
      ((evaluate c s modal).state.count action).logbook.letters =
        (evaluate c s b).state.catalogue.letters := by
  have hmodal : (evaluate c s modal).state.logbook = (s.count modal).logbook :=
    logbook_evaluate c s modal
  have hline : (evaluate c s b).state.logbook = (s.count b).logbook := logbook_evaluate c s b
  constructor
  · calc (evaluate c s modal).state.catalogue.lines + 1
      _ = s.catalogue.lines + 1 + 1 := congrArg (·.lines + 1) hmodal
      _ = (evaluate c s b).state.catalogue.lines + 1 := congrArg (·.lines + 1) hline.symm
  · calc (evaluate c s modal).state.catalogue.letters.insertAll action.letters
      _ = (s.catalogue.letters.insertAll modal.letters).insertAll action.letters :=
        congrArg (·.letters.insertAll action.letters) hmodal
      _ = s.catalogue.letters.insertAll (modal.letters ++ action.letters) :=
        (OrderedSet.insertAll_append _ _ _).symm
      _ = s.catalogue.letters.insertAll b.letters := OrderedSet.insertAll_congr _ h.mem_letters
      _ = (evaluate c s b).state.catalogue.letters := congrArg Logbook.letters hline.symm

/-- **Modal words act before the rest of a line.** A line that neither waits nor ends the program
does what its modal words do on a line of their own, followed by a line with all its other words.
The two states differ in nothing but their logbooks, and all that the line does besides its modal
words is done by the second line. -/
theorem modal_before_action [Scalar.FiniteCancels α] (c : Config α) {s : State α}
    {b modal action : Block α} (h : b.Phases modal action) (hs : s.Separable b) :
    TwoPhases c s b modal action := by
  obtain ⟨hstate₁, hresult₁⟩ := evaluate_modal c h hs
  have hends : endsProgram (action.codes 'M') = endsProgram (b.codes 'M') := by
    rw [h.codes_action_eq_nil]
    simp [endsProgram, hs.ends]
  obtain ⟨hstate₂, hresult₂⟩ := evaluate_of_sameOrders c (prepare_evaluate_modal c h hs)
    (sameOrders_action h (axes_prepare s b ▸ hs.axes)) hends
  have htime₁ : (evaluate c s modal).state.totalTime = s.totalTime := by
    rw [hstate₁, totalTime_prepare_modal s h hs.dwell]
  have hlogbook₂ := logbook_evaluate c (evaluate c s modal).state action
  obtain ⟨hlines, hletters⟩ := logbook_action c s h
  exact {
    state := by rw [hlogbook₂, hstate₂]
    lines := (congrArg Logbook.lines hlogbook₂).trans hlines
    letters := (congrArg Logbook.letters hlogbook₂).trans hletters
    modalMotion := by simp only [hresult₁, and_self]
    modalTime := htime₁
    modalResultTime := by
      rw [hresult₁]
      exact Scalar.FiniteCancels.sub_self_eq_zero_iff s.totalTime
    actionMotion := by simp only [hresult₂, and_self]
    actionTime := by
      rw [hresult₂, htime₁]
      rfl
    actionEvents := by rw [hresult₂, hlines]
    changedFrame := by
      rw [hresult₁, hresult₂, modalChangesFrame_action h, Bool.false_or, ← Bool.or_assoc]
      rfl }

/-- An arc in the middle of words that switch to increments, to another work coordinate system
and to a tool. -/
def crossedLine : Block Float :=
  .ofWords [⟨'X', 10⟩, ⟨'G', 91⟩, ⟨'G', 2⟩, ⟨'N', 5⟩, ⟨'I', 5⟩, ⟨'G', 55⟩, ⟨'T', 2⟩, ⟨'F', 100⟩]

/-- The modal words of the line. -/
def crossedModal : Block Float := .ofWords [⟨'G', 91⟩, ⟨'N', 5⟩, ⟨'G', 55⟩, ⟨'T', 2⟩, ⟨'F', 100⟩]

/-- The other words of the line. -/
def crossedAction : Block Float := .ofWords [⟨'X', 10⟩, ⟨'G', 2⟩, ⟨'I', 5⟩]

/-- The arc is one in increments, in the other system and at the new feed. -/
theorem modal_before_action_crossed :
    crossedLine.Phases crossedModal crossedAction ∧ (start .standard).Separable crossedLine ∧
      (evaluate .standard (start .standard) crossedLine).result.isMotion = true ∧
      TwoPhases .standard (start .standard) crossedLine crossedModal crossedAction := by
  have hphases : crossedLine.Phases crossedModal crossedAction :=
    ⟨by decide +kernel, by decide +kernel⟩
  have haxes : (start (.standard : Config Float)).axes.all (fun axis =>
      axis.toUpper ≠ 'G' ∧ axis.toUpper ∉ modalLetters) = true := by decide +kernel
  have hseparable : (start .standard).Separable crossedLine :=
    ⟨by decide +kernel, by decide +kernel,
      fun axis h => of_decide_eq_true (List.all_eq_true.1 haxes axis h)⟩
  exact ⟨hphases, hseparable, by decide +kernel,
    modal_before_action .standard hphases hseparable⟩

/-- A move so long and so slow that its time is infinite. -/
def endlessMove : Block Float := .ofWords [⟨'G', 1⟩, ⟨'X', 1e300⟩, ⟨'F', 1e-300⟩]

/-- A line with a modal word and an axis word. -/
def stepAside : Block Float := .ofWords [⟨'G', 91⟩, ⟨'X', 1⟩]

/-- Once the time of a run is infinite, the result of a line with modal words only does not say
that it took no time: the difference of two infinite times is no number. -/
theorem exists_modal_line_time_ne_zero :
    ∃ s : State Float, s = (evaluate .standard (start .standard) endlessMove).state ∧
      stepAside.Phases (.ofWords [⟨'G', 91⟩]) (.ofWords [⟨'X', 1⟩]) ∧ s.Separable stepAside ∧
      (evaluate .standard s (.ofWords [⟨'G', 91⟩])).result.time ≠ 0 := by
  have haxes : (evaluate .standard (start .standard) endlessMove).state.axes.all (fun axis =>
      axis.toUpper ≠ 'G' ∧ axis.toUpper ∉ modalLetters) = true := by decide +kernel
  exact ⟨_, rfl, ⟨by decide +kernel, by decide +kernel⟩,
    ⟨by decide +kernel, by decide +kernel,
      fun axis h => of_decide_eq_true (List.all_eq_true.1 haxes axis h)⟩, by decide +kernel⟩

end State

end DryRun
