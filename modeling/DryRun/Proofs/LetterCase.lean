import DryRun.Proofs.Catalogue
import DryRun.Proofs.Labels
import DryRun.Proofs.Records
import DryRun.Proofs.Spelling

/-!
# Letter case does not matter

A line may be typed in upper case, in lower case or in any mixture of the two. Case is dealt with
in four places that know nothing of each other: a letter of either case can start a word, the
letter of a word is put into upper case, the accepted alphabet is compared in upper case, and so
is the `G` of a homing command. This module shows that nothing else of a text depends on it.

Two texts are **recased** (`Text.Recased`) if they are the same in upper case. So it is enough
that every step of reading commutes with putting a text into upper case: removing comments,
trimming, finding words, and the test for flagged code. All of these look for characters without
case, or for classes of characters that are closed under it (`Text.isBlank_toUpper` and the
lemmas beside it).

Of a recased line only the source text differs, and of that a state keeps the texts of flagged
lines and nothing more (`State.UpToFlagged`).

## Main results

* `Block.words_parse_of_recased`, `Block.isFlagged_parse_of_recased`: a recased line has the same
  words, and it is flagged if the line is.
* `State.letterCase_invisible`: recased programs do the same, line by line, and the texts that
  they leave behind are those of the same lines.
-/

namespace DryRun

namespace Text

/-! ### Characters -/

/-- Every character is in upper or in lower case, and those without case are in both. -/
theorem eq_toUpper_or_eq_toLower (c : Char) : c = c.toUpper ∨ c = c.toLower := by
  induction c using Label.char_cases with
  | ascii n hn =>
      revert n
      decide
  | caseless c hupper _ => exact .inl hupper.symm

/-- Only a character without case itself has it as its upper case. -/
theorem toUpper_eq_iff {c d : Char} (hupper : d.toUpper = d) (hlower : d.toLower = d) :
    c.toUpper = d ↔ c = d := by
  constructor
  · intro h
    rcases eq_toUpper_or_eq_toLower c with hc | hc
    · rw [hc, h]
    · rw [hc, ← Label.toLower_toUpper, h, hlower]
  · rintro rfl
    exact hupper

/-- A capital letter stays as it is. -/
theorem toUpper_toUpper (c : Char) : c.toUpper.toUpper = c.toUpper := by
  rw [← Label.toUpper_toLower c.toUpper, Label.toLower_toUpper, Label.toUpper_toLower]

/-- Blanks have no case. -/
theorem isBlank_toUpper (c : Char) : isBlank c.toUpper = isBlank c := by
  induction c using Label.char_cases with
  | ascii n hn =>
      revert n
      decide
  | caseless c hupper _ => rw [hupper]

/-- Digits have no case. -/
theorem isAnyDigit_toUpper (c : Char) : isAnyDigit c.toUpper = isAnyDigit c := by
  induction c using Label.char_cases with
  | ascii n hn =>
      revert n
      decide +kernel
  | caseless c hupper _ => rw [hupper]

/-- Digits have no case. -/
theorem toUpper_of_isAnyDigit {c : Char} (h : isAnyDigit c = true) : c.toUpper = c := by
  induction c using Label.char_cases with
  | ascii n hn =>
      revert n
      decide +kernel
  | caseless c hupper _ => exact hupper

/-- A letter of a word is one in either case. -/
theorem isWordLetter_toUpper (c : Char) : isWordLetter c.toUpper = isWordLetter c := by
  induction c using Label.char_cases with
  | ascii n hn =>
      revert n
      decide
  | caseless c hupper _ => rw [hupper]

/-- A text in upper case. -/
def upper (cs : List Char) : List Char := cs.map Char.toUpper

theorem upper_cons (c : Char) (cs : List Char) : upper (c :: cs) = c.toUpper :: upper cs := rfl

section Classes

variable {p : Char → Bool} (hp : ∀ c, p c.toUpper = p c)

include hp

/-- A run of characters of a class without case is as long in upper case. -/
theorem takeWhile_upper (cs : List Char) : (upper cs).takeWhile p = upper (cs.takeWhile p) := by
  rw [upper, List.takeWhile_map, upper]
  exact congrArg (fun q => (cs.takeWhile q).map Char.toUpper) (funext hp)

/-- So is what follows it. -/
theorem dropWhile_upper (cs : List Char) : (upper cs).dropWhile p = upper (cs.dropWhile p) := by
  rw [upper, List.dropWhile_map, upper]
  exact congrArg (fun q => (cs.dropWhile q).map Char.toUpper) (funext hp)

end Classes

/-- Trimming commutes with case. -/
theorem trim_upper (cs : List Char) : trim (upper cs) = upper (trim cs) := by
  have hreverse (cs : List Char) : (upper cs).reverse = upper cs.reverse := List.map_reverse.symm
  rw [trim, dropWhile_upper isBlank_toUpper, hreverse, dropWhile_upper isBlank_toUpper, hreverse]
  rfl

/-! ### Comments -/

/-- Removing comments commutes with case: the characters that open and close them have none. -/
theorem strip_upper (cs : List Char) : Comment.strip (upper cs) = upper (Comment.strip cs) := by
  have hne (d : Char) (hupper : d.toUpper = d) (hlower : d.toLower = d) (c : Char) :
      decide (c.toUpper ≠ d) = decide (c ≠ d) :=
    decide_eq_decide.2 (not_congr (toUpper_eq_iff hupper hlower))
  fun_induction Comment.strip cs with
  | case1 => rw [upper, List.map_nil, Comment.strip]
  | case2 cs ih =>
      have hafter : Comment.afterParenthesis (upper cs) = upper (Comment.afterParenthesis cs) := by
        rw [Comment.afterParenthesis, dropWhile_upper (hne ')' rfl rfl)]
        exact List.map_drop.symm
      rw [upper_cons, Comment.strip, if_pos (by decide), hafter, ih]
      rfl
  | case3 cs _ ih =>
      have hafter : Comment.afterSemicolon (upper cs) = upper (Comment.afterSemicolon cs) :=
        dropWhile_upper (hne '\n' rfl rfl) cs
      rw [upper_cons, Comment.strip, if_neg (by decide), if_pos (by decide), hafter, ih]
      rfl
  | case4 c cs hparenthesis hsemicolon ih =>
      rw [upper_cons, Comment.strip, if_neg, if_neg, ih]
      · rfl
      · rwa [toUpper_eq_iff rfl rfl]
      · rwa [toUpper_eq_iff rfl rfl]

/-- Two texts that differ at most in the case of their letters. -/
def Recased (line line' : String) : Prop := upper line'.toList = upper line.toList

/-- Lower case is one way to recase a text. -/
theorem recased_toLower (line : String) :
    Recased line (String.ofList (line.toList.map Char.toLower)) := by
  rw [Recased, String.toList_ofList, upper, upper, List.map_map]
  exact List.map_congr_left fun c _ => Label.toUpper_toLower c

end Text

open Text

namespace Scan

/-! ### Numbers -/

/-- Digits have no case, so a run of them is the same in upper case. -/
theorem digitRun_upper (cs : List Char) : digitRun (upper cs) = digitRun cs := by
  have hdigits : ∀ c ∈ cs.takeWhile isAnyDigit, c.toUpper = c := fun c hc =>
    toUpper_of_isAnyDigit (List.all_eq_true.1 List.all_takeWhile c hc)
  rw [digitRun, takeWhile_upper isAnyDigit_toUpper, upper, List.map_congr_left hdigits,
    List.map_id']
  rfl

/-- What follows a run of digits in capital letters. -/
theorem afterDigits_upper (cs : List Char) : afterDigits (upper cs) = upper (afterDigits cs) :=
  dropWhile_upper isAnyDigit_toUpper cs

/-- A number is found in upper case as it is, and what follows it is in upper case. -/
theorem unsigned?_upper (negative : Bool) (cs : List Char) :
    unsigned? negative (upper cs) = (unsigned? negative cs).map (Prod.map id upper) := by
  by_cases hpoint : ∃ tail, afterDigits cs = '.' :: tail
  · obtain ⟨tail, htail⟩ := hpoint
    have hupper : afterDigits (upper cs) = '.' :: upper tail := by
      rw [afterDigits_upper, htail]
      rfl
    rw [unsigned?_of_point negative htail, unsigned?_of_point negative hupper, digitRun_upper,
      digitRun_upper, afterDigits_upper]
    split <;> rfl
  · have hnone : ∀ tail, afterDigits cs ≠ '.' :: tail := fun tail h => hpoint ⟨tail, h⟩
    have hupper : ∀ tail, afterDigits (upper cs) ≠ '.' :: tail := by
      intro tail h
      rw [afterDigits_upper, upper] at h
      obtain ⟨c, rest, hcs, hc, -⟩ := List.map_eq_cons_iff.1 h
      exact hnone rest (hcs.trans (by rw [(toUpper_eq_iff rfl rfl).1 hc]))
    rw [unsigned?_of_no_point negative hnone, unsigned?_of_no_point negative hupper,
      digitRun_upper, afterDigits_upper]
    split <;> rfl

/-- A sign has no case. -/
theorem scanSign_upper (cs : List Char) :
    Decimal.scanSign (upper cs) = (Decimal.scanSign cs).map id upper := by
  cases cs with
  | nil => rfl
  | cons c cs =>
      by_cases hminus : c = '-'
      · rw [hminus]
        rfl
      · by_cases hplus : c = '+'
        · rw [hplus]
          rfl
        · rw [upper_cons, scanSign_of_ne hminus hplus, scanSign_of_ne]
          · rfl
          · rwa [ne_eq, toUpper_eq_iff rfl rfl]
          · rwa [ne_eq, toUpper_eq_iff rfl rfl]

/-- The number of a word is the same in capital letters. -/
theorem numberAfterLetter?_upper (cs : List Char) :
    numberAfterLetter? (upper cs) = (numberAfterLetter? cs).map (Prod.map id upper) := by
  rw [numberAfterLetter?, dropWhile_upper isBlank_toUpper, number?, scanSign_upper]
  exact unsigned?_upper _ _

/-! ### Words -/

/-- A word with its letter in upper case. -/
def RawWord.upper (w : RawWord) : RawWord := { w with letter := w.letter.toUpper }

/-- **The words of a text in upper case** are the words of the text, with their letters in upper
case. -/
theorem rawWords_upper (cs : List Char) :
    rawWords (Text.upper cs) = (rawWords cs).map RawWord.upper := by
  fun_induction rawWords cs with
  | case1 => rw [Text.upper, List.map_nil, rawWords, List.map_nil]
  | case2 c cs hc n rest h ih =>
      have hletter : isWordLetter c.toUpper = true := by rw [isWordLetter_toUpper, hc]
      have hnumber : numberAfterLetter? (Text.upper cs) = some (n, Text.upper rest) := by
        rw [numberAfterLetter?_upper, h]
        rfl
      rw [upper_cons, rawWords_of_number hletter hnumber, ih]
      rfl
  | case3 c cs hc h ih =>
      have hnumber : numberAfterLetter? (Text.upper cs) = none := by
        rw [numberAfterLetter?_upper, h]
        rfl
      rw [upper_cons, rawWords_of_no_number hnumber, ih]
  | case4 c cs hc ih =>
      rw [upper_cons, rawWords, if_neg (by rwa [isWordLetter_toUpper]), ih]

/-- The letter of a word is put into upper case anyway. -/
theorem RawWord.word?_upper {α : Type} [Scalar α] (w : RawWord) :
    (w.upper.word? : Option (Word α)) = w.word? := by
  simp only [word?, upper, Word.of, toUpper_toUpper]

/-- The words of a text do not depend on its case. -/
theorem words_upper {α : Type} [Scalar α] (cs : List Char) :
    (words (Text.upper cs) : List (Word α)) = words cs := by
  rw [words, rawWords_upper, List.filterMap_map, words]
  exact congrArg (fun f => (rawWords cs).filterMap f) (funext RawWord.word?_upper)

end Scan

namespace Block

/-! ### Flagged code -/

/-- Whether a character is accepted does not depend on its case. -/
theorem isAccepted_toUpper (c : Char) : isAccepted c.toUpper = isAccepted c := by
  induction c using Label.char_cases with
  | ascii n hn =>
      revert n
      decide +kernel
  | caseless c hupper _ => rw [hupper]

/-- A homing command is found in either case; its digits have none. -/
theorem hasHoming_upper (cs : List Char) : hasHoming (upper cs) = hasHoming cs := by
  have hdigit {d : Char} (hupper : d.toUpper = d) (hlower : d.toLower = d) (o : Option Char) :
      (o.map Char.toUpper = some d) = (o = some d) := by
    rw [Option.map_eq_some_iff, eq_iff_iff]
    constructor
    · rintro ⟨c, rfl, hc⟩
      rw [(toUpper_eq_iff hupper hlower).1 hc]
    · rintro rfl
      exact ⟨d, rfl, hupper⟩
  induction cs with
  | nil => rfl
  | cons c cs ih =>
      have hhead : (upper cs).head? = cs.head?.map Char.toUpper := List.head?_map
      have hsecond : (upper cs)[1]? = cs[1]?.map Char.toUpper := List.getElem?_map
      simp only [upper_cons, hasHoming, ih, toUpper_toUpper, hhead, hsecond,
        hdigit (d := '2') rfl rfl, hdigit (d := '8') rfl rfl, hdigit (d := '9') rfl rfl]

/-- Whether code is flagged does not depend on its case. -/
theorem isFlaggedText_upper (cs : List Char) : isFlaggedText (upper cs) = isFlaggedText cs := by
  rw [isFlaggedText, isFlaggedText, hasHoming_upper, upper, List.any_map]
  simp only [Function.comp_def, isAccepted_toUpper]

/-! ### Reading recased lines -/

section Recased

variable {α : Type} [Scalar α] {line line' : String} (h : Recased line line')

include h

/-- The codes of recased lines are the same in upper case. -/
theorem upper_trim_strip_of_recased :
    upper (trim (Comment.strip line'.toList)) = upper (trim (Comment.strip line.toList)) := by
  rw [← trim_upper, ← strip_upper, h, strip_upper, trim_upper]

/-- **A recased line has the same words.** -/
theorem words_parse_of_recased : (parse line' : Block α).words = (parse line).words := by
  change Scan.words (trim (Comment.strip line'.toList)) = Scan.words (trim _)
  rw [← Scan.words_upper, upper_trim_strip_of_recased h, Scan.words_upper]

/-- **A recased line is flagged if the line is.** -/
theorem isFlagged_parse_of_recased :
    (parse line' : Block α).isFlagged = (parse line : Block α).isFlagged := by
  rw [isFlagged, isFlagged, parse, parse, String.toList_ofList, String.toList_ofList,
    ← isFlaggedText_upper, upper_trim_strip_of_recased h, isFlaggedText_upper]

end Recased

end Block

variable {α : Type}

/-! ### Lockstep -/

namespace State

/-- A state without the texts of flagged lines. -/
def unflagged (s : State α) : State α :=
  { s with catalogue := { s.catalogue with flagged := .empty } }

/-- Two states that are the same but for the texts of flagged lines. -/
def UpToFlagged : State α → State α → Prop :=
  UpToRecords fun r r' => r'.totalTime = r.totalTime ∧ r'.axisFeeds = r.axisFeeds

/-- States that are the same but for these texts are the same without them. -/
theorem UpToFlagged.unflagged_eq {s s' : State α} (h : s.UpToFlagged s') :
    s'.unflagged = s.unflagged := by
  obtain ⟨⟨totalTime, axisFeeds, flagged⟩, ⟨rfl, rfl⟩, rfl⟩ := h
  rfl

variable [Scalar α]

/-- **The texts of flagged lines do not show in a run**: machines that differ in them stay in
lockstep on lines with the same words. -/
theorem upToFlagged_lockstep (c : Config α) {b b' : Block α} (hwords : b'.words = b.words) :
    Lockstep c c UpToFlagged id id b b' := by
  refine upToRecords_lockstep ⟨?_, fun hr => ⟨hr.1, rfl⟩⟩ hwords ?_ ?_
  · rintro r r' seconds ⟨htime, hfeeds⟩
    exact ⟨congrArg (· + seconds) htime, hfeeds⟩
  · rintro s s' ⟨⟨totalTime, axisFeeds, flagged⟩, ⟨rfl, rfl⟩, rfl⟩
    refine ⟨⟨_, _, if b'.isFlagged then flagged.insert b'.source else flagged⟩, ⟨rfl, rfl⟩, ?_⟩
    simp only [count, setRecords, lineNumber?, Block.letters, Block.get?, hwords]
    rfl
  · rintro s s' motion targets feed travel travel' g
      ⟨⟨totalTime, axisFeeds, flagged⟩, ⟨rfl, rfl⟩, rfl⟩ htravel
    obtain rfl := htravel rfl
    exact ⟨⟨⟨_, _, flagged⟩, ⟨rfl, rfl⟩, rfl⟩, rfl⟩

/-! ### Runs -/

/-- Lines with the same words have the same results. -/
theorem UpToFlagged.evaluate {s s' : State α} (h : s.UpToFlagged s') (c : Config α)
    {b b' : Block α} (hwords : b'.words = b.words) :
    (evaluate c s b).state.UpToFlagged (evaluate c s' b').state ∧
      (evaluate c s' b').result = (evaluate c s b).result := by
  have hlock := upToFlagged_lockstep c hwords
  have htargets : (s'.prepare b').blockTargets b' = (s.prepare b).blockTargets b := by
    obtain ⟨r, -, hprep⟩ := hlock.prepare h
    rw [blockTargets_of_words hwords, hprep]
    rfl
  obtain ⟨hstate, hresult⟩ := hlock.evaluate h htargets
  have htime {s s' : State α} (h : s.UpToFlagged s') : s'.totalTime = s.totalTime := by
    obtain ⟨r, ⟨htime, -⟩, rfl⟩ := h
    exact htime
  have hmap := hresult.map_events (evaluate_time_eq (htime h) (htime hstate))
  simp only [List.map_id] at hmap
  exact ⟨hstate, hmap⟩

/-- Recased lines are paired line by line. -/
theorem paired_recased (c : Config α) {lines lines' : List String}
    (h : List.Forall₂ Recased lines lines') (s : State α) :
    s.Paired c (fun _ b b' => b'.words = b.words) (lines.map Block.parse)
      (lines'.map Block.parse) := by
  refine paired_of_forall₂ c (List.forall₂_map_left_iff.2 (List.forall₂_map_right_iff.2 ?_)) s
  exact h.imp fun _ _ hline => Block.words_parse_of_recased hline

/-- The texts of flagged lines after a line. -/
theorem mem_flagged_evaluate (c : Config α) (s : State α) (b : Block α) (text : String) :
    text ∈ (evaluate c s b).state.catalogue.flagged.toList ↔
      text ∈ s.catalogue.flagged.toList ∨ b.isFlagged ∧ b.source = text := by
  have hcatalogue : (evaluate c s b).state.catalogue = s.catalogue.add b :=
    congrArg Prod.fst (used_evaluate c s b)
  rw [hcatalogue, Catalogue.add]
  split
  · next h =>
      simp only [OrderedSet.insert, OrderedSet.mem_insertSorted, h, true_and, eq_comm]
  · next h => simp only [h, Bool.false_eq_true, false_and, or_false]

/-- **The texts of flagged lines after a run** are those before it and those of its own. Which
lines are flagged may be read off recased ones. -/
theorem mem_flagged_run_recased (c : Config α) {lines lines' : List String}
    (h : List.Forall₂ Recased lines lines') (s : State α) (text : String) :
    text ∈ (s.run c (lines'.map Block.parse)).catalogue.flagged.toList ↔
      text ∈ s.catalogue.flagged.toList ∨
        ∃ p ∈ lines.zip lines', (Block.parse p.1 : Block α).isFlagged ∧ p.2 = text := by
  induction h generalizing s with
  | nil => simp
  | @cons line line' _ _ hline _ ih =>
      have hflagged :
          (Block.parse line' : Block α).isFlagged = (Block.parse line : Block α).isFlagged :=
        Block.isFlagged_parse_of_recased hline
      have hsource : (Block.parse line' : Block α).source = line' := rfl
      rw [List.map_cons, run_cons, ih, mem_flagged_evaluate, hflagged, hsource, List.zip_cons_cons]
      simp only [List.mem_cons, exists_eq_or_imp, or_assoc]

/-- **Letter case does not matter.** Recasing a line changes neither its words nor whether it is
flagged. So if two programs are run from the same state whose lines differ at most in the case of
their letters, the results of all lines are the same, after every line the states are the same
but for the texts of flagged lines, and these texts are those of the same lines, each in the case
in which it was run. -/
theorem letterCase_invisible (c : Config α) (s : State α) {lines lines' : List String}
    (h : List.Forall₂ Recased lines lines') :
    (∀ line line' : String, Recased line line' →
      (Block.parse line' : Block α).words = (Block.parse line).words ∧
        (Block.parse line' : Block α).isFlagged = (Block.parse line : Block α).isFlagged) ∧
    (s.record c (lines'.map Block.parse)).map Prod.snd =
      (s.record c (lines.map Block.parse)).map Prod.snd ∧
    ∀ k, (s.run c ((lines'.take k).map Block.parse)).unflagged =
        (s.run c ((lines.take k).map Block.parse)).unflagged ∧
      ∀ text, text ∈ (s.run c ((lines'.take k).map Block.parse)).catalogue.flagged.toList ↔
        text ∈ s.catalogue.flagged.toList ∨ ∃ p ∈ (lines.zip lines').take k,
          (Block.parse p.1 : Block α).isFlagged ∧ p.2 = text := by
  have hrun {lines lines' : List String} (h : List.Forall₂ Recased lines lines') :
      (s.run c (lines.map Block.parse)).UpToFlagged (s.run c (lines'.map Block.parse)) ∧
        (s.record c (lines'.map Block.parse)).map (fun line => id line.2) =
          (s.record c (lines.map Block.parse)).map fun line => id line.2 :=
    (paired_recased c h s).run (fun hs hwords => hs.evaluate c hwords)
      ⟨s.records, ⟨rfl, rfl⟩, rfl⟩
  refine ⟨?_, (hrun h).2, fun k => ?_⟩
  · intro line line' hline
    exact ⟨Block.words_parse_of_recased hline, Block.isFlagged_parse_of_recased hline⟩
  · have hk := List.forall₂_take k h
    refine ⟨(hrun hk).1.unflagged_eq, fun text => ?_⟩
    rw [mem_flagged_run_recased c hk, List.zip_eq_zipWith, List.zip_eq_zipWith, List.take_zipWith]

/-- A return to the reference position, a feed move and a tool that is no part of the accepted
alphabet, with comments. -/
def typedProgram : List String :=
  ["G28 X1 (Over the Top)", "g1 x2.5 F100 ; slowly", "T2 a3"]

/-- The same lines in other cases. -/
def retypedProgram : List String :=
  ["g28 x1 (over the top)", "G1 X2.5 f100 ; SLOWLY", "t2 A3"]

/-- The retyped program does the same and leaves its own texts behind. -/
theorem letterCase_invisible_retypedProgram :
    List.Forall₂ Recased typedProgram retypedProgram ∧
      ((start .standard : State Float).record .standard (retypedProgram.map Block.parse)).map
          Prod.snd =
        ((start .standard : State Float).record .standard (typedProgram.map Block.parse)).map
          Prod.snd ∧
      ((start .standard : State Float).run .standard
          ((retypedProgram.take 3).map Block.parse)).unflagged =
        ((start .standard : State Float).run .standard
          ((typedProgram.take 3).map Block.parse)).unflagged ∧
      "t2 A3" ∈ ((start .standard : State Float).run .standard
        ((retypedProgram.take 3).map Block.parse)).catalogue.flagged.toList := by
  have hlines : List.Forall₂ Recased typedProgram retypedProgram := by
    refine .cons ?_ (.cons ?_ (.cons ?_ .nil)) <;> unfold Recased <;> decide +kernel
  obtain ⟨-, hresults, hstates⟩ :=
    letterCase_invisible .standard (start .standard : State Float) hlines
  obtain ⟨hstate, hflagged⟩ := hstates 3
  refine ⟨hlines, hresults, hstate, (hflagged _).2 (.inr ⟨("T2 a3", "t2 A3"), ?_, ?_, rfl⟩)⟩
  · decide
  · decide +kernel

end State

end DryRun
