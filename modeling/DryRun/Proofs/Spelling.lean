import DryRun.Block
import DryRun.Proofs.Number.Shortest

/-!
# The spelling of blocks

`Block.ofWords` spells words with one blank between them, and `Block.parse` finds words in any
text. This module shows that the second undoes the first: what is spelled is read as the same
words, in the same order, and as the same doubles.

The text of a word is a letter and a number, and the number is what the scanner calls a
`Scan.NumberText`, written out (`NumberText.chars`). The scanner takes as much as it can, so a
number is found as it was written if what follows is neither a digit nor a point
(`Scan.number?_chars`); behind a word there is a blank or nothing. None of the characters of a
word is a blank or opens a comment, so neither removing comments nor trimming changes the text
(`Text.IsCode`). What is left is that the decimal of a double is laid out with the same value
(`Decimal.exists_numberText`) and read back as the double (`Double.ofDecimal_of_numeral`).

## Main results

* `Scan.rawWords_spelled`: the words that a text spells are found in it.
* `Block.parse_ofWords`: reading the text of words gives the words back.
-/

namespace DryRun

open Text

/-! ### Text without comments and outer blanks -/

namespace Text

/-- Whether a character belongs to code and to no gap in it: it is no blank, and it opens no
comment. -/
def IsCodeChar (c : Char) : Prop := isBlank c = false ∧ c ≠ '(' ∧ c ≠ ';'

/-- Printable characters from the closing parenthesis on belong to code, apart from the semicolon.
-/
theorem isCodeChar_of_toNat {c : Char} (hle : 41 ≤ c.toNat) (hlt : c.toNat < 127)
    (hne : c.toNat ≠ 59) : IsCodeChar c := by
  refine ⟨?_, ?_, ?_⟩
  · simp only [isBlank, inRanges, blankRanges, List.any_cons, List.any_nil, Bool.or_eq_false_iff,
      Bool.and_eq_false_iff, decide_eq_false_iff_not, and_true]
    omega
  · rintro rfl
    exact absurd hle (by decide)
  · rintro rfl
    exact hne rfl

/-- Digits are characters of code. -/
theorem isCodeChar_of_isDigit {c : Char} (h : c.isDigit) : IsCodeChar c := by
  simp only [Char.isDigit, Bool.and_eq_true, decide_eq_true_eq] at h
  obtain ⟨hle, hge⟩ : 48 ≤ c.toNat ∧ c.toNat ≤ 57 := h
  exact isCodeChar_of_toNat (by omega) (by omega) (by omega)

/-- Capital letters lie between two code points. -/
theorem toNat_of_isUpper {c : Char} (h : c.isUpper) : 65 ≤ c.toNat ∧ c.toNat ≤ 90 := by
  simp only [Char.isUpper, decide_eq_true_eq] at h
  exact h

/-- Capital letters are characters of code. -/
theorem isCodeChar_of_isUpper {c : Char} (h : c.isUpper) : IsCodeChar c := by
  obtain ⟨hle, hge⟩ := toNat_of_isUpper h
  exact isCodeChar_of_toNat (by omega) (by omega) (by omega)

/-- Whether a text is left as it is when comments and outer blanks are removed. -/
structure IsCode (cs : List Char) : Prop where
  head : ∀ c ∈ cs.head?, isBlank c = false
  last : ∀ c ∈ cs.getLast?, isBlank c = false
  no_comment : ∀ c ∈ cs, c ≠ '(' ∧ c ≠ ';'

/-- Text in which no comment opens is left as it is. -/
theorem strip_of_no_comment {cs : List Char} (h : ∀ c ∈ cs, c ≠ '(' ∧ c ≠ ';') :
    Comment.strip cs = cs := by
  induction cs with
  | nil => rw [Comment.strip]
  | cons c cs ih =>
      obtain ⟨hparenthesis, hsemicolon⟩ := h c List.mem_cons_self
      rw [Comment.strip, if_neg hparenthesis, if_neg hsemicolon,
        ih fun d hd => h d (List.mem_cons_of_mem c hd)]

/-- Text that starts with no blank is left as it is. -/
theorem dropWhile_isBlank {cs : List Char} (h : ∀ c ∈ cs.head?, isBlank c = false) :
    cs.dropWhile isBlank = cs := by
  cases cs with
  | nil => rfl
  | cons c cs => exact List.dropWhile_cons_of_neg (by simp [h c rfl])

/-- Code is left as it is when comments and outer blanks are removed. -/
theorem IsCode.trim_strip {cs : List Char} (h : IsCode cs) : trim (Comment.strip cs) = cs := by
  have hlast : ∀ c ∈ cs.reverse.head?, isBlank c = false := by
    rw [List.head?_reverse]
    exact h.last
  rw [strip_of_no_comment h.no_comment, trim, dropWhile_isBlank h.head, dropWhile_isBlank hlast,
    List.reverse_reverse]

/-- Whether a text is one piece of code, without blanks and comments. -/
structure IsPiece (cs : List Char) : Prop where
  ne_nil : cs ≠ []
  chars : ∀ c ∈ cs, IsCodeChar c

/-- A piece by itself is code. -/
theorem IsPiece.isCode {cs : List Char} (h : IsPiece cs) : IsCode cs where
  head c hc := (h.chars c (List.mem_of_head? hc)).1
  last c hc := (h.chars c (List.mem_of_getLast? hc)).1
  no_comment c hc := (h.chars c hc).2

/-- A piece and a blank before code are code. -/
theorem IsPiece.append {piece cs : List Char} (h : IsPiece piece) (hcs : IsCode cs)
    (hne : cs ≠ []) : IsCode (piece ++ [' '] ++ cs) where
  head c hc := by
    rw [List.append_assoc, List.head?_append_of_ne_nil _ h.ne_nil] at hc
    exact h.isCode.head c hc
  last c hc := by
    rw [List.getLast?_append_of_ne_nil _ hne] at hc
    exact hcs.last c hc
  no_comment c hc := by
    rw [List.mem_append, List.mem_append, List.mem_singleton] at hc
    rcases hc with (hc | rfl) | hc
    · exact (h.chars c hc).2
    · decide
    · exact hcs.no_comment c hc

/-- One or more pieces with blanks between them are code, and not empty. -/
theorem isCode_intercalate_cons {piece : List Char} {pieces : List (List Char)}
    (h : ∀ cs ∈ piece :: pieces, IsPiece cs) :
    [' '].intercalate (piece :: pieces) ≠ [] ∧ IsCode ([' '].intercalate (piece :: pieces)) := by
  have hpiece := h piece List.mem_cons_self
  induction pieces generalizing piece with
  | nil =>
      rw [List.intercalate_singleton]
      exact ⟨hpiece.ne_nil, hpiece.isCode⟩
  | cons next pieces ih =>
      have hnext := fun cs hcs => h cs (List.mem_cons_of_mem piece hcs)
      obtain ⟨hne, hcode⟩ := ih hnext (hnext next List.mem_cons_self)
      rw [List.intercalate_cons_cons]
      exact ⟨by simp, hpiece.append hcode hne⟩

/-- Pieces with blanks between them are code. -/
theorem isCode_intercalate {pieces : List (List Char)} (h : ∀ cs ∈ pieces, IsPiece cs) :
    IsCode ([' '].intercalate pieces) := by
  cases pieces with
  | nil => exact ⟨by simp, by simp, by simp⟩
  | cons piece pieces => exact (isCode_intercalate_cons h).2

end Text

namespace Scan

/-! ### Numbers -/

/-- ASCII digits are digits. -/
theorem isAnyDigit_of_isDigit {c : Char} (h : c.isDigit) : isAnyDigit c := by
  simp only [Char.isDigit, Bool.and_eq_true, decide_eq_true_eq] at h
  unfold isAnyDigit inRanges digitRanges
  rw [List.any_cons, Bool.or_eq_true]
  left
  simp only [Bool.and_eq_true, decide_eq_true_eq]
  exact h

/-- A run of characters of one kind is taken as a whole if another kind follows. -/
theorem takeWhile_dropWhile_append {p : Char → Bool} {cs rest : List Char} (hcs : ∀ c ∈ cs, p c)
    (hrest : ∀ c ∈ rest.head?, p c = false) :
    (cs ++ rest).takeWhile p = cs ∧ (cs ++ rest).dropWhile p = rest := by
  rw [List.takeWhile_append_of_pos hcs, List.dropWhile_append_of_pos hcs]
  cases rest with
  | nil => exact ⟨List.append_nil cs, rfl⟩
  | cons c rest =>
      have hc : ¬ p c = true := by simp [hrest c rfl]
      rw [List.takeWhile_cons_of_neg hc, List.dropWhile_cons_of_neg hc]
      exact ⟨List.append_nil cs, rfl⟩

/-- A run of digits is taken as a whole. -/
theorem digitRun_append {ds rest : List Char} (hds : ds.all Char.isDigit)
    (hrest : ∀ c ∈ rest.head?, isAnyDigit c = false) :
    digitRun (ds ++ rest) = ds ∧ afterDigits (ds ++ rest) = rest :=
  takeWhile_dropWhile_append
    (fun c hc => isAnyDigit_of_isDigit (List.all_eq_true.mp hds c hc)) hrest

namespace NumberText

/-- The characters of a number without its sign: a point is written only if digits follow it. -/
def unsignedChars (n : NumberText) : List Char :=
  n.whole ++ if n.fraction = [] then [] else '.' :: n.fraction

/-- The characters of a number. -/
def chars (n : NumberText) : List Char := Decimal.signText n.negative ++ n.unsignedChars

/-- Whether a number is spelled in ASCII digits, with one before its point at least. -/
structure Spelled (n : NumberText) : Prop where
  whole_ne_nil : n.whole ≠ []
  whole : n.whole.all Char.isDigit
  fraction : n.fraction.all Char.isDigit

end NumberText

/-- Whether a text goes on with something that is not part of a number. -/
def EndsNumber (cs : List Char) : Prop := ∀ c ∈ cs.head?, isAnyDigit c = false ∧ c ≠ '.'

/-- A number ends where the text ends. -/
theorem endsNumber_nil : EndsNumber [] := fun _ hc => nomatch hc

/-- A number ends at a blank. -/
theorem endsNumber_blank (cs : List Char) : EndsNumber (' ' :: cs) := by
  intro c hc
  cases hc
  decide

/-- A number with a point needs a digit on one side of it. -/
theorem unsigned?_of_point {cs tail : List Char} (negative : Bool)
    (h : afterDigits cs = '.' :: tail) :
    unsigned? negative cs =
      if digitRun cs = [] ∧ digitRun tail = [] then none
      else some (⟨negative, digitRun cs, digitRun tail⟩, afterDigits tail) := by
  rw [unsigned?, h]
  rfl

/-- A number without a point needs a digit. -/
theorem unsigned?_of_no_point {cs : List Char} (negative : Bool)
    (h : ∀ tail, afterDigits cs ≠ '.' :: tail) :
    unsigned? negative cs =
      if digitRun cs = [] then none
      else some (⟨negative, digitRun cs, []⟩, afterDigits cs) := by
  rw [unsigned?]
  split
  · next tail htail => exact absurd htail (h tail)
  · rfl

/-- A spelled number is found as it is written if the text goes on with something else. -/
theorem unsigned?_append {n : NumberText} (h : n.Spelled) {rest : List Char}
    (hrest : EndsNumber rest) :
    unsigned? n.negative (n.unsignedChars ++ rest) = some (n, rest) := by
  obtain ⟨negative, whole, fraction⟩ := n
  obtain ⟨hne, hwhole, hfraction⟩ := h
  have hstop : ∀ c ∈ rest.head?, isAnyDigit c = false := fun c hc => (hrest c hc).1
  by_cases hpoint : fraction = []
  · subst hpoint
    obtain ⟨hrun, hafter⟩ := digitRun_append hwhole hstop
    rw [NumberText.unsignedChars, if_pos rfl, List.append_nil, unsigned?, hrun, hafter]
    split
    · next tail => exact absurd rfl (hrest '.' rfl).2
    · rw [if_neg hne]
  · have hdot : ∀ c ∈ ('.' :: (fraction ++ rest)).head?, isAnyDigit c = false := by
      intro c hc
      cases hc
      decide
    obtain ⟨hrun, hafter⟩ := digitRun_append hwhole hdot
    obtain ⟨hrun', hafter'⟩ := digitRun_append hfraction hstop
    rw [NumberText.unsignedChars, if_neg hpoint, List.append_assoc, List.cons_append, unsigned?,
      hrun, hafter]
    simp only [hrun', hafter']
    rw [if_neg fun h => hne h.1]

/-- No sign is found before a character that is none. -/
theorem scanSign_of_ne {c : Char} (hminus : c ≠ '-') (hplus : c ≠ '+') (cs : List Char) :
    Decimal.scanSign (c :: cs) = (false, c :: cs) := by
  unfold Decimal.scanSign
  split
  · next heq => exact absurd (List.cons.inj heq).1 hminus
  · next heq => exact absurd (List.cons.inj heq).1 hplus
  · rfl

/-- A digit is no sign. -/
theorem scanSign_of_isAnyDigit {c : Char} (h : isAnyDigit c) (cs : List Char) :
    Decimal.scanSign (c :: cs) = (false, c :: cs) := by
  refine scanSign_of_ne ?_ ?_ cs
  · rintro rfl
    exact absurd h (by decide)
  · rintro rfl
    exact absurd h (by decide)

/-- The sign of a spelled number is found as it is written. -/
theorem scanSign_chars {n : NumberText} (h : n.Spelled) (rest : List Char) :
    Decimal.scanSign (n.chars ++ rest) = (n.negative, n.unsignedChars ++ rest) := by
  obtain ⟨negative, whole, fraction⟩ := n
  cases negative with
  | true => rfl
  | false =>
      cases whole with
      | nil => exact absurd rfl h.whole_ne_nil
      | cons c cs =>
          have hdigit := h.whole
          rw [List.all_cons, Bool.and_eq_true] at hdigit
          exact scanSign_of_isAnyDigit (isAnyDigit_of_isDigit hdigit.1) _

/-- A spelled number is found as it is written. -/
theorem number?_chars {n : NumberText} (h : n.Spelled) {rest : List Char}
    (hrest : EndsNumber rest) : number? (n.chars ++ rest) = some (n, rest) := by
  rw [number?, scanSign_chars h, unsigned?_append h hrest]

/-! ### Words -/

/-- The characters of a spelled number belong to code. -/
theorem NumberText.Spelled.isCodeChar {n : NumberText} (h : n.Spelled) :
    ∀ c ∈ n.chars, IsCodeChar c := by
  intro c hc
  rw [NumberText.chars, NumberText.unsignedChars, List.mem_append, List.mem_append] at hc
  rcases hc with hc | hc | hc
  · unfold Decimal.signText at hc
    split at hc
    · obtain rfl := List.mem_singleton.mp hc
      exact isCodeChar_of_toNat (by decide) (by decide) (by decide)
    · exact absurd hc List.not_mem_nil
  · exact isCodeChar_of_isDigit (List.all_eq_true.mp h.whole c hc)
  · split at hc
    · exact absurd hc List.not_mem_nil
    · rcases List.mem_cons.mp hc with rfl | hc
      · exact isCodeChar_of_toNat (by decide) (by decide) (by decide)
      · exact isCodeChar_of_isDigit (List.all_eq_true.mp h.fraction c hc)

namespace RawWord

/-- The characters of a word. -/
def chars (w : RawWord) : List Char := w.letter :: w.number.chars

/-- Whether a word is spelled with a capital letter and a number in ASCII digits. -/
structure Spelled (w : RawWord) : Prop where
  letter : w.letter.isUpper
  number : w.number.Spelled

/-- A spelled word is a piece of code. -/
theorem Spelled.isPiece {w : RawWord} (h : w.Spelled) : IsPiece w.chars where
  ne_nil := List.cons_ne_nil _ _
  chars c hc := by
    rcases List.mem_cons.mp hc with rfl | hc
    · exact isCodeChar_of_isUpper h.letter
    · exact h.number.isCodeChar c hc

end RawWord

/-- A letter with a number after it is a word. -/
theorem rawWords_of_number {c : Char} {cs rest : List Char} {n : NumberText}
    (hc : isWordLetter c) (h : numberAfterLetter? cs = some (n, rest)) :
    rawWords (c :: cs) = ⟨c, n⟩ :: rawWords rest := by
  rw [rawWords, if_pos hc]
  split
  · next n' rest' heq =>
      rw [h] at heq
      cases heq
      rfl
  · next heq =>
      rw [h] at heq
      cases heq

/-- A character with no number behind it starts no word. -/
theorem rawWords_of_no_number {c : Char} {cs : List Char} (h : numberAfterLetter? cs = none) :
    rawWords (c :: cs) = rawWords cs := by
  rw [rawWords]
  split
  · split
    · next heq =>
        rw [h] at heq
        cases heq
    · rfl
  · rfl

/-- A blank is passed over. -/
theorem rawWords_blank (cs : List Char) : rawWords (' ' :: cs) = rawWords cs := by
  rw [rawWords, if_neg (by decide)]

/-- A spelled number behind a letter is read as it is written. -/
theorem numberAfterLetter?_chars {n : NumberText} (h : n.Spelled) {rest : List Char}
    (hrest : EndsNumber rest) : numberAfterLetter? (n.chars ++ rest) = some (n, rest) := by
  have hhead : ∀ c ∈ (n.chars ++ rest).head?, isBlank c = false := by
    intro c hc
    have hne : n.chars ≠ [] :=
      List.append_ne_nil_of_right_ne_nil _ (List.append_ne_nil_of_left_ne_nil h.whole_ne_nil _)
    rw [List.head?_append_of_ne_nil _ hne] at hc
    exact (h.isCodeChar c (List.mem_of_head? hc)).1
  rw [numberAfterLetter?, dropWhile_isBlank hhead]
  exact number?_chars h hrest

/-- A spelled word is found as it is written, and the search goes on behind it. -/
theorem rawWords_chars_append {w : RawWord} (h : w.Spelled) {rest : List Char}
    (hrest : EndsNumber rest) : rawWords (w.chars ++ rest) = w :: rawWords rest := by
  have hletter : isWordLetter w.letter := by
    simp only [isWordLetter, Char.isAlpha, h.letter, Bool.true_or]
  exact rawWords_of_number hletter (numberAfterLetter?_chars h.number hrest)

/-- **The words that a text spells are found in it**, in the same order. -/
theorem rawWords_spelled {ws : List RawWord} (h : ∀ w ∈ ws, w.Spelled) :
    rawWords ([' '].intercalate (ws.map RawWord.chars)) = ws := by
  induction ws with
  | nil => rw [List.map_nil, List.intercalate_nil, rawWords]
  | cons w ws ih =>
      have hw := h w List.mem_cons_self
      have ih := ih fun w hw => h w (List.mem_cons_of_mem _ hw)
      cases ws with
      | nil =>
          have hfound := rawWords_chars_append hw endsNumber_nil
          rw [List.append_nil, rawWords] at hfound
          rw [List.map_singleton, List.intercalate_singleton, hfound]
      | cons next ws =>
          rw [List.map_cons] at ih ⊢
          rw [List.map_cons, List.intercalate_cons_cons, List.append_assoc,
            List.singleton_append, rawWords_chars_append hw (endsNumber_blank _), rawWords_blank,
            ih]

end Scan

/-! ### The text of a decimal -/

namespace Decimal

open Scan (NumberText)

/-- The digits of a number are digits. -/
theorem all_isDigit_digits (n : Nat) : (digits n).all Char.isDigit :=
  List.all_eq_true.mpr fun _ hc => Nat.isDigit_of_mem_toDigits (by decide) (by decide) hc

/-- Zeros are digits. -/
theorem all_isDigit_zeros (n : Nat) : (List.replicate n '0').all Char.isDigit :=
  List.all_eq_true.mpr fun c hc => by rw [List.eq_of_mem_replicate hc]; decide

/-- A whole number is laid out with zeros for the exponent. -/
theorem numberText_whole (d : Decimal) (h : 0 ≤ d.exponent) :
    ∃ n : NumberText, n.Spelled ∧ n.chars = d.plain ∧ n.negative = d.negative ∧
      (ofDigits n.negative n.whole n.fraction).absValue = d.absValue := by
  obtain ⟨negative, significand, exponent⟩ := d
  obtain ⟨k, rfl⟩ := Int.eq_ofNat_of_zero_le h
  refine ⟨⟨negative, digits significand ++ List.replicate k '0', []⟩, ⟨?_, ?_, rfl⟩, ?_, rfl, ?_⟩
  · exact List.append_ne_nil_of_left_ne_nil Nat.toDigits_ne_nil _
  · rw [List.all_append, all_isDigit_digits, all_isDigit_zeros, Bool.and_true]
  · simp only [NumberText.chars, NumberText.unsignedChars, plain, if_pos h, if_true,
      List.append_nil, Int.toNat_natCast]
  · have hsignificand : Nat.ofDigitChars 10 (digits significand ++ List.replicate k '0' ++ []) 0 =
        10 ^ k * significand := by
      rw [List.append_nil, Nat.ofDigitChars_append, Nat.ofDigitChars_replicate_zero, digits,
        Nat.ofDigitChars_ten_toDigits]
    simp only [absValue, ofDigits, hsignificand, List.length_nil, Int.natCast_zero, neg_zero,
      zpow_zero, mul_one, zpow_natCast]
    push_cast
    ring

/-- The point stands before the last `places` digits and after one digit at least. A zero is put
in front of it only if no digit is left for this place. -/
theorem pointed_eq (ds : List Char) (places : Nat) :
    ∃ whole fraction, pointed ds places = whole ++ '.' :: fraction ∧ whole ≠ [] ∧
      fraction.length = places ∧
      whole ++ fraction = List.replicate (places + 1 - ds.length) '0' ++ ds ∧
      (whole.length = 1 ∨ whole <+: ds) := by
  refine ⟨_, _, rfl, ?_, ?_, List.take_append_drop _ _, ?_⟩
  · rw [← List.length_pos_iff, List.length_take]
    simp only [List.length_append, List.length_replicate]
    omega
  · simp only [List.length_drop, List.length_append, List.length_replicate]
    omega
  · rcases Nat.lt_or_ge places ds.length with hlong | hshort
    · right
      rw [Nat.sub_eq_zero_of_le hlong, List.replicate_zero, List.nil_append]
      exact List.take_prefix _ _
    · left
      simp only [List.length_take, List.length_append, List.length_replicate]
      omega

/-- A number with a fraction is laid out with the digits of its significand, behind zeros if there
are too few of them. -/
theorem numberText_pointed (d : Decimal) (h : d.exponent < 0) :
    ∃ n : NumberText, n.Spelled ∧ n.chars = d.plain ∧
      ofDigits n.negative n.whole n.fraction = d ∧
      (n.whole.length = 1 ∨ n.whole <+: digits d.significand) := by
  obtain ⟨negative, significand, exponent⟩ := d
  obtain ⟨places, rfl⟩ : ∃ places : Nat, exponent = -places :=
    ⟨exponent.natAbs, (Int.ofNat_natAbs_of_nonpos h.le ▸ (neg_neg exponent).symm)⟩
  have hplaces : 0 < places := by
    change -(places : Int) < 0 at h
    omega
  obtain ⟨whole, fraction, hpointed, hne, hlength, happend, hwhole⟩ :=
    pointed_eq (digits significand) places
  have hdigits : (whole ++ fraction).all Char.isDigit := by
    rw [happend, List.all_append, all_isDigit_zeros, all_isDigit_digits, Bool.and_true]
  rw [List.all_append, Bool.and_eq_true] at hdigits
  have hfraction : fraction ≠ [] := by
    rw [← List.length_pos_iff]
    omega
  refine ⟨⟨negative, whole, fraction⟩, ⟨hne, hdigits.1, hdigits.2⟩, ?_, ?_, hwhole⟩
  · simp only [NumberText.chars, NumberText.unsignedChars, plain]
    rw [if_neg hfraction, if_neg (by omega), neg_neg, Int.toNat_natCast, hpointed]
  · simp only [ofDigits]
    rw [happend, Nat.ofDigitChars_append, Nat.ofDigitChars_replicate_zero, Nat.mul_zero, digits,
      Nat.ofDigitChars_ten_toDigits, hlength]

/-- **The text of a decimal is a number of the same sign and value.** -/
theorem exists_numberText (d : Decimal) :
    ∃ n : NumberText, n.Spelled ∧ n.chars = d.plain ∧ n.negative = d.negative ∧
      (ofDigits n.negative n.whole n.fraction).absValue = d.absValue := by
  rcases Int.lt_or_le d.exponent 0 with h | h
  · obtain ⟨n, hspelled, hchars, heq, -⟩ := numberText_pointed d h
    exact ⟨n, hspelled, hchars, congrArg negative heq, congrArg absValue heq⟩
  · exact numberText_whole d h

end Decimal

/-! ### The text of a word -/

/-- The text of a word with a capital letter and a finite value is a word that stands for it. -/
theorem Word.exists_rawWord {w : Word Float} (hletter : w.letter.isUpper)
    (hfinite : Scalar.isFinite w.value) :
    ∃ r : Scan.RawWord, r.Spelled ∧ r.chars = w.text.toList ∧ r.word? = some w := by
  obtain ⟨letter, value⟩ := w
  obtain ⟨d, hd⟩ := Double.exists_numeral_eq hfinite .up
  obtain ⟨n, hspelled, hchars, hsign, hvalue⟩ := d.exists_numberText
  refine ⟨⟨letter, n⟩, ⟨hletter, hspelled⟩, ?_, ?_⟩
  · have htext : (Scalar.text value).toList = n.chars := by
      change (String.ofList (Double.numeral .up value).plain).toList = n.chars
      rw [hd, String.toList_ofList, hchars]
      rfl
    rw [Word.text, String.toList_append, htext, Char.toString_eq_singleton,
      String.toList_singleton]
    rfl
  · have hdecimal : n.decimal? = some (Decimal.ofDigits n.negative n.whole n.fraction) := by
      rw [Scan.NumberText.decimal?, hspelled.whole, hspelled.fraction]
      rfl
    have hread : Scalar.ofDecimal (Decimal.ofDigits n.negative n.whole n.fraction) = value :=
      Double.ofDecimal_of_numeral hd hsign hvalue
    rw [Scan.RawWord.word?, hdecimal]
    change (if Scalar.isFinite (Scalar.ofDecimal _ : Float) then some (Word.of letter _)
      else none) = _
    rw [hread, if_pos hfinite, Word.of,
      Char.toUpper_eq_of_not_isLower (Char.not_isLower_of_isUpper hletter)]

/-- The texts of such words are words that stand for them. -/
theorem Word.exists_rawWords {ws : List (Word Float)}
    (h : ∀ w ∈ ws, w.letter.isUpper ∧ Scalar.isFinite w.value) :
    ∃ rs : List Scan.RawWord, (∀ r ∈ rs, r.Spelled) ∧
      rs.map Scan.RawWord.chars = ws.map (·.text.toList) ∧
      rs.filterMap Scan.RawWord.word? = ws := by
  induction ws with
  | nil => exact ⟨[], by simp, rfl, rfl⟩
  | cons w ws ih =>
      obtain ⟨hletter, hfinite⟩ := h w List.mem_cons_self
      obtain ⟨r, hspelled, hchars, hword⟩ := Word.exists_rawWord hletter hfinite
      obtain ⟨rs, hrest, hmap, hwords⟩ := ih fun w hw => h w (List.mem_cons_of_mem _ hw)
      refine ⟨r :: rs, ?_, ?_, ?_⟩
      · exact List.forall_mem_cons.mpr ⟨hspelled, hrest⟩
      · rw [List.map_cons, List.map_cons, hchars, hmap]
      · rw [List.filterMap_cons_some hword, hwords]

namespace Block

/-- **Reading the text of words gives the words back**: the same source, the same code and the
same words in the same order, with the same doubles for values. -/
theorem parse_ofWords (ws : List (Char × Float))
    (h : ∀ w ∈ ws, w.1.isAlpha ∧ Scalar.isFinite w.2) :
    parse (ofWords (ws.map fun w => Word.of w.1 w.2)).code =
      ofWords (ws.map fun w => Word.of w.1 w.2) := by
  generalize hwords : ws.map (fun w => Word.of w.1 w.2) = words
  have hspelled : ∀ w ∈ words, w.letter.isUpper ∧ Scalar.isFinite w.value := by
    rw [← hwords, List.forall_mem_map]
    exact fun w hw => ⟨(Char.isUpper_toUpper_eq_isAlpha w.1).trans (h w hw).1, (h w hw).2⟩
  obtain ⟨rs, hrs, hchars, hread⟩ := Word.exists_rawWords hspelled
  have hcode : (ofWords words).code.toList = [' '].intercalate (rs.map Scan.RawWord.chars) := by
    rw [hchars, ofWords, String.toList_intercalate, List.map_map]
    rfl
  have hpieces : ∀ cs ∈ rs.map Scan.RawWord.chars, IsPiece cs :=
    List.forall_mem_map.mpr fun r hr => (hrs r hr).isPiece
  have htrim : trim (Comment.strip (ofWords words).code.toList) = (ofWords words).code.toList := by
    rw [hcode]
    exact (isCode_intercalate hpieces).trim_strip
  have hfound : Scan.words (ofWords words).code.toList = words := by
    rw [hcode, Scan.words, Scan.rawWords_spelled hrs, hread]
  rw [parse, htrim, hfound, String.ofList_toList]
  rfl

/-- Words with letters in both cases and repeated ones, with both zeros, and with doubles of the
least and of the largest magnitude. -/
def extremeWords : List (Char × Float) :=
  [('g', 1), ('X', -0.0), ('x', 0.0), ('Y', 5e-324), ('y', -1.7976931348623157e308), ('f', 0.1)]

/-- Both zeros, the smallest double and the largest one are read back, after letters of either
case. -/
theorem parse_ofWords_extremeWords :
    (extremeWords.all fun w => w.1.isAlpha && Scalar.isFinite w.2) = true ∧
      parse (ofWords (extremeWords.map fun w => Word.of w.1 w.2)).code =
        ofWords (extremeWords.map fun w => Word.of w.1 w.2) := by
  have hall : (extremeWords.all fun w => w.1.isAlpha && Scalar.isFinite w.2) = true := by
    decide +kernel
  refine ⟨hall, parse_ofWords extremeWords fun w hw => ?_⟩
  exact (Bool.and_eq_true _ _).mp (List.all_eq_true.mp hall w hw)

end Block

end DryRun
