import DryRun.Proofs.Number.Rounded
import DryRun.Proofs.Spelling

/-!
# The words of a line are those of a grammar

The scanner finds words by walking along a text. This module says without it what a word is and
which words a text has, and shows that the scanner finds exactly these.

A word is a letter, blanks, a sign that may be missing, and digits with an optional point and
optional further digits, or a point with digits after it (`Scan.SpellsWord`). A text may hold
words at many places, overlapping ones among them. The words that are found are a list of spans
of the text (`Scan.FoundFrom`): they are disjoint and in order, each is as long as a word can be
that starts where it starts, and no word starts outside of them. There is one such list only
(`Scan.FoundFrom.unique`).

The argument has two halves. At one place the scanner is sound and takes the longest word
(`Scan.exists_of_numberAfterLetter?`, `Scan.SpellsNumber.numberAfterLetter?_append`). Along the
text, each step either passes over a character at which no word starts, or takes the longest
word there and goes on behind it (`Scan.exists_foundFrom`).

A word that was found counts only if its digits have a value and if this is not too large for a
double. It is then read as the double that the value rounds to (`Scan.RawWord.Denotes`).

## Main results

* `Scan.FoundFrom.unique`: the words of a text are determined by the grammar.
* `Scan.exists_foundFrom`: the scanner finds the words of a text.
* `Block.words_parse_eq_grammar`: the words of a line are those of the grammar that have a value.
-/

namespace DryRun

open Text

namespace Scan

/-! ### The grammar -/

/-- The spellings of a sign, which may be missing. -/
inductive SpellsSign : List Char → Bool → Prop
  | missing : SpellsSign [] false
  | plus : SpellsSign ['+'] false
  | minus : SpellsSign ['-'] true

/-- The spellings of a number without a sign, by the digits before and after its point. -/
inductive SpellsDigits : List Char → List Char → List Char → Prop
  | whole {ds : List Char} (hne : ds ≠ []) (hds : ∀ c ∈ ds, isAnyDigit c) : SpellsDigits ds ds []
  | pointed {ds fs : List Char} (hne : ds ≠ []) (hds : ∀ c ∈ ds, isAnyDigit c)
      (hfs : ∀ c ∈ fs, isAnyDigit c) : SpellsDigits (ds ++ '.' :: fs) ds fs
  | fraction {fs : List Char} (hne : fs ≠ []) (hfs : ∀ c ∈ fs, isAnyDigit c) :
      SpellsDigits ('.' :: fs) [] fs

/-- The spellings of what follows a word's letter. -/
inductive SpellsNumber : List Char → NumberText → Prop
  | mk {blanks sign digits whole fraction : List Char} {negative : Bool}
      (hblanks : ∀ c ∈ blanks, isBlank c) (hsign : SpellsSign sign negative)
      (hdigits : SpellsDigits digits whole fraction) :
      SpellsNumber (blanks ++ (sign ++ digits)) ⟨negative, whole, fraction⟩

/-- The spellings of a word. -/
inductive SpellsWord : List Char → RawWord → Prop
  | mk {letter : Char} {cs : List Char} {n : NumberText} (hletter : isWordLetter letter)
      (hnumber : SpellsNumber cs n) : SpellsWord (letter :: cs) ⟨letter, n⟩

/-- A word at a place of a text: from a position on, up to another one. -/
@[ext] structure Span where
  start : Nat
  stop : Nat
  word : RawWord
deriving DecidableEq

/-- Whether the word is spelled at its place. -/
structure Span.IsMatch (text : List Char) (s : Span) : Prop where
  stop_le : s.stop ≤ text.length
  spells : SpellsWord (text.extract s.start s.stop) s.word

/-- The words of a text from a position on: spans that are disjoint and in order, the longest from
where they start, and outside of which no word starts. -/
structure FoundFrom (text : List Char) (p : Nat) (spans : List Span) : Prop where
  le_start : ∀ s ∈ spans, p ≤ s.start
  isMatch : ∀ s ∈ spans, s.IsMatch text
  ordered : spans.Pairwise fun s t => s.stop ≤ t.start
  longest : ∀ s ∈ spans, ∀ t : Span, t.IsMatch text → t.start = s.start → t.stop ≤ s.stop
  complete : ∀ t : Span, t.IsMatch text → p ≤ t.start →
    ∃ s ∈ spans, s.start ≤ t.start ∧ t.start < s.stop

/-! ### One number -/

/-- Digits in front of a text lengthen its run of digits. -/
theorem digitRun_append_of_isAnyDigit {ds : List Char} (hds : ∀ c ∈ ds, isAnyDigit c)
    (cs : List Char) : digitRun (ds ++ cs) = ds ++ digitRun cs :=
  List.takeWhile_append_of_pos hds

/-- Digits in front of a text do not change what follows its run of digits. -/
theorem afterDigits_append_of_isAnyDigit {ds : List Char} (hds : ∀ c ∈ ds, isAnyDigit c)
    (cs : List Char) : afterDigits (ds ++ cs) = afterDigits cs :=
  List.dropWhile_append_of_pos hds

/-- A run of digits consists of digits. -/
theorem isAnyDigit_of_mem_digitRun {cs : List Char} : ∀ c ∈ digitRun cs, isAnyDigit c :=
  List.all_eq_true.1 List.all_takeWhile

/-- A text is its run of digits and what follows. -/
theorem digitRun_append_afterDigits (cs : List Char) : digitRun cs ++ afterDigits cs = cs :=
  List.takeWhile_append_dropWhile

/-- What is read as a number without a sign is spelled as one. -/
theorem exists_of_unsigned? {negative : Bool} {cs rest : List Char} {n : NumberText}
    (h : unsigned? negative cs = some (n, rest)) :
    ∃ digits whole fraction, cs = digits ++ rest ∧ n = ⟨negative, whole, fraction⟩ ∧
      SpellsDigits digits whole fraction := by
  by_cases hpoint : ∃ tail, afterDigits cs = '.' :: tail
  · obtain ⟨tail, htail⟩ := hpoint
    have hcs : cs = digitRun cs ++ '.' :: (digitRun tail ++ afterDigits tail) := by
      rw [digitRun_append_afterDigits, ← htail, digitRun_append_afterDigits]
    rw [unsigned?_of_point negative htail] at h
    obtain ⟨hsome, heq⟩ := Option.ite_none_left_eq_some.1 h
    cases heq
    by_cases hwhole : digitRun cs = []
    · refine ⟨'.' :: digitRun tail, [], digitRun tail, ?_, by rw [hwhole], .fraction ?_ ?_⟩
      · rwa [hwhole] at hcs
      · exact fun hfraction => hsome ⟨hwhole, hfraction⟩
      · exact isAnyDigit_of_mem_digitRun
    · refine ⟨_, digitRun cs, digitRun tail, ?_, rfl,
        .pointed hwhole isAnyDigit_of_mem_digitRun isAnyDigit_of_mem_digitRun⟩
      rwa [List.append_assoc, List.cons_append]
  · rw [unsigned?_of_no_point negative fun tail htail => hpoint ⟨tail, htail⟩] at h
    obtain ⟨hwhole, heq⟩ := Option.ite_none_left_eq_some.1 h
    cases heq
    exact ⟨digitRun cs, digitRun cs, [], (digitRun_append_afterDigits cs).symm, rfl,
      .whole hwhole isAnyDigit_of_mem_digitRun⟩

/-- A number with a point is read up to the last of the digits. -/
theorem unsigned?_pointed {ds fs : List Char} (hds : ∀ c ∈ ds, isAnyDigit c)
    (hfs : ∀ c ∈ fs, isAnyDigit c) (hsome : ds = [] → fs ≠ []) (negative : Bool)
    (tail : List Char) :
    unsigned? negative (ds ++ '.' :: (fs ++ tail)) =
      some (⟨negative, ds, fs ++ digitRun tail⟩, afterDigits tail) := by
  have hdot : ∀ c ∈ ('.' :: (fs ++ tail)).head?, isAnyDigit c = false := by
    rintro c hc
    cases hc
    decide
  obtain ⟨hrun, hafter⟩ := takeWhile_dropWhile_append hds hdot
  have hfraction := digitRun_append_of_isAnyDigit hfs tail
  rw [unsigned?_of_point negative hafter, digitRun, hrun, hfraction,
    afterDigits_append_of_isAnyDigit hfs, if_neg]
  rintro ⟨hwhole, hnil⟩
  exact hsome hwhole (List.append_eq_nil_iff.1 hnil).1

/-- A number without a sign is read, and at least as much of the text as spells it. -/
theorem SpellsDigits.unsigned?_append {digits whole fraction : List Char}
    (h : SpellsDigits digits whole fraction) (negative : Bool) (tail : List Char) :
    ∃ n rest, unsigned? negative (digits ++ tail) = some (n, rest) ∧ rest.length ≤ tail.length ∧
      (tail = [] → n = ⟨negative, whole, fraction⟩) := by
  have hlength := length_afterDigits_le tail
  cases h with
  | whole hne hds =>
      have hrun := digitRun_append_of_isAnyDigit hds tail
      have hafter := afterDigits_append_of_isAnyDigit hds tail
      have hne' : digitRun (digits ++ tail) ≠ [] := by
        rw [hrun]
        exact List.append_ne_nil_of_left_ne_nil hne _
      by_cases hpoint : ∃ cs, afterDigits (digits ++ tail) = '.' :: cs
      · obtain ⟨cs, hcs⟩ := hpoint
        have hlength' := length_afterDigits_le cs
        rw [← hafter, hcs, List.length_cons] at hlength
        rw [unsigned?_of_point negative hcs, if_neg fun h => hne' h.1]
        refine ⟨_, _, rfl, by omega, ?_⟩
        rintro rfl
        rw [hafter] at hcs
        cases hcs
      · rw [unsigned?_of_no_point negative fun cs hcs => hpoint ⟨cs, hcs⟩, if_neg hne', hafter]
        refine ⟨_, _, rfl, hlength, ?_⟩
        rintro rfl
        rw [hrun, digitRun, List.takeWhile_nil, List.append_nil]
  | @pointed _ fs hne hds hfs =>
      rw [List.append_assoc, List.cons_append,
        unsigned?_pointed hds hfs fun hnil => absurd hnil hne]
      refine ⟨_, _, rfl, hlength, ?_⟩
      rintro rfl
      rw [digitRun, List.takeWhile_nil, List.append_nil]
  | fraction hne hfs =>
      have hread := unsigned?_pointed (fun _ hc => absurd hc List.not_mem_nil) hfs (fun _ => hne)
        negative tail
      refine ⟨_, _, hread, hlength, ?_⟩
      rintro rfl
      rw [digitRun, List.takeWhile_nil, List.append_nil]

/-! ### What follows a letter -/

/-- The sign that is read is spelled. -/
theorem exists_spellsSign (cs : List Char) :
    ∃ sign, cs = sign ++ (Decimal.scanSign cs).2 ∧ SpellsSign sign (Decimal.scanSign cs).1 := by
  unfold Decimal.scanSign
  split
  · exact ⟨['-'], rfl, .minus⟩
  · exact ⟨['+'], rfl, .plus⟩
  · exact ⟨[], rfl, .missing⟩

/-- What is read behind a letter is spelled as a number. -/
theorem exists_of_numberAfterLetter? {cs rest : List Char} {n : NumberText}
    (h : numberAfterLetter? cs = some (n, rest)) : ∃ taken, cs = taken ++ rest ∧
      SpellsNumber taken n := by
  obtain ⟨sign, hsign, hspells⟩ := exists_spellsSign (cs.dropWhile isBlank)
  obtain ⟨digits, whole, fraction, hrest, rfl, hdigits⟩ := exists_of_unsigned? h
  refine ⟨cs.takeWhile isBlank ++ (sign ++ digits), ?_,
    .mk (List.all_eq_true.1 List.all_takeWhile) hspells hdigits⟩
  rw [List.append_assoc, List.append_assoc, ← hrest, ← hsign, List.takeWhile_append_dropWhile]

/-- Ranges that do not meet have no character in common. -/
theorem inRanges_eq_false {ranges others : List (Nat × Nat)}
    (hdisjoint : ranges.all fun r => others.all fun s => r.2 < s.1 || s.2 < r.1) {c : Char}
    (h : inRanges ranges c) : inRanges others c = false := by
  obtain ⟨r, hr, hc⟩ := List.any_eq_true.1 h
  refine List.any_eq_false.2 fun s hs hc' => ?_
  have hrs := List.all_eq_true.1 (List.all_eq_true.1 hdisjoint r hr) s hs
  simp only [Bool.and_eq_true, Bool.or_eq_true, decide_eq_true_eq] at hc hc' hrs
  omega

/-- No digit is a blank. -/
theorem isBlank_of_isAnyDigit {c : Char} (h : isAnyDigit c) : isBlank c = false :=
  inRanges_eq_false (by decide) h

/-- Digits begin with a digit or a point. -/
theorem SpellsDigits.exists_cons {digits whole fraction : List Char}
    (h : SpellsDigits digits whole fraction) :
    ∃ c cs, digits = c :: cs ∧ (isAnyDigit c ∨ c = '.') := by
  cases h with
  | whole hne hds =>
      obtain ⟨c, cs, rfl⟩ := List.exists_cons_of_ne_nil hne
      exact ⟨c, cs, rfl, .inl (hds c List.mem_cons_self)⟩
  | pointed hne hds hfs =>
      obtain ⟨c, cs, rfl⟩ := List.exists_cons_of_ne_nil hne
      exact ⟨c, _, rfl, .inl (hds c List.mem_cons_self)⟩
  | fraction hne hfs => exact ⟨'.', _, rfl, .inr rfl⟩

/-- The sign before digits is read, and no blank is in its place. -/
theorem SpellsSign.scanSign_append {sign digits whole fraction : List Char} {negative : Bool}
    (h : SpellsSign sign negative) (hdigits : SpellsDigits digits whole fraction)
    (tail : List Char) :
    Decimal.scanSign (sign ++ (digits ++ tail)) = (negative, digits ++ tail) ∧
      ∀ c ∈ (sign ++ (digits ++ tail)).head?, isBlank c = false := by
  cases h with
  | missing =>
      obtain ⟨c, cs, rfl, hc | rfl⟩ := hdigits.exists_cons
      · refine ⟨scanSign_of_isAnyDigit hc _, ?_⟩
        rintro d hd
        cases hd
        exact isBlank_of_isAnyDigit hc
      · refine ⟨rfl, ?_⟩
        rintro d hd
        cases hd
        decide
  | plus =>
      refine ⟨rfl, ?_⟩
      rintro d hd
      cases hd
      decide
  | minus =>
      refine ⟨rfl, ?_⟩
      rintro d hd
      cases hd
      decide

/-- A number behind a letter is read, and at least as much of the text as spells it. -/
theorem SpellsNumber.numberAfterLetter?_append {cs : List Char} {n : NumberText}
    (h : SpellsNumber cs n) (tail : List Char) :
    ∃ n' rest, numberAfterLetter? (cs ++ tail) = some (n', rest) ∧ rest.length ≤ tail.length ∧
      (tail = [] → n' = n) := by
  obtain ⟨hblanks, hsign, hdigits⟩ := h
  obtain ⟨hscan, hhead⟩ := hsign.scanSign_append hdigits tail
  rw [numberAfterLetter?, List.append_assoc, List.append_assoc,
    (takeWhile_dropWhile_append hblanks hhead).2, number?, hscan]
  exact hdigits.unsigned?_append _ tail

/-- The spelling of a word is its letter and the spelling of its number. -/
theorem SpellsWord.exists_cons {cs : List Char} {w : RawWord} (h : SpellsWord cs w) :
    ∃ taken, cs = w.letter :: taken ∧ isWordLetter w.letter ∧ SpellsNumber taken w.number := by
  cases h with
  | mk hletter hnumber => exact ⟨_, rfl, hletter, hnumber⟩

/-- The spelling of a word is not empty. -/
theorem SpellsWord.length_pos {cs : List Char} {w : RawWord} (h : SpellsWord cs w) :
    0 < cs.length := by
  obtain ⟨taken, rfl, -⟩ := h.exists_cons
  exact Nat.succ_pos _

/-- A text spells at most one word. -/
theorem SpellsWord.unique {cs : List Char} {w w' : RawWord} (h : SpellsWord cs w)
    (h' : SpellsWord cs w') : w = w' := by
  obtain ⟨-, hnumber⟩ := h
  obtain ⟨-, hnumber'⟩ := h'
  obtain ⟨n, rest, hread, -, hn⟩ := hnumber.numberAfterLetter?_append []
  obtain ⟨n', rest', hread', -, hn'⟩ := hnumber'.numberAfterLetter?_append []
  rw [hread] at hread'
  cases hread'
  rw [← hn rfl, ← hn' rfl]

/-! ### Words at their places -/

variable {text : List Char} {p : Nat} {s t : Span} {spans spans' : List Span}

/-- A word at its place, as the text from there on has it. -/
theorem Span.isMatch_iff : s.IsMatch text ↔
    ∃ taken tail, text.drop s.start = taken ++ tail ∧ s.stop = s.start + taken.length ∧
      SpellsWord taken s.word := by
  constructor
  · rintro ⟨hstop, hspells⟩
    have hlength : (text.extract s.start s.stop).length = s.stop - s.start := by
      rw [List.extract_eq_take_drop, List.length_take, List.length_drop]
      omega
    have hpos := hspells.length_pos
    refine ⟨_, (text.drop s.start).drop (s.stop - s.start), ?_, by omega, hspells⟩
    rw [List.extract_eq_take_drop, List.take_append_drop]
  · rintro ⟨taken, tail, hdrop, hstop, hspells⟩
    have hpos := hspells.length_pos
    have hlength := congrArg List.length hdrop
    rw [List.length_drop, List.length_append] at hlength
    refine ⟨by omega, ?_⟩
    rwa [List.extract_eq_take_drop, hdrop, hstop, Nat.add_sub_cancel_left, List.take_left]

/-- A match is not empty. -/
theorem Span.IsMatch.start_lt (h : s.IsMatch text) : s.start < s.stop := by
  obtain ⟨taken, tail, -, hstop, hspells⟩ := isMatch_iff.1 h
  have hpos := hspells.length_pos
  omega

/-- A word starts only where the scanner finds one, and it is no longer than that one. -/
theorem Span.IsMatch.exists_number {c : Char} {cs : List Char} (h : s.IsMatch text)
    (hdrop : text.drop s.start = c :: cs) :
    isWordLetter c ∧ ∃ n rest, numberAfterLetter? cs = some (n, rest) ∧
      s.stop + rest.length ≤ text.length := by
  obtain ⟨taken, tail, htext, hstop, hspells⟩ := isMatch_iff.1 h
  obtain ⟨cs', rfl, hletter, hnumber⟩ := hspells.exists_cons
  obtain ⟨n, rest, hread, hrest, -⟩ := hnumber.numberAfterLetter?_append tail
  have hlength := congrArg List.length htext
  rw [List.length_drop, List.length_append] at hlength
  rw [List.length_cons] at hlength hstop
  obtain ⟨rfl, rfl⟩ := List.cons.inj (hdrop.symm.trans htext)
  exact ⟨hletter, n, rest, hread, by omega⟩

/-- The word that the scanner finds is one. -/
theorem Span.isMatch_of_number {c : Char} {taken rest : List Char} {n : NumberText}
    (hdrop : text.drop p = c :: (taken ++ rest)) (hletter : isWordLetter c)
    (hnumber : SpellsNumber taken n) :
    Span.IsMatch text ⟨p, p + (taken.length + 1), ⟨c, n⟩⟩ :=
  isMatch_iff.2 ⟨c :: taken, rest, hdrop, rfl, .mk hletter hnumber⟩

namespace FoundFrom

/-- The first span is the first place where a word starts. -/
theorem start_le (h : FoundFrom text p (s :: spans)) (ht : t.IsMatch text) (hp : p ≤ t.start) :
    s.start ≤ t.start := by
  obtain ⟨u, hu, hle, -⟩ := h.complete t ht hp
  rcases List.mem_cons.1 hu with rfl | hu
  · exact hle
  · have hstart := (h.isMatch s List.mem_cons_self).start_lt
    have hordered := List.rel_of_pairwise_cons h.ordered hu
    omega

/-- The spans behind the first one are the words of the text behind it. -/
theorem tail (h : FoundFrom text p (s :: spans)) : FoundFrom text s.stop spans where
  le_start _ hu := List.rel_of_pairwise_cons h.ordered hu
  isMatch u hu := h.isMatch u (List.mem_cons_of_mem s hu)
  ordered := h.ordered.of_cons
  longest u hu := h.longest u (List.mem_cons_of_mem s hu)
  complete t ht hle := by
    have hstart := (h.isMatch s List.mem_cons_self).start_lt
    have hp := h.le_start s List.mem_cons_self
    obtain ⟨u, hu, hcovers⟩ := h.complete t ht (by omega)
    rcases List.mem_cons.1 hu with rfl | hu
    · omega
    · exact ⟨u, hu, hcovers⟩

/-- **The words of a text are determined by the grammar.** -/
theorem unique (h : FoundFrom text p spans) (h' : FoundFrom text p spans') : spans = spans' := by
  induction spans generalizing p spans' with
  | nil =>
      cases spans' with
      | nil => rfl
      | cons t ts =>
          have ht := List.mem_cons_self (a := t) (l := ts)
          obtain ⟨u, hu, -⟩ := h.complete t (h'.isMatch t ht) (h'.le_start t ht)
          exact absurd hu List.not_mem_nil
  | cons s ss ih =>
      have hs := List.mem_cons_self (a := s) (l := ss)
      have hmatch := h.isMatch s hs
      cases spans' with
      | nil =>
          obtain ⟨u, hu, -⟩ := h'.complete s hmatch (h.le_start s hs)
          exact absurd hu List.not_mem_nil
      | cons t ts =>
          have ht := List.mem_cons_self (a := t) (l := ts)
          have hmatch' := h'.isMatch t ht
          have hstart : s.start = t.start :=
            le_antisymm (h.start_le hmatch' (h'.le_start t ht))
              (h'.start_le hmatch (h.le_start s hs))
          have hstop : s.stop = t.stop :=
            le_antisymm (h'.longest t ht s hmatch hstart)
              (h.longest s hs t hmatch' hstart.symm)
          have hword : s.word = t.word := by
            refine hmatch.spells.unique ?_
            rw [hstart, hstop]
            exact hmatch'.spells
          obtain rfl : s = t := Span.ext hstart hstop hword
          rw [ih h.tail h'.tail]

/-- Nothing is found at the end of a text. -/
theorem nil (hdrop : text.drop p = []) : FoundFrom text p [] where
  le_start _ hs := absurd hs List.not_mem_nil
  isMatch _ hs := absurd hs List.not_mem_nil
  ordered := .nil
  longest _ hs := absurd hs List.not_mem_nil
  complete t ht hp := by
    have hend := List.drop_eq_nil_iff.1 hdrop
    have hstart := ht.start_lt
    have hstop := ht.stop_le
    omega

/-- A character at which no word starts is passed over. -/
theorem skip (hnone : ∀ t : Span, t.IsMatch text → t.start ≠ p)
    (h : FoundFrom text (p + 1) spans) : FoundFrom text p spans where
  le_start s hs := Nat.le_of_succ_le (h.le_start s hs)
  isMatch := h.isMatch
  ordered := h.ordered
  longest := h.longest
  complete t ht hp := h.complete t ht (Nat.lt_of_le_of_ne hp (hnone t ht).symm)

/-- The longest word at a position is taken, and the search goes on behind it. -/
theorem cons (hmatch : s.IsMatch text)
    (hlongest : ∀ t : Span, t.IsMatch text → t.start = s.start → t.stop ≤ s.stop)
    (h : FoundFrom text s.stop spans) : FoundFrom text s.start (s :: spans) where
  le_start t ht := by
    rcases List.mem_cons.1 ht with rfl | ht
    · exact le_rfl
    · exact hmatch.start_lt.le.trans (h.le_start t ht)
  isMatch := List.forall_mem_cons.2 ⟨hmatch, h.isMatch⟩
  ordered := List.pairwise_cons.2 ⟨h.le_start, h.ordered⟩
  longest := List.forall_mem_cons.2 ⟨hlongest, h.longest⟩
  complete t ht hp := by
    by_cases hlt : t.start < s.stop
    · exact ⟨s, List.mem_cons_self, hp, hlt⟩
    · obtain ⟨u, hu, hcovers⟩ := h.complete t ht (not_lt.1 hlt)
      exact ⟨u, List.mem_cons_of_mem s hu, hcovers⟩

end FoundFrom

/-- **The scanner finds the words of a text**, from every position on. -/
theorem exists_foundFrom {cs : List Char} (hdrop : text.drop p = cs) :
    ∃ spans, FoundFrom text p spans ∧ spans.map Span.word = rawWords cs := by
  fun_induction rawWords cs generalizing p with
  | case1 => exact ⟨[], .nil hdrop, rfl⟩
  | case2 c cs hc n rest hread ih =>
      obtain ⟨taken, rfl, hnumber⟩ := exists_of_numberAfterLetter? hread
      have hbehind : text.drop (p + (taken.length + 1)) = rest := by
        rw [← List.drop_drop, hdrop, List.drop_succ_cons, List.drop_left]
      obtain ⟨spans, hfound, hwords⟩ := ih hbehind
      let s : Span := ⟨p, p + (taken.length + 1), ⟨c, n⟩⟩
      have hmatch : s.IsMatch text := Span.isMatch_of_number hdrop hc hnumber
      have hlongest : ∀ t : Span, t.IsMatch text → t.start = p → t.stop ≤ s.stop := by
        rintro t ht rfl
        obtain ⟨-, n', rest', hread', hlength'⟩ := ht.exists_number hdrop
        have hlength := congrArg List.length hdrop
        rw [List.length_drop, List.length_cons, List.length_append] at hlength
        rw [hread] at hread'
        cases hread'
        change t.stop ≤ t.start + (taken.length + 1)
        omega
      refine ⟨s :: spans, .cons hmatch hlongest hfound, ?_⟩
      rw [List.map_cons, hwords]
  | case3 c cs hc hread ih =>
      have hnext : text.drop (p + 1) = cs := by
        rw [List.drop_add_one_eq_tail_drop, hdrop, List.tail_cons]
      obtain ⟨spans, hfound, hwords⟩ := ih hnext
      refine ⟨spans, hfound.skip ?_, hwords⟩
      rintro t ht rfl
      obtain ⟨-, n, rest, hread', -⟩ := ht.exists_number hdrop
      rw [hread] at hread'
      cases hread'
  | case4 c cs hc ih =>
      have hnext : text.drop (p + 1) = cs := by
        rw [List.drop_add_one_eq_tail_drop, hdrop, List.tail_cons]
      obtain ⟨spans, hfound, hwords⟩ := ih hnext
      refine ⟨spans, hfound.skip ?_, hwords⟩
      rintro t ht rfl
      exact hc (ht.exists_number hdrop).1

example : rawWords "xg 01(y-.5z+2.a\u0663".toList =
    [⟨'g', false, ['0', '1'], []⟩, ⟨'y', true, [], ['5']⟩, ⟨'z', false, ['2'], []⟩,
      ⟨'a', false, ['\u0663'], []⟩] := by cbv

/-! ### Values -/

/-- The magnitude that a number's digits denote. -/
def NumberText.magnitude (n : NumberText) : ℚ :=
  Nat.ofDigitChars 10 n.whole 0 + Nat.ofDigitChars 10 n.fraction 0 / 10 ^ n.fraction.length

/-- Whether a number's digits are ASCII digits, which alone have a value. -/
def NumberText.IsAscii (n : NumberText) : Prop :=
  (∀ c ∈ n.whole, c.isDigit) ∧ ∀ c ∈ n.fraction, c.isDigit

instance (n : NumberText) : Decidable n.IsAscii := inferInstanceAs (Decidable (_ ∧ _))

/-- Whether a word's number has a value, and one that is not too large. -/
def RawWord.HasValue (w : RawWord) : Prop :=
  w.number.IsAscii ∧ w.number.magnitude < Double.overflow

instance (w : RawWord) : Decidable w.HasValue := inferInstanceAs (Decidable (_ ∧ _))

/-- What a word is read as: its letter in upper case and the double that its number rounds to,
which is finite. -/
structure RawWord.Denotes (w : RawWord) (v : Word Float) : Prop where
  letter : v.letter = w.letter.toUpper
  isFinite : v.value.isFinite
  rounds : Double.Rounds (if w.number.negative then .negative else .positive) w.number.magnitude
    v.value.toModel.unpack

/-- The decimal of a number's digits has the magnitude that they denote. -/
theorem absValue_ofDigits (n : NumberText) :
    (Decimal.ofDigits n.negative n.whole n.fraction).absValue = n.magnitude := by
  have hpos : (10 : ℚ) ^ n.fraction.length ≠ 0 := by positivity
  rw [Decimal.absValue, Decimal.ofDigits, NumberText.magnitude, Nat.ofDigitChars_append,
    Nat.ofDigitChars_eq_ofDigitChars_zero, zpow_neg, zpow_natCast]
  push_cast
  field_simp

/-- Whether a number has ASCII digits only can be decided. -/
theorem NumberText.isAscii_iff {n : NumberText} :
    (n.whole.all Char.isDigit && n.fraction.all Char.isDigit) = true ↔ n.IsAscii := by
  rw [Bool.and_eq_true, List.all_eq_true, List.all_eq_true, IsAscii]

/-- A number with ASCII digits only has a value. -/
theorem NumberText.decimal?_of_isAscii {n : NumberText} (h : n.IsAscii) :
    n.decimal? = some (Decimal.ofDigits n.negative n.whole n.fraction) :=
  if_pos (isAscii_iff.2 h)

/-- A number with other digits has no value. -/
theorem NumberText.decimal?_of_not_isAscii {n : NumberText} (h : ¬n.IsAscii) :
    n.decimal? = none :=
  if_neg (mt isAscii_iff.1 h)

/-- A word whose number has a value is read. -/
theorem RawWord.exists_word? {w : RawWord} (h : w.HasValue) :
    ∃ v : Word Float, w.word? = some v ∧ w.Denotes v := by
  obtain ⟨hascii, hlt⟩ := h
  rw [← absValue_ofDigits] at hlt
  have hfinite := (Double.isFinite_ofDecimal _).2 hlt
  refine ⟨Word.of w.letter (Double.ofDecimal _), ?_, ⟨rfl, hfinite, ?_⟩⟩
  · rw [RawWord.word?, NumberText.decimal?_of_isAscii hascii]
    exact if_pos hfinite
  · rw [← absValue_ofDigits]
    exact Double.rounds_ofDecimal _

/-- A word whose number has no value, or one that is too large, is dropped. -/
theorem RawWord.word?_eq_none {w : RawWord} (h : ¬w.HasValue) :
    (w.word? : Option (Word Float)) = none := by
  by_cases hascii : w.number.IsAscii
  · have hlarge : ¬(Double.ofDecimal (.ofDigits w.number.negative w.number.whole
        w.number.fraction)).isFinite = true := by
      rw [Double.isFinite_ofDecimal, absValue_ofDigits]
      exact fun hlt => h ⟨hascii, hlt⟩
    rw [RawWord.word?, NumberText.decimal?_of_isAscii hascii]
    exact if_neg hlarge
  · rw [RawWord.word?, NumberText.decimal?_of_not_isAscii hascii]
    rfl

/-- The words that are read, one by one, are those whose numbers have a value. -/
theorem forall₂_filterMap_word? (ws : List RawWord) :
    List.Forall₂ RawWord.Denotes (ws.filter fun w => w.HasValue) (ws.filterMap RawWord.word?) := by
  induction ws with
  | nil => exact .nil
  | cons w ws ih =>
      by_cases h : w.HasValue
      · obtain ⟨v, hword, hdenotes⟩ := RawWord.exists_word? h
        rw [List.filter_cons_of_pos (p := fun w : RawWord => w.HasValue) (decide_eq_true h),
          List.filterMap_cons_some hword]
        exact .cons hdenotes ih
      · rw [List.filter_cons_of_neg (by simpa using h),
          List.filterMap_cons_none (RawWord.word?_eq_none h)]
        exact ih

end Scan

/-- **The words of a line are those of the grammar.** In the line without comments and outer
blanks there is one list of spans that are disjoint and in order, the longest from where they
start, and outside of which no word starts. The words of the line are, in this order, what those
among them denote whose digits have a value that is not too large. -/
theorem Block.words_parse_eq_grammar (source : String) :
    ∃ spans : List Scan.Span,
      (∀ found, Scan.FoundFrom (trim (Comment.strip source.toList)) 0 found ↔ found = spans) ∧
      List.Forall₂ (fun s v => s.word.Denotes v) (spans.filter fun s => s.word.HasValue)
        (Block.parse source : Block Float).words := by
  obtain ⟨spans, hfound, hwords⟩ :=
    Scan.exists_foundFrom (List.drop_zero (l := trim (Comment.strip source.toList)))
  refine ⟨spans, fun found => ⟨fun h => h.unique hfound, fun h => h ▸ hfound⟩, ?_⟩
  change List.Forall₂ _ _ (Scan.words (trim (Comment.strip source.toList)))
  have hread := Scan.forall₂_filterMap_word? (spans.map Scan.Span.word)
  rw [List.filter_map, List.forall₂_map_left_iff, Function.comp_def] at hread
  rw [Scan.words, ← hwords]
  exact hread

end DryRun
