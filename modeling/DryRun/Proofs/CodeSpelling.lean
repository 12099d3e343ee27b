import DryRun.Proofs.Grammar
import DryRun.Proofs.Number.Tenths

/-!
# The spelling of codes

A code is an integer, the number of a command in tenths, and messages name the command by the
spelling of its code: the whole part, and one decimal if there is one. The whole part is cut off
towards zero and the decimal is written without a sign, so the sign of the spelling is that of the
whole part. Where the whole part is zero the sign is lost: the codes `-9` to `-1` are spelled as
`1` to `9` are, and `G-0.5` is named `G0.5`.

Apart from this the spelling is exact. It is the numeral of the code that it names, other codes are
spelled differently, and a line that holds the spelling is read as one word with this code, though
the number of the word is a double and most numbers with one decimal are not.

## Main results

* `codeText_eq_iff`: which codes have the same spelling.
* `exists_words_parse_codeText`: the spelling is read as a word with the code that it names.
* `codeText_faithful_up_to_sign`: the spelling of every code, and what is read from it.
-/

namespace DryRun

open Scan (NumberText)

/-! ### The numeral of a code -/

/-- The signed value that a number's text denotes. -/
def Scan.NumberText.value (n : NumberText) : ℚ := if n.negative then -n.magnitude else n.magnitude

/-- The code that the spelling of a code names: without its sign if the whole part is zero. -/
def spelledCode (code : Int) : Int := if code ≤ -10 then code else code.natAbs

/-- The number that is spelled behind the letter. -/
def codeNumeral (code : Int) : NumberText where
  negative := code ≤ -10
  whole := Decimal.digits (code.natAbs / 10)
  fraction := if code.natAbs % 10 = 0 then [] else Decimal.digits (code.natAbs % 10)

/-- A code is named by its spelling unless it is negative with a whole part of zero. -/
theorem spelledCode_eq_self_iff {code : Int} :
    spelledCode code = code ↔ ¬(-10 < code ∧ code < 0) := by
  unfold spelledCode
  split <;> omega

/-- Two codes are spelled as one if they differ at most in a sign that is lost. -/
theorem spelledCode_eq_iff {a b : Int} :
    spelledCode a = spelledCode b ↔ a = b ∨ a = -b ∧ -10 < a ∧ a < 10 := by
  unfold spelledCode
  split <;> split <;> omega

/-- A spelling can lose nothing but the sign. -/
theorem natAbs_spelledCode (code : Int) : (spelledCode code).natAbs = code.natAbs := by
  unfold spelledCode
  split <;> omega

/-- The code that a spelling names is spelled in the same way. -/
theorem codeNumeral_spelledCode (code : Int) :
    codeNumeral (spelledCode code) = codeNumeral code := by
  have hsign : spelledCode code ≤ -10 ↔ code ≤ -10 := by
    unfold spelledCode
    split <;> omega
  simp only [codeNumeral, natAbs_spelledCode, hsign]

/-- The numeral of a code is spelled in digits. -/
theorem spelled_codeNumeral (code : Int) : (codeNumeral code).Spelled where
  whole_ne_nil := Nat.toDigits_ne_nil
  whole := Decimal.all_isDigit_digits _
  fraction := by
    rw [codeNumeral]
    split
    · rfl
    · exact Decimal.all_isDigit_digits _

/-- The numeral of a code denotes a tenth of it, up to the sign. -/
theorem magnitude_codeNumeral (code : Int) : (codeNumeral code).magnitude = code.natAbs / 10 := by
  have hsplit : (10 * (code.natAbs / 10 : Nat) + (code.natAbs % 10 : Nat) : ℚ) = code.natAbs := by
    exact_mod_cast Nat.div_add_mod code.natAbs 10
  rw [NumberText.magnitude, codeNumeral, Decimal.digits, Nat.ofDigitChars_ten_toDigits]
  split
  · next hwhole =>
      rw [hwhole] at hsplit
      simp only [Nat.ofDigitChars_nil, List.length_nil]
      linarith
  · rw [Decimal.digits, Nat.ofDigitChars_ten_toDigits,
      Nat.toDigits_of_lt_base (Nat.mod_lt _ (by decide)), List.length_singleton]
    linarith

/-- The numeral of a code denotes the code that it names, in tenths. -/
theorem value_codeNumeral (code : Int) : (codeNumeral code).value = spelledCode code / 10 := by
  have hsign : (codeNumeral code).negative = decide (code ≤ -10) := rfl
  rw [NumberText.value, magnitude_codeNumeral, hsign, spelledCode]
  by_cases h : code ≤ -10
  · have habs : (code.natAbs : ℚ) = -code := by
      rw [Nat.cast_natAbs, abs_of_nonpos (by omega), Int.cast_neg]
    rw [if_pos (decide_eq_true h), if_pos h, habs]
    ring
  · rw [if_neg (by rwa [decide_eq_true_eq]), if_neg h, Int.cast_natCast]

/-! ### The text -/

/-- An integer is written as its sign and its digits. -/
theorem toList_toString_int (n : Int) :
    (toString n).toList = Decimal.signText (n < 0) ++ Decimal.digits n.natAbs := by
  cases n with
  | ofNat n =>
      change (toString n).toList = _
      rw [Nat.toString_eq_repr, Nat.toList_repr]
      simp [Decimal.signText, Decimal.digits]
  | negSucc n =>
      change ("-" ++ toString (n + 1)).toList = _
      rw [String.toList_append, Nat.toString_eq_repr, Nat.toList_repr]
      simp [Decimal.signText, Decimal.digits]

/-- The spelling of a code is the letter with the numeral behind it. -/
theorem toList_codeText (letter : Char) (code : Int) :
    (codeText letter code).toList = letter :: (codeNumeral code).chars := by
  have hwhole : (toString (code.tdiv 10)).toList =
      Decimal.signText (code ≤ -10) ++ Decimal.digits (code.natAbs / 10) := by
    have hsign : code.tdiv 10 < 0 ↔ code ≤ -10 := by
      rw [Int.tdiv_eq_ediv, show Int.sign 10 = 1 from rfl]
      split <;> omega
    rw [toList_toString_int, Int.natAbs_tdiv]
    simp only [hsign]
    rfl
  have htenth : (code.tmod 10).natAbs = code.natAbs % 10 := Int.natAbs_tmod code 10
  have hzero : code.tmod 10 = 0 ↔ code.natAbs % 10 = 0 := by rw [← htenth, Int.natAbs_eq_zero]
  simp only [codeText, hzero, htenth, NumberText.chars, NumberText.unsignedChars, codeNumeral]
  split
  · rw [String.toList_append, hwhole, Char.toString_eq_singleton, String.toList_singleton]
    simp
  · rw [String.toList_append, String.toList_append, String.toList_append, hwhole,
      Char.toString_eq_singleton, String.toList_singleton, Nat.toString_eq_repr, Nat.toList_repr,
      if_neg (show Decimal.digits _ ≠ [] from Nat.toDigits_ne_nil)]
    simp [Decimal.digits]

/-- **Two codes have the same spelling if they differ in their sign only, and their whole part is
zero.** The text is read to tell the codes apart. -/
theorem codeText_eq_iff (letter : Char) {a b : Int} :
    codeText letter a = codeText letter b ↔ a = b ∨ a = -b ∧ -10 < a ∧ a < 10 := by
  rw [← spelledCode_eq_iff, ← String.toList_inj, toList_codeText, toList_codeText]
  constructor
  · intro h
    have hread (code : Int) :
        Scan.number? (codeNumeral code).chars = some (codeNumeral code, []) := by
      simpa using Scan.number?_chars (spelled_codeNumeral code) Scan.endsNumber_nil
    have hnumeral : codeNumeral a = codeNumeral b := by
      have := hread a
      rw [(List.cons.inj h).2, hread b] at this
      simpa using this.symm
    have hvalue := congrArg NumberText.value hnumeral
    rw [value_codeNumeral, value_codeNumeral, div_left_inj' (by norm_num)] at hvalue
    exact_mod_cast hvalue
  · intro h
    rw [← codeNumeral_spelledCode a, h, codeNumeral_spelledCode]

/-! ### Reading -/

/-- Letters are characters of code. -/
theorem isCodeChar_of_isAlpha {c : Char} (h : c.isAlpha) : Text.IsCodeChar c := by
  rcases Bool.or_eq_true_iff.1 h with hupper | hlower
  · exact Text.isCodeChar_of_isUpper hupper
  · simp only [Char.isLower, Bool.and_eq_true, decide_eq_true_eq] at hlower
    obtain ⟨hle, hge⟩ : 97 ≤ c.toNat ∧ c.toNat ≤ 122 := hlower
    exact Text.isCodeChar_of_toNat (by omega) (by omega) (by omega)

/-- A letter with a spelled number behind it is read as one word. -/
theorem words_parse_of_numeral {text : String} {letter : Char} {n : NumberText} {w : Word Float}
    (htext : text.toList = letter :: n.chars) (hletter : letter.isAlpha) (hn : n.Spelled)
    (hword : Scan.RawWord.word? ⟨letter, n⟩ = some w) : (Block.parse text).words = [w] := by
  have hpiece : Text.IsPiece (letter :: n.chars) :=
    ⟨List.cons_ne_nil _ _, List.forall_mem_cons.2 ⟨isCodeChar_of_isAlpha hletter, hn.isCodeChar⟩⟩
  have hnumber := Scan.numberAfterLetter?_chars hn Scan.endsNumber_nil
  rw [List.append_nil] at hnumber
  have hraw : Scan.rawWords (letter :: n.chars) = [⟨letter, n⟩] := by
    rw [Scan.rawWords_of_number (by rw [Text.isWordLetter, hletter, Bool.true_or]) hnumber,
      Scan.rawWords]
  rw [Block.parse, htext, hpiece.isCode.trim_strip]
  change Scan.words _ = _
  rw [Scan.words, hraw, List.filterMap_cons_some hword, List.filterMap_nil]

/-- **The spelling of a code is read as one word with the code that it names.** -/
theorem exists_words_parse_codeText {letter : Char} {code : Int} (hletter : letter.isAlpha)
    (hmin : minCode ≤ code) (hmax : code ≤ maxCode) :
    ∃ v : Float, (Block.parse (codeText letter code)).words = [⟨letter.toUpper, v⟩] ∧
      toCode v = spelledCode code := by
  rw [minCode] at hmin
  rw [maxCode] at hmax
  have hspelled := spelled_codeNumeral code
  have hvalue : Scan.RawWord.HasValue ⟨letter, codeNumeral code⟩ := by
    refine ⟨Scan.NumberText.isAscii_iff.1 ?_, ?_⟩
    · rw [hspelled.whole, hspelled.fraction]
      rfl
    · have hsize : (code.natAbs : ℚ) ≤ 2 ^ 32 := by
        have : code.natAbs ≤ 2 ^ 32 := by omega
        exact_mod_cast this
      change (codeNumeral code).magnitude < Double.overflow
      rw [magnitude_codeNumeral]
      linarith [Double.two_pow_lt_overflow]
  obtain ⟨⟨l, v⟩, hword, hl, -, hrounds⟩ := Scan.RawWord.exists_word? hvalue
  obtain rfl : l = letter.toUpper := hl
  refine ⟨v, words_parse_of_numeral (toList_codeText letter code) hletter hspelled hword, ?_⟩
  change Double.Rounds (if decide (code ≤ -10) then _ else _) (codeNumeral code).magnitude _
    at hrounds
  rw [magnitude_codeNumeral] at hrounds
  refine Double.toCode_of_rounds hrounds ?_ ?_ ?_
  · rw [spelledCode]
    by_cases h : code ≤ -10
    · simp only [h, decide_true, if_true]
      change code = -(code.natAbs : Int)
      omega
    · simp only [h, decide_false, Bool.false_eq_true, if_false]
      rfl
  · rw [spelledCode, minCode]
    split <;> omega
  · rw [spelledCode, maxCode]
    split <;> omega

/-- **The spelling of a code is faithful up to the sign of codes without a whole part.** It is the
letter with a numeral behind it, and the numeral denotes the code in tenths; but between `-10` and
`0` it denotes the code without its sign. No other codes are spelled alike, and reading the spelling
gives the code that it names. -/
theorem codeText_faithful_up_to_sign (letter : Char) (code : Int) :
    (∃ n : NumberText, n.Spelled ∧ (codeText letter code).toList = letter :: n.chars ∧
        n.value = (spelledCode code : ℚ) / 10) ∧
      (spelledCode code = code ↔ ¬(-10 < code ∧ code < 0)) ∧
      (∀ other, codeText letter code = codeText letter other ↔
        code = other ∨ code = -other ∧ -10 < code ∧ code < 10) ∧
      (letter.isAlpha → minCode ≤ code → code ≤ maxCode →
        ∃ v : Float, (Block.parse (codeText letter code)).words = [⟨letter.toUpper, v⟩] ∧
          toCode v = spelledCode code) := by
  have hnumeral : ∃ n : NumberText, n.Spelled ∧
      (codeText letter code).toList = letter :: n.chars ∧ n.value = (spelledCode code : ℚ) / 10 :=
    ⟨codeNumeral code, spelled_codeNumeral code, toList_codeText letter code,
      value_codeNumeral code⟩
  exact ⟨hnumeral, spelledCode_eq_self_iff, fun _ => codeText_eq_iff letter,
    exists_words_parse_codeText⟩

/-- The least code of all is read back, and the sign of `G-0.5` is lost. -/
theorem codeText_faithful_up_to_sign_extremes :
    (∃ v : Float, (Block.parse (codeText 'G' minCode)).words = [⟨'G', v⟩] ∧ toCode v = minCode) ∧
      codeText 'G' (-5) = codeText 'G' 5 ∧ codeText 'G' (-15) ≠ codeText 'G' 15 := by
  obtain ⟨-, -, -, hread⟩ := codeText_faithful_up_to_sign 'G' minCode
  obtain ⟨-, -, hsame, -⟩ := codeText_faithful_up_to_sign 'G' (-5)
  obtain ⟨-, -, hother, -⟩ := codeText_faithful_up_to_sign 'G' (-15)
  exact ⟨hread (by decide) (by decide) (by decide), (hsame 5).2 (by decide),
    mt (hother 15).1 (by decide)⟩

end DryRun
