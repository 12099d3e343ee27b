import DryRun.Text.CharClass
import DryRun.Word

/-!
# The word scanner

Words are found in a text from left to right: a letter, blanks, an optional sign, and digits
with an optional point and optional further digits, or a point with digits after it. Each
word is taken as long as it can be, and the search goes on behind it; a letter that no
number follows is passed over, as is every other character. The scan therefore never fails:
what is not a word is skipped.

A word may be spelled with the digits of any script. It is found like any other, but only
ASCII digits have a value, so it is dropped; so is a word whose number is too large.
-/

namespace DryRun.Scan

open Text

/-- The text of a number: its sign, and the digits before and after its point. -/
structure NumberText where
  negative : Bool
  whole : List Char
  fraction : List Char
deriving DecidableEq

/-- A word as it was found in a text. -/
structure RawWord where
  letter : Char
  number : NumberText
deriving DecidableEq

/-! ### Finding words -/

/-- The longest run of digits of any script at the front of a text. -/
def digitRun (cs : List Char) : List Char := cs.takeWhile isAnyDigit

/-- What follows the longest run of digits at the front of a text. -/
def afterDigits (cs : List Char) : List Char := cs.dropWhile isAnyDigit

/-- The number without a sign at the front of a text, and what follows it. -/
def unsigned? (negative : Bool) (cs : List Char) : Option (NumberText × List Char) :=
  match afterDigits cs with
  | '.' :: tail =>
    if digitRun cs = [] ∧ digitRun tail = [] then none
    else some (⟨negative, digitRun cs, digitRun tail⟩, afterDigits tail)
  | rest => if digitRun cs = [] then none else some (⟨negative, digitRun cs, []⟩, rest)

/-- The number at the front of a text, and what follows it. -/
def number? (cs : List Char) : Option (NumberText × List Char) :=
  unsigned? (Decimal.scanSign cs).1 (Decimal.scanSign cs).2

/-- The number that follows a word's letter: blanks may stand between them. -/
def numberAfterLetter? (cs : List Char) : Option (NumberText × List Char) :=
  number? (cs.dropWhile isBlank)

/-- No more text is left behind a run of digits than there was with it. -/
theorem length_afterDigits_le (cs : List Char) : (afterDigits cs).length ≤ cs.length :=
  (List.dropWhile_suffix _).length_le

/-- No more text is left behind a number than there was with it. -/
theorem length_le_of_unsigned? {negative : Bool} {cs rest : List Char} {n : NumberText}
    (h : unsigned? negative cs = some (n, rest)) : rest.length ≤ cs.length := by
  have hcs := length_afterDigits_le cs
  unfold unsigned? at h
  split at h
  · next tail htail =>
    have htl := length_afterDigits_le tail
    simp only [Option.ite_none_left_eq_some, Option.some.injEq, Prod.mk.injEq] at h
    rw [htail, List.length_cons] at hcs
    rw [← h.2.2]
    omega
  · simp only [Option.ite_none_left_eq_some, Option.some.injEq, Prod.mk.injEq] at h
    rw [← h.2.2]
    exact hcs

/-- No more text is left behind a sign than there was with it. -/
theorem length_scanSign_snd_le (cs : List Char) : (Decimal.scanSign cs).2.length ≤ cs.length := by
  unfold Decimal.scanSign
  split <;> simp

/-- No more text is left behind the number of a word than there was with it, so that the search for
words comes to an end. -/
theorem length_le_of_numberAfterLetter? {cs rest : List Char} {n : NumberText}
    (h : numberAfterLetter? cs = some (n, rest)) : rest.length ≤ cs.length :=
  calc rest.length
    _ ≤ (Decimal.scanSign (cs.dropWhile isBlank)).2.length := length_le_of_unsigned? h
    _ ≤ (cs.dropWhile isBlank).length := length_scanSign_snd_le _
    _ ≤ cs.length := (List.dropWhile_suffix _).length_le

/-- All words of a text, in order, as they are spelled. -/
def rawWords : List Char → List RawWord
  | [] => []
  | c :: cs =>
    if isWordLetter c then
      match _h : numberAfterLetter? cs with
      | some (n, rest) => ⟨c, n⟩ :: rawWords rest
      | none => rawWords cs
    else rawWords cs
termination_by cs => cs.length
decreasing_by
  · exact Nat.lt_succ_of_le (length_le_of_numberAfterLetter? ‹_›)
  · exact Nat.lt_succ_self _
  · exact Nat.lt_succ_self _

/-! ### Reading their numbers -/

/-- The decimal that a number's text denotes, if its digits are ASCII digits. -/
def NumberText.decimal? (n : NumberText) : Option Decimal :=
  if n.whole.all Char.isDigit && n.fraction.all Char.isDigit then
    some (Decimal.ofDigits n.negative n.whole n.fraction)
  else none

/-- The word that was found, if its number has a finite value. -/
def RawWord.word? {α : Type} [Scalar α] (w : RawWord) : Option (Word α) := do
  let d ← w.number.decimal?
  let value : α := Scalar.ofDecimal d
  if Scalar.isFinite value then some (Word.of w.letter value) else none

/-- The words of a text, in order. -/
def words {α : Type} [Scalar α] (cs : List Char) : List (Word α) :=
  (rawWords cs).filterMap RawWord.word?

end DryRun.Scan
