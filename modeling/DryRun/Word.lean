import DryRun.Number.Scalar

/-!
# Words

A word is a letter and a number, such as `G1`, `X-3.5` or `F600`. Commands are told apart by
their number in tenths, an integer, so that `G28.1` is `281` and `G1` is `10`, and no
comparison of measured numbers decides which command a word is.
-/

namespace DryRun

/-- The smallest code that a word can have. -/
def minCode : Int := -2147483648

/-- The largest code that a word can have. -/
def maxCode : Int := 2147483647

/-- A value in tenths, to the nearest integer: the code that tells commands apart. -/
def toCode {α : Type} [Scalar α] (value : α) : Int :=
  Scalar.roundBetween minCode maxCode (value * Scalar.ofNat 10)

/-- The spelling of a code: its whole part, and one decimal if it has one. -/
def codeText (letter : Char) (code : Int) : String :=
  let whole := toString (code.tdiv 10)
  let tenth := code.tmod 10
  if tenth = 0 then letter.toString ++ whole
  else letter.toString ++ whole ++ "." ++ toString tenth.natAbs

/-- A letter with its number. -/
structure Word (α : Type) where
  letter : Char
  value : α
deriving DecidableEq

namespace Word

variable {α : Type} [Scalar α]

/-- A word with its letter in upper case. -/
def of (letter : Char) (value : α) : Word α := ⟨letter.toUpper, value⟩

/-- The number of a word in tenths. -/
def code (w : Word α) : Int := toCode w.value

/-- The text of a word: its letter and its number without blanks between. -/
def text (w : Word α) : String := w.letter.toString ++ Scalar.text w.value

end Word

end DryRun
