import DryRun.Block.Comment
import DryRun.Block.Scan

/-!
# Blocks

A block is one line of a program: its source text, the code that is left of it without
comments, and the words of that code in order. A letter may occur more than once; where one
value is asked for, the first occurrence counts.

A block is flagged when its code holds a character outside the accepted alphabet, or one of
the homing commands that depend on the machine; flagged blocks are evaluated like others.
-/

namespace DryRun

/-- One line of a program. -/
structure Block (α : Type) where
  source : String
  code : String
  words : List (Word α)
deriving DecidableEq

namespace Block

/-! ### Flagged code -/

/-- The letters of the accepted alphabet. -/
def acceptedLetters : List Char := ['N', 'G', 'M', 'X', 'Y', 'Z', 'I', 'J', 'K', 'F', 'R', 'S']

/-- Whether a character belongs to the accepted alphabet, in either letter case. -/
def isAccepted (c : Char) : Bool :=
  acceptedLetters.contains c.toUpper || Text.foldsToLatin c || ['%', '-', '?', '.'].contains c ||
    Text.isAnyDigit c || Text.isBlank c

/-- Whether a text holds `G28` or `G29`, in either letter case. -/
def hasHoming : List Char → Bool
  | [] => false
  | c :: cs =>
    (c.toUpper = 'G' && cs.head? = some '2' && (cs[1]? = some '8' || cs[1]? = some '9')) ||
      hasHoming cs

/-- Whether a text without comments is flagged. -/
def isFlaggedText (cs : List Char) : Bool := cs.any (fun c => !isAccepted c) || hasHoming cs

variable {α : Type}

/-- Whether the code of a block is flagged. -/
def isFlagged (b : Block α) : Bool := isFlaggedText b.code.toList

/-! ### Look-up -/

/-- The letters of a block in order, with repetitions. -/
def letters (b : Block α) : List Char := b.words.map (·.letter)

/-- Whether a block has no words. -/
def isEmpty (b : Block α) : Bool := b.words.isEmpty

/-- All values of a letter, in order. -/
def values (b : Block α) (letter : Char) : List α :=
  (b.words.filter (·.letter = letter.toUpper)).map (·.value)

/-- The first value of a letter. -/
def get? (b : Block α) (letter : Char) : Option α :=
  (b.words.find? (·.letter = letter.toUpper)).map (·.value)

/-- Whether a letter occurs. -/
def has (b : Block α) (letter : Char) : Bool := b.words.any (·.letter = letter.toUpper)

/-- The first value of a letter, or a given one. -/
def getD (b : Block α) (letter : Char) (default : α) : α := (b.get? letter).getD default

variable [Scalar α]

/-- The codes of a letter, in order. -/
def codes (b : Block α) (letter : Char) : List Int := (b.values letter).map toCode

/-- Whether a letter occurs with the code of a value. -/
def hasCode (b : Block α) (letter : Char) (value : α) : Bool :=
  (b.codes letter).contains (toCode value)

/-! ### Reading and writing -/

/-- Reads a line: without comments and outer blanks it is the code, and the code holds the
words. -/
def parse (source : String) : Block α :=
  let code := Text.trim (Comment.strip source.toList)
  ⟨source, String.ofList code, Scan.words code⟩

/-- The line that spells the given words with one blank between them. -/
def ofWords (words : List (Word α)) : Block α :=
  let code := " ".intercalate (words.map Word.text)
  ⟨code, code, words⟩

end Block

end DryRun
