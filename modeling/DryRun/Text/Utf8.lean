/-!
# Text from bytes

Programs come as bytes, and a byte sequence that is not UTF-8, most often an accented letter
of an older encoding in a comment, must not end their evaluation. `decodeLossy` therefore
replaces every maximal part that no character starts with by the replacement character, and
`decode?` is the strict reading that configuration files get.

Both are built on `scanChar`, which looks at the front of a byte sequence only. The ranges
of the second byte exclude overlong forms, surrogates and code points above `0x10FFFF`, so
the characters accepted are exactly the Unicode scalar values in their shortest form.
-/

namespace DryRun.Text

/-- The replacement character. -/
def replacement : Char := '�'

/-- The range that the second byte of a sequence has to lie in, by its first byte, and how
many bytes follow the first one. -/
def leadRange (b : UInt8) : Option (Nat × UInt8 × UInt8) :=
  if 0xC2 ≤ b ∧ b ≤ 0xDF then some (1, 0x80, 0xBF)
  else if b = 0xE0 then some (2, 0xA0, 0xBF)
  else if b = 0xED then some (2, 0x80, 0x9F)
  else if 0xE1 ≤ b ∧ b ≤ 0xEF then some (2, 0x80, 0xBF)
  else if b = 0xF0 then some (3, 0x90, 0xBF)
  else if 0xF1 ≤ b ∧ b ≤ 0xF3 then some (3, 0x80, 0xBF)
  else if b = 0xF4 then some (3, 0x80, 0x8F)
  else none

/-- The bits that a first byte contributes to its code point, when `n` bytes follow it. -/
def leadBits (b : UInt8) (n : Nat) : Nat := b.toNat % Nat.pow 2 (6 - n)

/-- Takes `n` further bytes, the first of them from `lo` to `hi`, and adds their bits to
`acc`. It gives the code point, if all of them were there, and how many bytes it took. -/
def scanTail : Nat → UInt8 → UInt8 → Nat → List UInt8 → Option Nat × Nat
  | 0, _, _, acc, _ => (some acc, 0)
  | _ + 1, _, _, _, [] => (none, 0)
  | n + 1, lo, hi, acc, b :: bs =>
    if lo ≤ b ∧ b ≤ hi then
      let r := scanTail n 0x80 0xBF (acc * 64 + b.toNat % 64) bs
      (r.1, r.2 + 1)
    else (none, 0)

/-- Reads one character after its first byte: the character, or nothing where the sequence
is broken, and how many of the following bytes belong to it. -/
def scanChar (b : UInt8) (bs : List UInt8) : Option Char × Nat :=
  if b < 0x80 then (some (Char.ofNat b.toNat), 0)
  else match leadRange b with
    | none => (none, 0)
    | some (n, lo, hi) =>
      let r := scanTail n lo hi (leadBits b n) bs
      (r.1.map Char.ofNat, r.2)

/-- The text of a byte sequence; every maximal part that is not UTF-8 becomes one
replacement character. -/
def decodeLossy : List UInt8 → List Char
  | [] => []
  | b :: bs =>
    let r := scanChar b bs
    r.1.getD replacement :: decodeLossy (bs.drop r.2)
termination_by bs => bs.length
decreasing_by simp only [List.length_drop, List.length_cons]; omega

/-- The text of a byte sequence that is UTF-8 throughout. -/
def decode? : List UInt8 → Option (List Char)
  | [] => some []
  | b :: bs =>
    let r := scanChar b bs
    match r.1 with
    | none => none
    | some c => (decode? (bs.drop r.2)).map (c :: ·)
termination_by bs => bs.length
decreasing_by simp only [List.length_drop, List.length_cons]; omega

/-- The bytes of a text. -/
def encode (s : String) : List UInt8 := s.toUTF8.data.toList

/-! ### Lines of bytes -/

/-- Puts a byte in front of the lines that follow it: a line feed ends a line of its own,
any other byte belongs to the first of them. -/
def consByte (b : UInt8) (lines : List (List UInt8)) : List (List UInt8) :=
  if b = 0x0A then [b] :: lines
  else match lines with
    | [] => [[b]]
    | line :: rest => (b :: line) :: rest

/-- Splits bytes after each line feed; the last line may lack it. -/
def byteLines (bs : List UInt8) : List (List UInt8) := bs.foldr consByte []

/-- A line without the line feeds and carriage returns at its end. -/
def chomp (cs : List Char) : List Char :=
  (cs.reverse.dropWhile fun c => c = '\n' || c = '\r').reverse

/-- The lines of a program given as bytes. -/
def linesOfBytes (bs : List UInt8) : List String :=
  (byteLines bs).map fun line => String.ofList (chomp (decodeLossy line))

end DryRun.Text
