import DryRun.Block
import DryRun.Json.Decode

/-!
# Words and blocks as data

A block is exchanged with its source, its code and its words side by side. What is read back
is taken as it is: letters keep their case, and the words need not be those of the code.
-/

namespace DryRun

variable {α : Type}

namespace Word

variable [Scalar α]

/-- A word as data. -/
def toJson (w : Word α) : Json :=
  .object [("letter", .ofChar w.letter), ("value", .ofScalar w.value)]

/-- A word from data. Its letter is taken as it is. -/
def ofJson? (v : Json) : Option (Word α) := do
  let fs ← v.fields? ["letter", "value"]
  return ⟨← fs.required "letter" Json.asChar?, ← fs.required "value" Json.asScalar?⟩

end Word

namespace Block

variable [Scalar α]

/-- A block as data. -/
def toJson (b : Block α) : Json :=
  .object [
    ("source", .string b.source),
    ("code", .string b.code),
    ("words", .ofList Word.toJson b.words)]

/-- A block from data. Its words need not be those of its code. -/
def ofJson? (v : Json) : Option (Block α) := do
  let fs ← v.fields? ["source", "code", "words"]
  return ⟨← fs.required "source" Json.asString?, ← fs.required "code" Json.asString?,
    ← fs.required "words" (Json.asList? Word.ofJson?)⟩

end Block

end DryRun
