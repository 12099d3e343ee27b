import DryRun.Json.Reader

/-!
# Typed data from JSON

A record is read from an object by the names of its fields: unknown members are ignored, and
a known one that occurs twice is refused. It is also read from the list of its fields in
order. A record whose fields all have defaults may leave any of them out, and its list may
end early; any other record has to be complete, except that an absent field of an optional
type is none. A choice between names is read from the name, or from an object with the name
as its only member and null as its value.

Where the kind of a value is given inside the value itself, the value is kept whole until its
kind is known. That takes more than passing over it: its texts and numbers have to have a
meaning, and it may not be nested too deep.
-/

namespace DryRun.Json

/-! ### Simple values -/

/-- A truth value. -/
def asBool? : Json → Option Bool
  | .bool b => some b
  | _ => none

/-- A text. -/
def asString? : Json → Option String
  | .string s => some s
  | _ => none

/-- A text of exactly one character. -/
def asChar? : Json → Option Char
  | .string s => match s.toList with
    | [c] => some c
    | _ => none
  | _ => none

/-- An integer between two limits. -/
def asInt? (lo hi : Int) : Json → Option Int
  | .number (.integer n) => if lo ≤ n ∧ n ≤ hi then some n else none
  | _ => none

/-- A natural number below `2 ^ bits`. -/
def asNat? (bits : Nat) (v : Json) : Option Nat :=
  (asInt? 0 (Nat.pow 2 bits - 1) v).map Int.toNat

/-- A measured number. Integers are accepted, and a number beyond the range is refused. -/
def asScalar? {α : Type} [Scalar α] : Json → Option α
  | .number n =>
    let x : α := Scalar.ofDecimal (match n with
      | .integer n => Decimal.ofInt n
      | .decimal d => d)
    if Scalar.isFinite x then some x else none
  | _ => none

/-- A list of values. -/
def asList? {β : Type} (f : Json → Option β) : Json → Option (List β)
  | .list items => items.mapM f
  | _ => none

/-- A list of exactly two values. -/
def asPair? {β : Type} (f : Json → Option β) : Json → Option (β × β)
  | .list [a, b] => do return (← f a, ← f b)
  | _ => none

/-- A value that may be null. -/
def asOption? {β : Type} (f : Json → Option β) : Json → Option (Option β)
  | .null => some none
  | v => (f v).map some

/-! ### Choices between names -/

/-- The name of a choice that carries no data. -/
def asName? : Json → Option String
  | .string s => some s
  | .object [(name, .null)] => some name
  | _ => none

/-! ### Records -/

/-- The only member with a name, or none; a second one is refused. -/
def member? (name : String) (members : List (String × Json)) : Option (Option Json) :=
  match members.filter (·.1 = name) with
  | [] => some none
  | [m] => some (some m.2)
  | _ => none

/-- The fields of a record: what was given for each name. -/
structure Fields where
  /-- Whether the record came as a list, in which nothing may be left out. -/
  listed : Bool
  get : String → Option Json

/-- The fields of a record with these names, from an object or from a list. -/
def fields? (names : List String) : Json → Option Fields
  | .object members => do
    let _ ← names.mapM (member? · members)
    return ⟨false, fun name => (members.find? (·.1 = name)).map (·.2)⟩
  | .list items =>
    if items.length ≤ names.length then
      some ⟨true, fun name => ((names.zip items).find? (·.1 = name)).map (·.2)⟩
    else none
  | _ => none

namespace Fields

variable {β : Type}

/-- A field that has to be given. -/
def required (fs : Fields) (name : String) (f : Json → Option β) : Option β :=
  (fs.get name).bind f

/-- A field that may be left out, in which case it has a default. -/
def withDefault (fs : Fields) (name : String) (default : β) (f : Json → Option β) : Option β :=
  match fs.get name with
  | none => some default
  | some v => f v

/-- A field of an optional type in a record whose fields all have defaults. -/
def optional (fs : Fields) (name : String) (f : Json → Option β) : Option (Option β) :=
  fs.withDefault name none (asOption? f)

/-- A field of an optional type in a record that has to be complete: a list holds it, and an
object may leave it out. -/
def nullable (fs : Fields) (name : String) (f : Json → Option β) : Option (Option β) :=
  match fs.get name with
  | none => if fs.listed then none else some none
  | some v => asOption? f v

end Fields

/-! ### Values that are kept whole before they are read -/

/-- How deep lists and objects may be nested in a text where values of it are kept whole. -/
def maxDepth : Nat := 127

mutual

/-- Whether a value can be kept whole: all its texts can be read, all its numbers are within
the range of a number type, and it is nested at most so deep. -/
def canKeep (α : Type) [Scalar α] : Nat → Json → Bool
  | _, .broken => false
  | _, .number n => (asScalar? (.number n) : Option α).isSome
  | 0, .list _ => false
  | depth + 1, .list items => canKeepItems α depth items
  | 0, .object _ => false
  | depth + 1, .object members => canKeepMembers α depth members
  | _, _ => true

/-- Whether some items can be kept whole. -/
def canKeepItems (α : Type) [Scalar α] : Nat → List Json → Bool
  | _, [] => true
  | depth, v :: vs => canKeep α depth v && canKeepItems α depth vs

/-- Whether the values of some members can be kept whole. -/
def canKeepMembers (α : Type) [Scalar α] : Nat → List (String × Json) → Bool
  | _, [] => true
  | depth, (_, v) :: ms => canKeep α depth v && canKeepMembers α depth ms

end

/-- The name of a choice that carries no data, in a value that was kept whole. There an empty
object stands for null as well. -/
def asKeptName? : Json → Option String
  | .object [(name, .object [])] => some name
  | v => v.asName?

end DryRun.Json
