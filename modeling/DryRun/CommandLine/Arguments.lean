import DryRun.Number.Scalar

/-!
# Arguments of the command line

The arguments name one program file and options in any order. An option that takes a value
takes it after an equals sign or as the next argument; a value that begins with a minus sign
has to follow an equals sign. Two minus signs alone end the options. Lists of numbers are
divided by commas and grow when their option is given again; any other option is given at
most once. The arguments are read from the left, and the first thing that ends the reading
(a request for the version, or misuse) is what counts.
-/

namespace DryRun.CommandLine

variable {α : Type}

/-- The form of a report. -/
inductive ReportForm where
  | text
  | json
deriving DecidableEq

/-- What the arguments ask for. -/
structure Options (α : Type) where
  file : Option String
  config : Option String
  axes : Option String
  maxFeed : Option (List α)
  acceleration : Option (List α)
  minMoveTime : Option α
  arcLength : Bool
  form : Option ReportForm
  jsonLogs : Bool
deriving DecidableEq

/-- What the absence of arguments asks for. -/
def Options.empty : Options α := ⟨none, none, none, none, none, none, false, none, false⟩

/-- Why the reading of arguments ends early. -/
inductive Stop where
  | version
  | help
  | misuse
deriving DecidableEq

/-! ### The shape of one argument -/

/-- An argument by its shape. -/
inductive Argument where
  /-- A file name or the value of an option. -/
  | plain (text : String)
  /-- A name after two minus signs, and what follows an equals sign. -/
  | option (name : String) (value : Option String)
  /-- Letters after one minus sign. -/
  | letters (cs : List Char)
  /-- Two minus signs alone. -/
  | endOfOptions
deriving DecidableEq

/-- The shape of an argument. A minus sign alone is plain. -/
def Argument.of (arg : String) : Argument :=
  match arg.toList with
  | ['-', '-'] => .endOfOptions
  | '-' :: '-' :: cs =>
    .option (String.ofList (cs.takeWhile (· ≠ '=')))
      (match cs.dropWhile (· ≠ '=') with
        | [] => none
        | _ :: value => some (String.ofList value))
  | '-' :: c :: cs => .letters (c :: cs)
  | _ => .plain arg

/-- Whether an argument is plain, and so can be the value of the option before it. -/
def isPlain (arg : String) : Bool := Argument.of arg = .plain arg

/-! ### Values -/

variable [Scalar α]

/-- A number: a decimal, an infinity, or no number by name. -/
def number? (s : String) : Option α := (Numeral.ofText? s.toList).map Scalar.ofNumeral

/-- Numbers divided by commas. -/
def numbers? (s : String) : Option (List α) := (s.splitOn ",").mapM number?

/-- The form of a report by its name. -/
def ReportForm.ofName? : String → Option ReportForm
  | "text" => some .text
  | "json" => some .json
  | _ => none

/-- The path of a file, which is not empty. -/
def path? (s : String) : Option String := if s = "" then none else some s

/-- Gives a value to what has none yet. -/
def fill {β : Type} (present value : Option β) : Option β :=
  match present with
  | none => value
  | some _ => none

/-! ### Reading -/

namespace Options

/-- The options that take a value. -/
def valued : List String :=
  ["config", "axes", "max-feed", "acceleration", "min-move-time", "format"]

/-- The options after one that takes a value, unless the value or a repetition is refused. -/
def setValue (o : Options α) (name value : String) : Option (Options α) :=
  match name with
  | "config" => (fill o.config (path? value)).map fun v => { o with config := some v }
  | "axes" => (fill o.axes (some value)).map fun v => { o with axes := some v }
  | "max-feed" =>
    (numbers? value).map fun vs => { o with maxFeed := some (o.maxFeed.getD [] ++ vs) }
  | "acceleration" =>
    (numbers? value).map fun vs => { o with acceleration := some (o.acceleration.getD [] ++ vs) }
  | "min-move-time" =>
    (fill o.minMoveTime (number? value)).map fun v => { o with minMoveTime := some v }
  | "format" => (fill o.form (ReportForm.ofName? value)).map fun v => { o with form := some v }
  | _ => none

/-- The options after one that takes no value. -/
def setFlag (o : Options α) (name : String) : Except Stop (Options α) :=
  match name with
  | "arc-length" => if o.arcLength then .error .misuse else .ok { o with arcLength := true }
  | "json-logs" => if o.jsonLogs then .error .misuse else .ok { o with jsonLogs := true }
  | "version" => .error .version
  | "help" => .error .help
  | _ => .error .misuse

/-- What letters after one minus sign ask for; the first one decides. -/
def letterStop : List Char → Stop
  | 'V' :: _ => .version
  | 'h' :: _ => .help
  | _ => .misuse

/-- The options after a file name. -/
def setFile (o : Options α) (name : String) : Option (Options α) :=
  (fill o.file (path? name)).map fun v => { o with file := some v }

/-- The options after arguments that are all file names. -/
def setFiles (o : Options α) : List String → Except Stop (Options α)
  | [] => .ok o
  | name :: rest =>
    match o.setFile name with
    | some o' => o'.setFiles rest
    | none => .error .misuse

/-- Reads arguments on top of options. -/
def read (o : Options α) : List String → Except Stop (Options α)
  | [] => .ok o
  | arg :: rest =>
    match Argument.of arg with
    | .endOfOptions => o.setFiles rest
    | .letters cs => .error (letterStop cs)
    | .plain name =>
      match o.setFile name with
      | some o' => o'.read rest
      | none => .error .misuse
    | .option name (some value) =>
      match o.setValue name value with
      | some o' => o'.read rest
      | none => .error .misuse
    | .option name none =>
      if valued.contains name then
        match rest with
        | [] => .error .misuse
        | value :: rest' =>
          match if isPlain value then o.setValue name value else none with
          | some o' => o'.read rest'
          | none => .error .misuse
      else
        match o.setFlag name with
        | .ok o' => o'.read rest
        | .error stop => .error stop

/-- Reads all arguments. A program file has to be among them. -/
def ofArguments (args : List String) : Except Stop (Options α) :=
  match empty.read args with
  | .ok o => if o.file.isSome then .ok o else .error .misuse
  | .error stop => .error stop

end Options

end DryRun.CommandLine
