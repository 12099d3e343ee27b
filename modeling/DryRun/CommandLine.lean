import DryRun.CommandLine.Arguments
import DryRun.Config.File
import DryRun.Machine
import DryRun.Report.Text

/-!
# The command line

A call evaluates one program file and prints the report. What it prints and its exit code are
a value, `Outcome`, computed from the arguments and from what the files that they name hold.
The function `run` is written for any way of reading files, so a call on a `Folder` and a call
on the file system are the same definition.

The exit code is 0 if the report was made, 1 if the configuration or the program could not be
used, and 2 if the arguments make no sense.
-/

namespace DryRun.CommandLine

/-- What a call prints, what was noted on the way, and its exit code. -/
structure Outcome where
  exit : Nat
  out : String
  err : String
  notes : List (Note Float)
  jsonLogs : Bool

/-- The name and version of the program. -/
def versionText : String := "gcodevm 0.4.0"

/-- How the program is called. -/
def usageText : String := "Usage: gcodevm [OPTIONS] <FILE>"

/-! ### Failures -/

/-- A cause below its heading: its first line follows the mark, the others are set in as far. -/
def indented (mark blank cause : String) : String :=
  mark ++ ("\n" ++ blank).intercalate (cause.splitOn "\n") ++ "\n"

/-- The causes of a failure, with numbers if there are several. -/
def causesText : List String → String
  | [cause] => indented "    " "    " cause
  | causes => String.join (causes.mapIdx fun k cause =>
      let number := toString k
      indented (String.ofList (List.replicate (5 - number.length) ' ') ++ number ++ ": ")
        "       " cause)

/-- The text of a failure: what was being done, and why it could not be done. -/
def failureText (context : String) (causes : List String) : String :=
  "Error: " ++ context ++ "\n\nCaused by:\n" ++ causesText causes

/-- What a failure is put down to. An error of the system is named twice, in the words of the
program and in its own. -/
def causes : Failure Float → List String
  | .io text => [Failure.message (.io text : Failure Float), text]
  | failure => [failure.message]

/-- The outcome of a failure. -/
def failed (context : String) (failure : Failure Float) (notes : List (Note Float)) : Outcome :=
  ⟨1, "", failureText context (causes failure), notes, false⟩

/-- The outcome of arguments that end early. -/
def stopped : Stop → Outcome
  | .version => ⟨0, versionText ++ "\n", "", [], false⟩
  | .help => ⟨0, usageText ++ "\n", "", [], false⟩
  | .misuse => ⟨2, "", usageText ++ "\n", [], false⟩

/-! ### A call -/

/-- One value holds for every axis, several for one each. -/
def limitOf : List Float → Limit Float
  | [value] => .uniform value
  | values => .perAxis values

/-- A configuration changed as the options say. -/
def Options.adjust (o : Options Float) (c : Config Float) : Config Float where
  axes := (o.axes.map String.toList).getD c.axes
  maxFeed := (o.maxFeed.map limitOf).getD c.maxFeed
  acceleration := (o.acceleration.map limitOf).getD c.acceleration
  minMoveTime := o.minMoveTime.getD c.minMoveTime
  arcLengthTravel := o.arcLength || c.arcLengthTravel
  start := c.start

/-- The text of a report in the form asked for. -/
def Options.reportText (o : Options Float) (r : Report Float) : String :=
  match o.form.getD .text with
  | .text => r.text
  | .json => r.toJson.pretty ++ "\n"

/-- Evaluates a program file and reports on it. -/
def evaluateFile (o : Options Float) (m : Machine Float) (path : String)
    (content : FileContent) : Outcome :=
  match m.runFile content with
  | .ok m' => ⟨0, o.reportText m'.report, "", m.fileNotes path content, o.jsonLogs⟩
  | .error failure => failed ("evaluating " ++ path) failure (m.fileNotes path content)

/-- The machine that the options describe, on top of a configuration. -/
def Options.machine (o : Options Float) (c : Config Float) : Except Outcome (Machine Float) :=
  match Machine.build (o.adjust c) with
  | .ok m => .ok m
  | .error fault => .error (failed "invalid machine configuration" (.config fault) [])

/-- The configuration that the options name, given what its file holds. -/
def loadConfig (path : String) (content : FileContent) : Except Outcome (Config Float) :=
  match Config.load path content with
  | .ok c => .ok c
  | .error fault => .error (failed ("loading config " ++ path) (.config fault) [])

section Call

variable {m : Type → Type} [Monad m]

/-- The configuration to start from: the one in the named file, or the standard one. -/
def baseConfig (read : String → m FileContent) (o : Options Float) :
    m (Except Outcome (Config Float)) :=
  match o.config with
  | some path => return loadConfig path (← read path)
  | none => return .ok .standard

/-- Evaluates a program file on the machine that the options describe. -/
def call (read : String → m FileContent) (o : Options Float) (path : String) : m Outcome := do
  match (← baseConfig read o).bind o.machine with
  | .ok machine => return evaluateFile o machine path (← read path)
  | .error outcome => return outcome

/-- A call with arguments, where `read` is how files are read. -/
def run (read : String → m FileContent) (args : List String) : m Outcome :=
  match Options.ofArguments args with
  | .error stop => return stopped stop
  | .ok o =>
    match o.file with
    | some path => call read o path
    | none => return stopped .misuse

end Call

/-- A call in a folder. -/
def runIn (folder : Folder) (args : List String) : Outcome :=
  Id.run (run (fun path => pure (folder.read path)) args)

/-! ### The log -/

/-- The name of a severity in the log. -/
def levelName : Severity → String
  | .debug => "DEBUG"
  | .warning => "WARN"
  | .error => "ERROR"

/-- A line of the log. -/
def logLine (asJson : Bool) (note : Note Float) : String :=
  let level := levelName note.severity
  if asJson then
    (Json.object [("level", .string level), ("message", .string note.message)]).compact
  else level ++ " " ++ note.message

/-- The lines of the log; what only helps to trace an evaluation is left out. -/
def Outcome.log (o : Outcome) : List String :=
  (o.notes.filter fun note => note.severity ≠ .debug).map (logLine o.jsonLogs)

end DryRun.CommandLine
