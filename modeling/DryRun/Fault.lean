import DryRun.Word

/-!
# Faults and notes

Two families of faults travel differently. A fault of a configuration is structural: it is
given back to the caller, and no machine is built. A fault of a program is noted and the
evaluation goes on, so a bad line never ends a run. Every fault is a cause; its wording is in
one place, the function `message` of its type.

A note is what an evaluation has to say about a line beside its result.
-/

namespace DryRun

/-! ### Faults of a configuration -/

/-- Why a configuration is refused. -/
inductive ConfigFault where
  | noAxes
  | duplicateAxis (label : Char)
  | reservedAxis (label : Char)
  | invalidAxis (label : Char)
  | axisCount (field : String) (expected actual : Nat)
  | outOfRange (field reason : String)
  | systemOutOfRange (index : Nat)
  | file (text : String)
  | unsupportedFormat (path : String)
deriving DecidableEq

/-- The wording of a configuration's fault. -/
def ConfigFault.message : ConfigFault → String
  | .noAxes => "At least one axis label is required"
  | .duplicateAxis label => s!"Duplicate axis label '{label}'"
  | .reservedAxis label => s!"Axis label '{label}' collides with a reserved G-code word letter"
  | .invalidAxis label => s!"Axis label '{label}' is not an ASCII letter"
  | .axisCount field expected actual =>
    s!"'{field}' has {actual} entries but {expected} axes are configured"
  | .outOfRange field reason => s!"Value out of range for '{field}': {reason}"
  | .systemOutOfRange index => s!"Coordinate system index {index} out of range (0-5)"
  | .file text => s!"Config file error: {text}"
  | .unsupportedFormat path => s!"Unsupported config format: {path}"

/-! ### Faults of a program -/

/-- What is wrong with a line of a program. -/
inductive Fault (α : Type) where
  | unsupportedMotion (line : Nat) (code source : String)
  | unknownAxis (line : Nat) (axis : Char)
  | arcRadiusTooSmall (line : Nat) (radius chord : α)
  | invalidParameter (line : Nat) (parameter reason : String)
deriving DecidableEq

variable {α : Type} [Scalar α]

/-- The wording of a program's fault. -/
def Fault.message : Fault α → String
  | .unsupportedMotion line code source =>
    s!"Unsupported motion code {code} at line {line}: {source}"
  | .unknownAxis line axis => s!"Unknown axis '{axis}' at line {line}"
  | .arcRadiusTooSmall line radius chord =>
    let r := Scalar.text radius
    let c := Scalar.text chord
    s!"Arc radius {r} too small for chord {c} at line {line}"
  | .invalidParameter line parameter reason =>
    s!"Invalid parameter '{parameter}' at line {line}: {reason}"

/-! ### Failures -/

/-- Why an operation on files failed: a fault of either family, or the system's own words. -/
inductive Failure (α : Type) where
  | config (fault : ConfigFault)
  | program (fault : Fault α)
  | io (text : String)
  | other (text : String)
deriving DecidableEq

namespace Failure

/-- The wording of a failure. -/
def message : Failure α → String
  | .config fault => fault.message
  | .program fault => fault.message
  | .io text => s!"I/O error: {text}"
  | .other text => text

/-- Whether a failure is a configuration's. -/
def isConfig : Failure α → Bool
  | .config _ => true
  | _ => false

/-- Whether a failure is a program's. -/
def isProgram : Failure α → Bool
  | .program _ => true
  | _ => false

end Failure

/-! ### Notes -/

/-- How serious a note is. -/
inductive Severity where
  | debug
  | warning
  | error
deriving DecidableEq

/-- What an evaluation notes about a line or a file. -/
inductive Note (α : Type) where
  | flaggedLine (line : Nat) (source : String)
  | notSimulated (line : Nat) (code : Int)
  | offsetsNotSimulated (line : Nat)
  | radiusIgnored (line : Nat)
  | missingFeed (line : Nat)
  | degraded (fault : Fault α)
  | skipped (fault : Fault α)
  | reading (path : String)
  | notOpened (path reason : String)
deriving DecidableEq

namespace Note

/-- How serious a note is. -/
def severity : Note α → Severity
  | .flaggedLine .. | .notSimulated .. | .offsetsNotSimulated _ | .radiusIgnored _ |
    .reading _ => .debug
  | .missingFeed _ | .degraded _ => .warning
  | .skipped _ | .notOpened .. => .error

/-- The wording of a note. -/
def message : Note α → String
  | .flaggedLine line source => s!"Invalid G-code at line {line}: {source}"
  | .notSimulated line code =>
    let command := codeText 'G' code
    s!"{command} at line {line} is not simulated"
  | .offsetsNotSimulated line => s!"G10 without L2/L20 at line {line} is not simulated"
  | .radiusIgnored line => s!"R word without axis words at line {line} ignored"
  | .missingFeed line =>
    s!"Feed move at line {line} without a feed rate, timing it as a rapid"
  | .degraded fault => fault.message
  | .skipped fault => fault.message
  | .reading path => s!"Evaluating {path}"
  | .notOpened path reason => s!"Failed to open {path}: {reason}"

end Note

end DryRun
