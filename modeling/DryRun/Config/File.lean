import DryRun.Config
import DryRun.Folder

/-!
# Configuration files

A configuration is kept in a file with the extension `json`. Only a configuration without a
fault is saved, and only one without a fault is loaded. The extension is looked at in loading
only.
-/

namespace DryRun.Config

variable {α : Type} [Scalar α]

/-- Reads the text of a configuration file. -/
def ofFileText (text : String) : Except ConfigFault (Config α) :=
  match ofText? text with
  | none => .error (.file "Invalid JSON config")
  | some c =>
    match c.fault? with
    | some fault => .error fault
    | none => .ok c

/-- Loads a configuration from the content of the file at a path. -/
def load (path : String) (content : FileContent) : Except ConfigFault (Config α) :=
  if Path.extension? path = some "json" then
    match content.text with
    | .error reason => .error (.file s!"Failed to read {path}: {reason}")
    | .ok text => ofFileText text
  else .error (.unsupportedFormat path)

/-- The text of a configuration file. -/
def fileText (c : Config α) : String := c.toJson.pretty

/-- Saves a configuration at a path. -/
def save (c : Config α) (folder : Folder) (path : String) : Except ConfigFault Folder :=
  match c.fault? with
  | some fault => .error fault
  | none =>
    match folder.write path (Text.encode c.fileText) with
    | .ok folder => .ok folder
    | .error fault =>
      let reason := fault.message
      .error (.file s!"Failed to write {path}: {reason}")

end DryRun.Config
