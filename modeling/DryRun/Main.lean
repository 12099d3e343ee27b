import DryRun.CommandLine

/-!
# The program

Runs the command line on the files of the system.
-/

namespace DryRun

/-- The number of a system error, which is given as it is or negated. -/
def errorNumber (code : UInt32) : Nat :=
  if code.toNat < 0x80000000 then code.toNat else 0x100000000 - code.toNat

/-- What became of a file that could not be read, by the number of the system error. -/
def contentOfFailure (code : UInt32) (details : String) : FileContent :=
  match errorNumber code with
  | 2 => .ofFault .notFound
  | 13 => .unopened "Permission denied (os error 13)"
  | 20 => .ofFault .notDirectory
  | 21 => .ofFault .isDirectory
  | 36 => .ofFault .nameTooLong
  | n => .unopened s!"{details} (os error {n})"

/-- What became of a file, by the error that reading it gave. -/
def contentOfError : IO.Error → FileContent
  | .noFileOrDirectory _ code details => contentOfFailure code details
  | .inappropriateType _ code details => contentOfFailure code details
  | .permissionDenied _ code details => contentOfFailure code details
  | .invalidArgument _ code details => contentOfFailure code details
  | .resourceExhausted _ code details => contentOfFailure code details
  | .otherError code details => contentOfFailure code details
  | e => .unopened (toString e)

/-- Reads a file of the system. -/
def readFile (path : String) : IO FileContent := do
  try
    return .bytes (← IO.FS.readBinFile path).toList
  catch e => return contentOfError e

end DryRun

/-- Evaluates the program file that the arguments name. -/
def main (args : List String) : IO UInt32 := do
  let outcome ← DryRun.CommandLine.run DryRun.readFile args
  for line in outcome.log do
    IO.eprintln line
  IO.print outcome.out
  IO.eprint outcome.err
  return outcome.exit.toUInt32
