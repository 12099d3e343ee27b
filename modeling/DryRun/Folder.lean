import DryRun.Text.Utf8

/-!
# Files as data

Programs and configurations come from files. What became of reading one is a value,
`FileContent`, so that all that depends on it is computed without touching a file system.
A `Folder` is a directory with its files as data: looking a path up in it gives what reading
the file would give, and writing to it gives the folder afterwards.

A path is followed part by part from the left, and the first part that leads nowhere decides
what is wrong: a path goes on only behind a directory, also where it goes on with `.` or with
`..`, and a name that is too long is not found in any directory.
-/

namespace DryRun

/-- Why a file cannot be used. -/
inductive FileFault where
  | notFound
  | notDirectory
  | isDirectory
  | nameTooLong
  | nulInName
deriving DecidableEq

/-- The system's wording of why a file cannot be used. -/
def FileFault.message : FileFault → String
  | .notFound => "No such file or directory (os error 2)"
  | .notDirectory => "Not a directory (os error 20)"
  | .isDirectory => "Is a directory (os error 21)"
  | .nameTooLong => "File name too long (os error 36)"
  | .nulInName => "file name contained an unexpected NUL byte"

/-- What became of reading a file: a directory can be opened, but not read. -/
inductive FileContent where
  | bytes (bs : List UInt8)
  | unopened (reason : String)
  | unreadable (reason : String)
deriving DecidableEq

namespace FileContent

/-- What reading gives when it fails. -/
def ofFault : FileFault → FileContent
  | .isDirectory => .unreadable FileFault.isDirectory.message
  | fault => .unopened fault.message

/-- The text of a file that is UTF-8 throughout, or why there is none. -/
def text : FileContent → Except String String
  | .bytes bs =>
    match Text.decode? bs with
    | some cs => .ok (String.ofList cs)
    | none => .error "stream did not contain valid UTF-8"
  | .unopened reason => .error reason
  | .unreadable reason => .error reason

end FileContent

/-! ### Paths -/

/-- A place in the file system: the names that lead to it from the folder. The directories
above the folder are `..` one or more times, and the top of the file system is `/`. -/
abbrev Place := List String

/-- The directory that a directory lies in; the top lies in itself. -/
def Place.above : Place → Place
  | [] => [".."]
  | ["/"] => ["/"]
  | place => if place.getLast? = some ".." then place ++ [".."] else place.dropLast

namespace Path

/-- The most bytes that a name may have. -/
def maxName : Nat := 255

/-- The most bytes that a path may have. -/
def maxLength : Nat := 4095

/-- What is wrong with a path before any of it is looked up. -/
def fault? (path : String) : Option FileFault :=
  if path.toList.contains '\x00' then some .nulInName
  else if maxLength < path.utf8ByteSize then some .nameTooLong
  else if path = "" then some .notFound
  else none

/-- The parts of a path between its slashes. -/
def parts (path : String) : List String := (path.toList.splitOn '/').map String.ofList

/-- The names along a path; empty parts and those that stand for the place itself are left
out. -/
def names (path : String) : List String :=
  (parts path).filter fun name => name ≠ "" && name ≠ "."

/-- Where a path starts: at the top if it starts with a slash, and else at the folder. -/
def start (path : String) : Place := if path.toList.head? = some '/' then ["/"] else []

/-- The last name of a path, if it names a file. -/
def fileName? (path : String) : Option String := (names path).getLast?.filter (· ≠ "..")

/-- What follows the last point of a path's last name. A point at its front is no such point. -/
def extension? (path : String) : Option String := do
  let cs := (← fileName? path).toList
  let tail := (cs.reverse.takeWhile (· ≠ '.')).reverse
  if tail.length + 1 < cs.length then some (String.ofList tail) else none

/-- Whether a path can only name a directory. -/
def endsInSlash (path : String) : Bool := path.toList.getLast? = some '/'

end Path

/-! ### Folders -/

/-- A directory: the files in it and in the directories around it, by their places. -/
structure Folder where
  files : List (Place × List UInt8)

namespace Folder

/-- What is found at a place. -/
inductive Entry where
  | directory
  | file (bs : List UInt8)
deriving DecidableEq

/-- The directory without files. -/
def empty : Folder := ⟨[]⟩

/-- The folder with a file at a place, in place of one that was there. -/
def put (f : Folder) (place : Place) (bs : List UInt8) : Folder :=
  ⟨(place, bs) :: f.files.filter (·.1 ≠ place)⟩

/-- The folder with some files; of two with one name the last is kept. -/
def ofFiles (files : List (String × List UInt8)) : Folder :=
  files.foldl (fun f file => f.put (Path.names file.1) file.2) empty

/-- The file at a place. -/
def file? (f : Folder) (place : Place) : Option (List UInt8) :=
  (f.files.find? (·.1 = place)).map (·.2)

/-- Whether a place is a directory: the folder itself, one above it, or one with a file in
it. -/
def isDirectory (f : Folder) (place : Place) : Bool :=
  place.all (fun name => name = ".." || name = "/") ||
    f.files.any fun file => place.isPrefixOf file.1 && place ≠ file.1

/-- What is found at a place, if there is anything. -/
def entry? (f : Folder) (place : Place) : Option Entry :=
  match f.file? place with
  | some bs => some (.file bs)
  | none => if f.isDirectory place then some .directory else none

/-- The place one part of a path further. There has to be a directory to go on from, but
nothing need be at the place that is reached. -/
def enter (f : Folder) (place : Place) (part : String) : Except FileFault Place :=
  match f.entry? place with
  | none => .error .notFound
  | some (.file _) => .error .notDirectory
  | some .directory =>
    if part = "" ∨ part = "." then .ok place
    else if part = ".." then .ok place.above
    else if Path.maxName < part.utf8ByteSize then .error .nameTooLong
    else .ok (place ++ [part])

/-- The place that some parts of a path lead to. -/
def follow (f : Folder) (path : String) (parts : List String) : Except FileFault Place :=
  match Path.fault? path with
  | some fault => .error fault
  | none => parts.foldlM f.enter (Path.start path)

/-- What reading the file at a path gives. -/
def read (f : Folder) (path : String) : FileContent :=
  match f.follow path (Path.parts path) with
  | .error fault => .ofFault fault
  | .ok place =>
    match f.entry? place with
    | none => .ofFault .notFound
    | some .directory => .ofFault .isDirectory
    | some (.file bs) => .bytes bs

/-- The parts of a path that are looked up to write a file: of a path that ends in a slash,
all but the last name. -/
def partsToWrite (path : String) : List String :=
  if Path.endsInSlash path then ((Path.parts path).filter (· ≠ "")).dropLast ++ ["."]
  else Path.parts path

/-- The folder after a file was written, in place of one that was there. -/
def write (f : Folder) (path : String) (bs : List UInt8) : Except FileFault Folder :=
  match f.follow path (partsToWrite path) with
  | .error fault => .error fault
  | .ok place =>
    if Path.endsInSlash path || f.isDirectory place then .error .isDirectory
    else .ok (f.put place bs)

end Folder

end DryRun
