import BuildFleet.Path
import BuildFleet.Text.Utf8

/-!
# Files

Why a file cannot be used, in the system's own words, and a tree of files that is known as a whole.
A path is walked segment by segment from the root or from the current directory: what comes before a
slash has to be a directory that exists, even where two dots lead out of it again.
-/

namespace BuildFleet

/-- Why a file cannot be read, or a program not be started. -/
inductive FileError where
  | missing
  | accessDenied
  /-- The path goes on below a file. -/
  | notDirectory
  | isDirectory
  | nameTooLong
  /-- The path holds a NUL, which no path can. -/
  | nulInPath
  /-- The content is not UTF-8. -/
  | notText
  /-- Any other reason. -/
  | other (reason : String)
  deriving DecidableEq, Repr

namespace FileError

/-- The text of an error. -/
def message : FileError → String
  | missing => "No such file or directory (os error 2)"
  | accessDenied => "Permission denied (os error 13)"
  | notDirectory => "Not a directory (os error 20)"
  | isDirectory => "Is a directory (os error 21)"
  | nameTooLong => "File name too long (os error 36)"
  | nulInPath => "file name contained an unexpected NUL byte"
  | notText => "stream did not contain valid UTF-8"
  | other reason => reason

/-- Whether the error means that the path does not lead to a file. -/
def meansNoFile : FileError → Bool
  | missing | notDirectory | isDirectory | nameTooLong | nulInPath => true
  | accessDenied | notText | other _ => false

end FileError

/-- The text in a file, given what came of reading its bytes. -/
def fileText (content : Except FileError (List UInt8)) : Except FileError String :=
  content.bind fun bytes ↦
    match Text.Utf8.decode bytes with
    | .ok text => .ok text
    | .error _ => .error .notText

/-- A tree of files. Where a file is, there is also every directory above it. -/
structure FileTree where
  /-- The files, by the segments of their paths from the root. -/
  files : List (List String × List UInt8)
  /-- Directories that may be empty. -/
  directories : List (List String) := []

namespace FileTree

/-- What is found at a place of the tree. -/
inductive Entry where
  | directory
  | file (content : List UInt8)
  deriving DecidableEq, Repr

/-- What is found at the end of some segments from the root. -/
def entry? (t : FileTree) (place : List String) : Option Entry :=
  match t.files.lookup place with
  | some content => some (.file content)
  | none =>
    if place.isEmpty || t.directories.any place.isPrefixOf ||
        t.files.any (place.isPrefixOf ·.1) then
      some .directory
    else none

/-- A segment may have so many bytes. -/
def segmentLimit : Nat := 255

/-- A path has fewer bytes than this. -/
def pathLimit : Nat := 4096

/-- One segment further, from a directory. -/
def enter (t : FileTree) (place : List String) (segment : String) :
    Except FileError (List String) :=
  match t.entry? place with
  | some .directory =>
    if segment.isEmpty || segment == "." then .ok place
    else if segment == ".." then .ok place.dropLast
    else if segmentLimit < segment.utf8ByteSize then .error .nameTooLong
    else
      let inner := place ++ [segment]
      if (t.entry? inner).isSome then .ok inner else .error .missing
  | some (.file _) => .error .notDirectory
  | none => .error .missing

/-- The place that a path leads to, from the current directory. -/
def walk (t : FileTree) (current : List String) (path : String) : Except FileError (List String) :=
  if path.toList.contains '\x00' then .error .nulInPath
  else if path.isEmpty then .error .missing
  else if pathLimit ≤ path.utf8ByteSize then .error .nameTooLong
  else
    let start := if Path.isAbsolute path then [] else current
    ((Path.pieces path.toList).map String.ofList).foldlM t.enter start

/-- The content of the file that a path leads to. -/
def read (t : FileTree) (current : List String) (path : String) : Except FileError (List UInt8) :=
  (t.walk current path).bind fun place ↦
    match t.entry? place with
    | some (.file content) => .ok content
    | some .directory => .error .isDirectory
    | none => .error .missing

/-- What keeps a path from being that of a program: no file of a tree is one. A name without a slash
is not looked for in the tree but where programs are. -/
def programFault (t : FileTree) (current : List String) (path : String) : FileError :=
  if path.toList.contains '/' then
    match t.walk current path with
    | .ok _ => .accessDenied
    | .error e => e
  else if path == "." || path == ".." then .accessDenied
  else if segmentLimit < path.utf8ByteSize then .nameTooLong
  else .missing

end FileTree

end BuildFleet
