import BuildFleet.FileTree
import BuildFleet.Table.Document

/-!
# Host tables in files

A table that cannot be loaded from a file is reported by a chain of texts, from what was attempted
down to the cause. What a format has to say about a text that is no table is not part of it.
-/

namespace BuildFleet

/-- Why a file gives no table. -/
inductive TableFileError where
  | unread (path : String) (cause : FileError)
  | invalid (path : String) (cause : TableError)
  deriving DecidableEq, Repr

/-- The texts of an error, each the cause of the one before it. -/
def TableFileError.chain : TableFileError → List String
  | unread path cause => ["Failed to read host table " ++ path, cause.message]
  | invalid path (.faulty fault) => ["Invalid host table " ++ path, fault.message]
  | invalid path .unreadable => ["Invalid host table " ++ path]

/-- The table in a file, given what came of reading the file. -/
def HostTable.ofFile (path : String) (content : Except FileError (List UInt8)) :
    Except TableFileError HostTable :=
  match fileText content with
  | .error e => .error (.unread path e)
  | .ok text => (HostTable.ofYaml text).mapError (.invalid path)

end BuildFleet
