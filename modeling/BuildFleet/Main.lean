import BuildFleet.CommandLine.Program
import Std.Time.DateTime.Timestamp

/-!
# The program on a real machine

Reads what the program may need, runs it, and prints what it leaves behind. This module starts no
processes: whatever program is to talk to a device is reported as one that may not be started.
-/

namespace BuildFleet.Program

/-- Why a file could not be read. -/
def fileErrorOf : IO.Error → FileError
  | .noFileOrDirectory .. | .noSuchThing .. => .missing
  | .permissionDenied .. => .accessDenied
  | .inappropriateType _ code _ => if code == 20 then .notDirectory else .isDirectory
  | .resourceExhausted _ 36 _ | .invalidArgument _ 36 _ => .nameTooLong
  | e => .other (toString e)

/-- The content of a file. -/
def readContent (path : String) : IO (Except FileError (List UInt8)) := do
  match ← (IO.FS.readBinFile path).toBaseIO with
  | .ok content => return .ok content.toList
  | .error e => return .error (fileErrorOf e)

/-- A new identifier for a run: random but for the bits that say so. -/
def newRunId : IO RunId := do
  let bytes ← IO.getRandomBytes 16
  let n := bytes.toList.foldl (fun n b ↦ n * 256 + b.toNat) 0
  return .random n

/-- The time now. -/
def currentInstant : IO Instant := do
  let t ← Std.Time.Timestamp.now
  return ⟨t.val.second.val, t.val.nano.val.toNat⟩

/-- A system that starts nothing. -/
def noProcesses : ProcessSystem Unit :=
  fun _ _ ↦ .pure (.error "Operation not permitted (os error 1)")

end BuildFleet.Program

open BuildFleet BuildFleet.Program

/-- Runs the program. -/
def main (args : List String) : IO UInt32 := do
  let values ← Program.environmentNames.mapM fun name ↦ return (name, ← IO.getEnv name)
  let environment := fun name ↦ (values.lookup name).join
  let contents ← (Program.candidates environment none args).mapM fun path ↦
    return (path, ← readContent path)
  let machine : Machine Unit :=
    { environment
      accountHome := none
      currentDirectory := (← IO.currentDir).toString
      read := fun path ↦ (contents.lookup path).getD (.error .missing)
      processes := noProcesses
      timer := .ticking }
  let (result, _) := Program.run machine args (← newRunId) (← currentInstant) ()
  IO.print result.stdout
  IO.eprint result.stderr
  return result.exitCode.toUInt32
