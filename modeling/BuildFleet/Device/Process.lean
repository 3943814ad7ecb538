import BuildFleet.Device.Adb
import BuildFleet.FileTree

/-!
# Starting processes

Why a program cannot be started, in the system's own words. The system takes no text with a NUL in
it, before it looks for anything.
-/

namespace BuildFleet

/-- Whether a text holds a NUL. -/
def hasNul (s : String) : Bool := s.toList.contains '\x00'

/-- The reason why a program cannot be started with some arguments; `pathFault?` tells what is wrong
with the path of a program. -/
def startFault? (pathFault? : String → Option FileError) (program : String)
    (arguments : List String) : Option String :=
  if hasNul program || arguments.any hasNul then some "nul byte found in provided data"
  else (pathFault? program).map FileError.message

namespace ScriptedProcesses

/-- What a process does that is known beforehand. -/
inductive Behaviour where
  | ends (result : ProcessResult)
  /-- It runs on. -/
  | hangs
  deriving DecidableEq, Repr

/-- The script of processes to come, and the arguments of those that have been started. -/
structure Script where
  coming : List Behaviour
  started : List (List String) := []

/-- A process that prints nothing and ends well. -/
def silent : Behaviour := .ends ⟨.exited 0, [], []⟩

/-- The system in which processes do what a script says; after its end they are silent. -/
def system (pathFault? : String → Option FileError) : ProcessSystem Script :=
  fun program arguments script ↦
    match startFault? pathFault? program arguments with
    | some reason => (.now (.error reason), script)
    | none =>
      let script' : Script := ⟨script.coming.drop 1, script.started ++ [arguments]⟩
      match script.coming.headD silent with
      | .hangs => (.never, script')
      | .ends result => (.now (.ok result), script')

end ScriptedProcesses

end BuildFleet
