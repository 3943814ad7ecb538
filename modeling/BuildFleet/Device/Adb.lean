import BuildFleet.Device.Bridge
import BuildFleet.Path
import BuildFleet.Step.Params
import BuildFleet.Text.Utf8

/-!
# The adb bridge

Devices are talked to through the adb program, which is started once for each command. A command is
good if it ends with status 0 and prints UTF-8. An install is one command for the application, and
one more for the launcher if that is wanted; the first command that is not good, or that prints a
failure, ends it.
-/

namespace BuildFleet

/-- How a process has ended. -/
inductive ProcessEnd where
  | exited (code : Int)
  /-- By a signal, without a status. -/
  | killed
  deriving DecidableEq, Repr

/-- The status that a process is reported with. -/
def ProcessEnd.code : ProcessEnd → Int
  | exited code => code
  | killed => -1

/-- What a process has left behind. -/
structure ProcessResult where
  ending : ProcessEnd
  stdout : List UInt8
  stderr : List UInt8
  deriving DecidableEq, Repr

/-- The system that starts processes: a program and its arguments, answered by what the process has
left behind or by the reason why it could not be started. -/
abbrev ProcessSystem (σ : Type) :=
  (program : String) → (arguments : List String) → Call σ (Except String ProcessResult)

/-- How the adb program is used. -/
structure AdbConfig where
  /-- The path of the program, if it is not to be looked for. -/
  adbPath : Option String := none
  /-- The directory with one directory of packages for each build configuration. -/
  apkDir : String := "out"
  /-- The file name of the application. -/
  apkName : String := "app.apk"
  /-- The file name of the launcher. -/
  launcherApkName : String := "launcher.apk"
  /-- The limit on one command, in seconds. -/
  timeoutSeconds : Nat := 3600
  deriving DecidableEq, Repr, Inhabited

namespace AdbConfig

/-- The limit on one command. -/
def limit (c : AdbConfig) : Span := .ofSeconds c.timeoutSeconds

/-- The program to start. -/
def program (c : AdbConfig) : String := c.adbPath.getD "adb"

/-- The path of a file built for a configuration. -/
def pathOf (c : AdbConfig) (configuration : BuildConfiguration) (file : String) : String :=
  Path.join (Path.join c.apkDir configuration.name) file

/-- The path of the application. -/
def apkPath (c : AdbConfig) (configuration : BuildConfiguration) : String :=
  c.pathOf configuration c.apkName

/-- The path of the launcher. -/
def launcherApkPath (c : AdbConfig) (configuration : BuildConfiguration) : String :=
  c.pathOf configuration c.launcherApkName

/-- The files that an install places, in order. -/
def installPaths (c : AdbConfig) (release launcher : Bool) : List String :=
  let configuration := BuildConfiguration.ofRelease release
  c.apkPath configuration :: if launcher then [c.launcherApkPath configuration] else []

end AdbConfig

namespace Adb

/-- What a process that has ended tells: its output, or what was wrong. -/
def outputOf (r : ProcessResult) : Except DeviceError String :=
  if r.ending = .exited 0 then
    match Text.Utf8.decode r.stdout with
    | .ok text => .ok text
    | .error fault => .error (.decode fault.message)
  else .error (.commandFailed r.ending.code (Text.trim (Text.Utf8.decodeLenient r.stderr)))

/-- What a command tells when the wait for it is over. -/
def resultOf (c : AdbConfig) : Option (Except String ProcessResult) → Except DeviceError String
  | none => .error (.timeout c.timeoutSeconds)
  | some (.error reason) => .error (.spawn c.program reason)
  | some (.ok r) => outputOf r

/-- The arguments of a command for the device with a serial. -/
def arguments (serial : String) (command : List String) : List String :=
  "-s" :: serial :: command

variable {σ : Type} (t : Timer) (sys : ProcessSystem σ) (c : AdbConfig)

/-- Runs one command. -/
def run (serial : String) (command : List String) : Call σ (Except DeviceError String) :=
  ((sys c.program (arguments serial command)).within t c.limit).map (resultOf c)

/-- The state of a device. -/
def getState (serial : String) : Call σ (Except DeviceError String) :=
  (run t sys c serial ["get-state"]).map fun r ↦ r.map Text.trim

/-- Places one file on a device. -/
def installFile (serial path : String) : Call σ (Except DeviceError String) :=
  run t sys c serial ["install", "-r", path]

/-- Whether a state means that a device is ready. A command that failed means that the device is not
attached. -/
def readiness : Except DeviceError String → Except DeviceError Bool
  | .ok state => .ok (state == "device")
  | .error (.commandFailed ..) => .ok false
  | .error e => .error e

/-- Places files on a device one after the other; `done` have been placed and printed `output`. -/
def installFiles (serial : String) (done : List String) (output : String) :
    List String → Call σ (Except DeviceError InstallReport)
  | [] => .pure (.ok ⟨done, output⟩)
  | path :: paths =>
    (installFile t sys c serial path).andThen fun
      | .error e => .pure (.error e)
      | .ok text =>
        match InstallOutput.check text with
        | .error e => .pure (.error e)
        | .ok () => installFiles serial (done ++ [path]) (output ++ text) paths

/-- The bridge that uses the adb program. -/
def bridge : Bridge σ where
  isReachable serial := (getState t sys c serial).map readiness
  install serial release launcher :=
    installFiles t sys c serial [] "" (c.installPaths release launcher)

end Adb

end BuildFleet
