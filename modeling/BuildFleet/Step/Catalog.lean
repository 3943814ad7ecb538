import BuildFleet.Device.Bridge
import BuildFleet.Step.Install

/-!
# The catalogue of steps

The steps that can be asked for by name, and how each is made for one run. There is one: installing
a build on an Android device over a bridge. Whether the launcher comes along is decided by the
worker and by nothing that the caller gives.
-/

namespace BuildFleet

/-! ## Android -/

namespace Android

variable {σ : Type}

/-- What asking a bridge for a device amounts to. -/
def reachability (serial : String) : Except DeviceError Bool → Except Failure Unit
  | .ok true => .ok ()
  | .ok false => .error (.targetUnreachable ("device " ++ serial ++ " is not attached"))
  | .error e => .error (.targetUnreachable ("device " ++ serial ++ ": " ++ e.message))

/-- What an install over a bridge amounts to. -/
def installation : Except DeviceError InstallReport → Except Failure InstallReport
  | .ok report => .ok report
  | .error (.timeout seconds) => .error (.installTimeout (.ofSeconds seconds))
  | .error e => .error (.installFailure e.message)

/-- The device with a serial. -/
def target (b : Bridge σ) (serial : String) (elevated : Bool) : Target σ where
  platform := "android"
  serial := serial
  elevated := elevated
  check := (b.isReachable serial).map (reachability serial)

/-- What places packages over a bridge. -/
def installer (b : Bridge σ) : Installer σ where
  install r := (b.install r.serial r.configuration.isRelease r.launcher).map installation

/-- The name of the step. -/
def stepName : String := "android_install"

/-- The step that installs on a device. -/
def stepOn (b : Bridge σ) (serial : String) (elevated : Bool) : InstallStep σ :=
  ⟨stepName, target b serial elevated, installer b⟩

/-- The step for a run: the device is the one that the run names. -/
def step (b : Bridge σ) (c : StepContext) : Except Failure (InstallStep σ) :=
  c.deviceSerial.map fun serial ↦ stepOn b serial c.requiresElevatedInstall

end Android

/-! ## All steps -/

/-- The steps that can be asked for. -/
inductive StepKind where
  | androidInstall
  deriving DecidableEq, Repr, Inhabited

namespace StepKind

/-- All steps, in the order of listing. -/
def all : List StepKind := [androidInstall]

/-- The name of a step. -/
def name : StepKind → String
  | androidInstall => Android.stepName

/-- What a step does. -/
def description : StepKind → String
  | androidInstall => "Install the built APK onto an attached Android device"

/-- The step with a name, or the failure that there is none. -/
def parse (s : String) : Except Failure StepKind :=
  match all.find? (·.name == s) with
  | some k => .ok k
  | none => .error (.configuration ("unknown step '" ++ s ++ "'"))

theorem name_of_parse {s : String} {k : StepKind} (h : parse s = .ok k) : k.name = s := by
  rw [parse] at h
  split at h
  · cases h
    rename_i hfound
    simpa using List.find?_some hfound
  · cases h

theorem parse_name (k : StepKind) : parse k.name = .ok k := by
  cases k
  rfl

theorem kind_of_parse {s : String} {f : Failure} (h : parse s = .error f) :
    f.kind = .configuration := by
  rw [parse] at h
  split at h
  · cases h
  · cases h
    rfl

/-- Makes the step for a run. -/
def instantiate {σ : Type} (k : StepKind) (b : Bridge σ) (c : StepContext) :
    Except Failure (InstallStep σ) :=
  match k with
  | androidInstall => Android.step b c

end StepKind

end BuildFleet
