import BuildFleet.Step.Failure

/-!
# Parameters of a step

What a caller gives for one run. The build configuration stays a text until the step runs, so that a
name that does not exist is a failure of the run and not of the request.
-/

namespace BuildFleet

variable {ν : Type}

/-- How an artifact was built. -/
inductive BuildConfiguration where
  | release
  | debug
  deriving DecidableEq, Repr, Inhabited

namespace BuildConfiguration

/-- The name of a configuration. -/
def name : BuildConfiguration → String
  | release => "Release"
  | debug => "Debug"

/-- Whether a configuration is the one for release. -/
def isRelease : BuildConfiguration → Bool
  | release => true
  | debug => false

/-- The configuration that is for release, or the one that is not. -/
def ofRelease : (release : Bool) → BuildConfiguration
  | true => release
  | false => debug

/-- The configuration with a name. -/
def ofName? (s : String) : Option BuildConfiguration :=
  [release, debug].find? (·.name == s)

/-- The configuration with a name, or the failure that there is none. -/
def parse (s : String) : Except Failure BuildConfiguration :=
  match ofName? s with
  | some c => .ok c
  | none =>
    .error (.configuration
      ("unrecognized build configuration '" ++ s ++ "' (expected Release or Debug)"))

theorem ofName?_eq_some_iff {s : String} {c : BuildConfiguration} :
    ofName? s = some c ↔ c.name = s := by
  constructor
  · intro h
    simpa using List.find?_some h
  · rintro rfl
    cases c <;> rfl

theorem parse_name (c : BuildConfiguration) : parse c.name = .ok c := by
  rw [parse, ofName?_eq_some_iff.mpr rfl]

theorem name_of_parse {s : String} {c : BuildConfiguration} (h : parse s = .ok c) : c.name = s := by
  rw [parse] at h
  split at h
  · cases h
    exact ofName?_eq_some_iff.mp ‹_›
  · cases h

theorem kind_of_parse {s : String} {f : Failure} (h : parse s = .error f) :
    f.kind = .configuration := by
  rw [parse] at h
  split at h
  · cases h
  · cases h
    rfl

theorem parse_of_forall_name_ne {s : String} (h : ∀ c : BuildConfiguration, c.name ≠ s) :
    parse s = .error (.configuration
      ("unrecognized build configuration '" ++ s ++ "' (expected Release or Debug)")) := by
  rw [parse]
  cases hs : ofName? s with
  | none => rfl
  | some c => exact absurd (ofName?_eq_some_iff.mp hs) (h c)

/-- A configuration as written in a document. -/
def toDatum (c : BuildConfiguration) : Datum := .text c.name

/-- Reads a configuration. -/
def read (S : Source ν) (n : ν) : Reading BuildConfiguration := S.nameOf ofName? n

end BuildConfiguration

/-- What a caller gives for one run of a step. -/
structure StepParams where
  /-- The name of the build configuration, which is looked at when the step runs. -/
  configuration : String
  deviceSerial : Option String
  /-- The revision that was asked for. -/
  revision : Option String
  /-- The revision that was checked out, if it is another one. -/
  gotRevision : Option String
  /-- The selector of the worker to act as. -/
  worker : Option String
  deriving DecidableEq, Repr, Inhabited

namespace StepParams

/-- Parameters as written in a document. -/
def toDatum (p : StepParams) : Datum :=
  .record [("configuration", .text p.configuration),
    ("device_serial", .ofOption .text p.deviceSerial), ("revision", .ofOption .text p.revision),
    ("got_revision", .ofOption .text p.gotRevision), ("worker", .ofOption .text p.worker)]

/-- Reads parameters. -/
def read (S : Source ν) (n : ν) : Reading StepParams := do
  let fs ← S.fields n
  let configuration ← fs.required 0 "configuration" S.text
  let deviceSerial ← fs.optional S 1 "device_serial" S.text
  let revision ← fs.optional S 2 "revision" S.text
  let gotRevision ← fs.optional S 3 "got_revision" S.text
  let worker ← fs.optional S 4 "worker" S.text
  fs.whole 5 { configuration, deviceSerial, revision, gotRevision, worker }

end StepParams

/-- The limits on the two calls of a device. -/
structure StepLimits where
  /-- How long the target may take to answer. -/
  validate : Span
  /-- How long the install may take. -/
  install : Span
  deriving DecidableEq, Repr

namespace StepLimits

/-- Limits in whole seconds. -/
def ofSeconds (validate install : Nat) : StepLimits :=
  ⟨Span.ofSeconds validate, Span.ofSeconds install⟩

/-- The limits that hold when none are given. -/
def usual : StepLimits := ofSeconds 30 600

instance : Inhabited StepLimits := ⟨usual⟩

end StepLimits

end BuildFleet
