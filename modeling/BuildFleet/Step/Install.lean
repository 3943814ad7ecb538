import BuildFleet.Device.Error
import BuildFleet.Device.Reply
import BuildFleet.Step.Context

/-!
# The install step

An install step is made of a target, which can be checked, and an installer. The order is fixed: the
build configuration is looked at first, then the target is checked, and the installer is asked only
for a target that has passed. Each of the two is asked once and under its own limit, whatever time
the other has taken: the timer of the install is set when the install begins.

Whatever a target answers, what comes out of a failed check is that the target cannot be reached;
and what comes out of an installer that fails is a failed install or one that took too long.
-/

namespace BuildFleet

/-- A device that work is done on. -/
structure Target (σ : Type) where
  /-- The name of the platform. -/
  platform : String
  serial : String
  /-- Whether installs on it bring the launcher along. -/
  elevated : Bool
  /-- Checks that the device can be worked on. -/
  check : Call σ (Except Failure Unit)

/-- What an installer is asked for. -/
structure InstallRequest where
  serial : String
  configuration : BuildConfiguration
  launcher : Bool
  deriving DecidableEq, Repr

/-- What places builds on devices. -/
structure Installer (σ : Type) where
  install : InstallRequest → Call σ (Except Failure InstallReport)

/-- A step that checks a target and then installs on it. -/
structure InstallStep (σ : Type) where
  name : String
  target : Target σ
  installer : Installer σ

/-- A run in progress: its context, the world, and the time. -/
structure Progress (σ : Type) where
  context : StepContext
  world : σ
  now : Instant

namespace Progress

variable {σ : Type}

/-- Changes the context by a move, whether it is accepted or not. -/
def move (p : Progress σ) (m : StepContext → Instant → Bool × StepContext) : Progress σ :=
  { p with context := (m p.context p.now).2 }

/-- Makes a call, sets a timer to a limit and waits for whichever is first. -/
def await {α : Type} (t : Timer) (p : Progress σ) (limit : Span) (c : Call σ α) :
    Option α × Progress σ :=
  let (reply, world) := c p.world
  let (answer, waited) := reply.awaited (t.runs p.now limit)
  (answer, { p with world, now := p.now.add waited })

end Progress

namespace InstallStep

variable {σ : Type}

/-- What a check of the target amounts to, given what came within the limit. -/
def checked (t : Target σ) (limit : Span) : Option (Except Failure Unit) → Except Failure Unit
  | some (.ok ()) => .ok ()
  | some (.error (.targetUnreachable detail)) => .error (.targetUnreachable detail)
  | some (.error f) => .error (.targetUnreachable f.message)
  | none =>
    .error (.targetUnreachable
      (t.platform ++ " device " ++ t.serial ++ " did not answer within " ++ limit.text))

/-- What an install amounts to, given what came within the limit. -/
def installed (limit : Span) :
    Option (Except Failure InstallReport) → Except Failure InstallReport
  | some (.ok report) => .ok report
  | some (.error (.installFailure detail)) => .error (.installFailure detail)
  | some (.error (.installTimeout limit)) => .error (.installTimeout limit)
  | some (.error f) => .error (.installFailure f.message)
  | none => .error (.installTimeout limit)

/-- What the installer is asked for. -/
def request (s : InstallStep σ) (configuration : BuildConfiguration) : InstallRequest :=
  ⟨s.target.serial, configuration, s.target.elevated⟩

/-- Notes what an install has come to. -/
def note (configuration : BuildConfiguration) (report : InstallReport) (c : StepContext) :
    StepContext :=
  (c.setMetadata "installed_packages" (",".intercalate report.packages)).setMetadata
    "configuration" configuration.name

/-- Runs the step up to its end, which is not yet noted in the state. -/
def perform (t : Timer) (s : InstallStep σ) (p : Progress σ) :
    Except Failure Unit × Progress σ :=
  match p.context.buildConfiguration with
  | .error f => (.error f, p)
  | .ok configuration =>
    let (answer, p) := p.await t p.context.limits.validate s.target.check
    match checked s.target p.context.limits.validate answer with
    | .error f => (.error f, p)
    | .ok () =>
      let p := (p.move StepContext.markValidated).move StepContext.markExecuting
      let (answer, p) :=
        p.await t p.context.limits.install (s.installer.install (s.request configuration))
      match installed p.context.limits.install answer with
      | .error f => (.error f, p)
      | .ok report => (.ok (), { p with context := note configuration report p.context })

/-- Runs the step and settles the run: it has succeeded or failed. -/
def runToCompletion (t : Timer) (s : InstallStep σ) (p : Progress σ) :
    Except Failure Unit × Progress σ :=
  match s.perform t p with
  | (.ok (), p) => (.ok (), p.move StepContext.markSucceeded)
  | (.error f, p) => (.error f, p.move fun c now ↦ c.markFailed f now)

end InstallStep

end BuildFleet
