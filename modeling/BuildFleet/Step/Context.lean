import BuildFleet.Dictionary
import BuildFleet.Host.Basic
import BuildFleet.Step.Outcome
import BuildFleet.Step.Params

/-!
# The context of a run

A context belongs to one run. It holds what the run was asked for and what it has come to, and it is
the only place where the state changes: a move that the life of a run does not have is refused, and
then nothing has happened. The list of moves is kept beside the state, and each accepted move adds
to both.
-/

namespace BuildFleet

/-- The context of one run. -/
structure StepContext where
  runId : RunId
  host : Host
  /-- The worker that the run acts as. -/
  worker : Worker
  params : StepParams
  limits : StepLimits
  /-- What the run has noted, by keys. -/
  metadata : Dictionary String
  state : StepState
  /-- The accepted moves, in order. -/
  transitions : List StateTransition
  deriving DecidableEq, Inhabited

namespace StepContext

/-- The context of a run that has just been created. -/
def create (runId : RunId) (host : Host) (worker : Worker) (params : StepParams)
    (limits : StepLimits) : StepContext where
  runId := runId
  host := host
  worker := worker
  params := params
  limits := limits
  metadata := .empty
  state := .created
  transitions := []

/-- The context of a run on a host, as the worker that the parameters select. -/
def forHost (runId : RunId) (host : Host) (params : StepParams) (limits : StepLimits) :
    Except Failure StepContext :=
  (host.selectWorker params.worker).map fun worker ↦ create runId host worker params limits

/-- Moves to another state, if the life of a run has that move. -/
def advance (c : StepContext) (next : StepState) (now : Instant) : Bool × StepContext :=
  if c.state.canAdvanceTo next then
    (true,
      { c with
        state := next
        transitions := c.transitions ++ [⟨c.state.name, next.name, now⟩] })
  else (false, c)

/-- Notes that the target has passed its check. -/
def markValidated (c : StepContext) (now : Instant) : Bool × StepContext :=
  c.advance (.validated now) now

/-- Notes that the install begins. -/
def markExecuting (c : StepContext) (now : Instant) : Bool × StepContext :=
  c.advance (.executing now) now

/-- The start of an execution that ends now: the one that the state knows, if it is executing. -/
def executionStart (c : StepContext) (now : Instant) : Instant :=
  match c.state with
  | .executing t => t
  | _ => now

/-- Notes that the run has succeeded. -/
def markSucceeded (c : StepContext) (now : Instant) : Bool × StepContext :=
  c.advance (.succeeded (c.executionStart now) now) now

/-- Notes that the run has failed. -/
def markFailed (c : StepContext) (f : Failure) (now : Instant) : Bool × StepContext :=
  c.advance (.ofFailure f now) now

/-- The build configuration that the parameters name. -/
def buildConfiguration (c : StepContext) : Except Failure BuildConfiguration :=
  BuildConfiguration.parse c.params.configuration

/-- The serial of the device, which has to be given. -/
def deviceSerial (c : StepContext) : Except Failure String :=
  match c.params.deviceSerial.filter (!·.isEmpty) with
  | some serial => .ok serial
  | none => .error (.configuration "no target device serial given")

theorem deviceSerial_cases (c : StepContext) :
    (∃ serial, c.params.deviceSerial = some serial ∧ serial ≠ "" ∧ c.deviceSerial = .ok serial) ∨
      ((c.params.deviceSerial = none ∨ c.params.deviceSerial = some "") ∧
        c.deviceSerial = .error (.configuration "no target device serial given")) := by
  rw [deviceSerial]
  cases c.params.deviceSerial with
  | none => exact .inr ⟨.inl rfl, rfl⟩
  | some serial =>
    by_cases h : serial = ""
    · rw [h]
      exact .inr ⟨.inr rfl, rfl⟩
    · have hkept : (some serial).filter (!·.isEmpty) = some serial := by
        rw [Option.filter_some, if_pos (by simpa using h)]
      rw [hkept]
      exact .inl ⟨serial, rfl, h, rfl⟩

theorem kind_of_deviceSerial {c : StepContext} {f : Failure} (h : c.deviceSerial = .error f) :
    f.kind = .configuration := by
  rcases c.deviceSerial_cases with ⟨serial, -, -, hok⟩ | ⟨-, herror⟩
  · rw [hok] at h
    cases h
  · rw [herror] at h
    cases h
    rfl

/-- Whether installs of this run bring the launcher along: the worker decides. -/
def requiresElevatedInstall (c : StepContext) : Bool := c.worker.elevatedInstall

/-- Notes a value under a key. -/
def setMetadata (c : StepContext) (key value : String) : StepContext :=
  { c with metadata := c.metadata.insert key value }

/-- What has been noted under a key. -/
def getMetadata? (c : StepContext) (key : String) : Option String := c.metadata.get? key

/-- The outcome of the run, as a step of that name. -/
def toOutcome (c : StepContext) (step : String) : StepOutcome where
  runId := c.runId
  step := step
  hostname := c.host.hostname
  worker := some c.worker.name
  state := c.state
  transitions := c.transitions

end StepContext

end BuildFleet
