import BuildFleet.Registry
import BuildFleet.Step.Catalog

/-!
# Runs

A run takes a request from its host name to an outcome, and reports its progress by events, which go
to all handlers that have been added. It never stops without an outcome: what is wrong with a
request, with the device or with the install is the state that the outcome tells.

A request is refused before there is a context for it when no host is named, the step is not known,
or no worker can be selected; the outcome then names no worker.
-/

namespace BuildFleet

/-- What is asked for. -/
structure RunRequest where
  hostname : String
  /-- The name of the step. -/
  step : String
  params : StepParams
  deriving DecidableEq, Repr, Inhabited

/-- What can be reported of a run. -/
inductive RunEvent where
  | hostResolved (hostname : String) (known : Bool) (workers : Nat)
  | stepStarted (runId : RunId) (step worker : String)
  | stepSucceeded (runId : RunId) (step : String)
  | stepFailed (runId : RunId) (step : String) (kind : FailureKind) (error : String)
  deriving DecidableEq

namespace RunEvent

/-- The event of a failed run. -/
def ofFailure (runId : RunId) (step : String) (f : Failure) : RunEvent :=
  .stepFailed runId step f.kind f.message

/-- The run that an event is about, if the event tells. -/
def runId? : RunEvent → Option RunId
  | hostResolved .. => none
  | stepStarted id .. => some id
  | stepSucceeded id _ => some id
  | stepFailed id .. => some id

/-- What so many handlers are called with for some events, in the order of time: each event goes to
all of them, in the order in which they were added, before the next one. -/
def deliveries (handlers : Nat) (events : List RunEvent) : List (Nat × RunEvent) :=
  events.flatMap fun e ↦ (List.range handlers).map (·, e)

end RunEvent

/-- What a run leaves behind. -/
structure RunReport (σ : Type) where
  outcome : StepOutcome
  events : List RunEvent
  /-- The calls of the handlers, each with the number of the handler, in the order of time. -/
  deliveries : List (Nat × RunEvent)
  world : σ
  /-- The time at which the run is over. -/
  now : Instant

/-- The report of a run whose events have been delivered to so many handlers. -/
def RunReport.delivered {σ : Type} (handlers : Nat) (outcome : StepOutcome)
    (events : List RunEvent) (world : σ) (now : Instant) : RunReport σ :=
  ⟨outcome, events, RunEvent.deliveries handlers events, world, now⟩

/-- Runs steps on the hosts of a registry, under limits and over a bridge. -/
structure Runner (σ : Type) where
  registry : Registry
  limits : StepLimits
  bridge : Bridge σ
  /-- The timers that the limits are kept by. -/
  timer : Timer
  /-- How many handlers of events have been added. -/
  handlers : Nat

namespace Runner

variable {σ : Type}

/-- The outcome of a request that is refused before it has a context. -/
def rejection (r : RunRequest) (runId : RunId) (now : Instant) (f : Failure) : StepOutcome where
  runId := runId
  step := r.step
  hostname := r.hostname
  worker := none
  state := .ofFailure f now
  transitions := [⟨StepState.created.name, "Failed", now⟩]

/-- Refuses a request; some events have been reported before. -/
def reject (k : Runner σ) (r : RunRequest) (runId : RunId) (now : Instant) (world : σ)
    (f : Failure) (events : List RunEvent) : RunReport σ :=
  .delivered k.handlers (rejection r runId now f) (events ++ [.ofFailure runId r.step f]) world now

/-- The context of a request on a host that has been resolved, with the revisions noted. -/
def contextFor (limits : StepLimits) (r : RunRequest) (runId : RunId) (host : Host) :
    Except Failure StepContext :=
  (StepContext.forHost runId host r.params limits).map fun c ↦
    let c := match r.params.revision with
      | some revision => c.setMetadata "revision" revision
      | none => c
    match r.params.gotRevision with
    | some revision => c.setMetadata "got_revision" revision
    | none => c

/-- Runs a step in its context; some events have been reported before. -/
def perform (k : Runner σ) (kind : StepKind) (c : StepContext) (now : Instant) (world : σ)
    (events : List RunEvent) : RunReport σ :=
  match kind.instantiate k.bridge c with
  | .error f =>
    .delivered k.handlers ((c.markFailed f now).2.toOutcome kind.name)
      (events ++ [.ofFailure c.runId kind.name f]) world now
  | .ok step =>
    let started := RunEvent.stepStarted c.runId kind.name c.worker.name
    let (result, p) := step.runToCompletion k.timer ⟨c, world, now⟩
    let ended := match result with
      | .ok () => RunEvent.stepSucceeded c.runId kind.name
      | .error f => .ofFailure c.runId kind.name f
    .delivered k.handlers (p.context.toOutcome kind.name) (events ++ [started, ended]) p.world p.now

/-- Runs one step. -/
def run (k : Runner σ) (r : RunRequest) (runId : RunId) (now : Instant) (world : σ) :
    RunReport σ :=
  if Text.allBlank r.hostname then
    k.reject r runId now world (.configuration "hostname must not be empty") []
  else
    let host := k.registry.resolve r.hostname
    let resolved :=
      RunEvent.hostResolved host.hostname (k.registry.isKnown r.hostname) host.workers.length
    match StepKind.parse r.step with
    | .error f => k.reject r runId now world f [resolved]
    | .ok kind =>
      match contextFor k.limits r runId host with
      | .error f => k.reject r runId now world f [resolved]
      | .ok c => k.perform kind c now world [resolved]

end Runner

end BuildFleet
