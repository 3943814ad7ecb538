import BuildFleet.RunId
import BuildFleet.Step.State

/-!
# Outcomes of runs

What is handed back when a run is over: who it ran as, the state it ended in and how it got there.
-/

namespace BuildFleet

variable {ν : Type}

/-- The outcome of a run. -/
structure StepOutcome where
  runId : RunId
  /-- The name of the step. -/
  step : String
  hostname : String
  /-- The worker that the run acted as, if one could be selected. -/
  worker : Option String
  state : StepState
  /-- Every change of state, in order. -/
  transitions : List StateTransition
  deriving DecidableEq, Inhabited

namespace StepOutcome

/-- Whether the run has succeeded. -/
def isSuccess (o : StepOutcome) : Bool :=
  match o.state with
  | .succeeded .. => true
  | _ => false

/-- The reason why the run has failed. -/
def failureKind? (o : StepOutcome) : Option FailureKind :=
  match o.state with
  | .failed kind .. => some kind
  | _ => none

/-- The text of the failure. -/
def error? (o : StepOutcome) : Option String :=
  match o.state with
  | .failed _ error _ => some error
  | _ => none

/-- The exit status of the program after the run; a run that has not ended counts as broken off. -/
def exitCode (o : StepOutcome) : Nat :=
  match o.state with
  | .succeeded .. => 0
  | .failed kind .. => kind.exitCode
  | _ => 1

/-- The whole seconds from the first change of state to the last one. -/
def duration? (o : StepOutcome) : Option Span :=
  match o.transitions.head?, o.transitions.getLast? with
  | some first, some last => (last.moment.secondsSince? first.moment).map Span.ofSeconds
  | _, _ => none

end StepOutcome

/-! ## In documents -/

namespace RunId

/-- An identifier as written in a document. -/
def toDatum (id : RunId) : Datum := .text id.text

/-- Reads an identifier. -/
def read (S : Source ν) (n : ν) : Reading RunId := do
  .ofOption (RunId.parse? (← S.text n))

end RunId

namespace StepOutcome

/-- An outcome as written in a document. -/
def toDatum (o : StepOutcome) : Datum :=
  .record [("run_id", o.runId.toDatum), ("step", .text o.step), ("hostname", .text o.hostname),
    ("worker", .ofOption .text o.worker), ("state", o.state.toDatum),
    ("transitions", .ofList StateTransition.toDatum o.transitions)]

/-- Reads an outcome. -/
def read (S : Source ν) (n : ν) : Reading StepOutcome := do
  let fs ← S.fields n
  let runId ← fs.required 0 "run_id" (RunId.read S)
  let step ← fs.required 1 "step" S.text
  let hostname ← fs.required 2 "hostname" S.text
  let worker ← fs.optional S 3 "worker" S.text
  let state ← fs.required 4 "state" (StepState.read S)
  let transitions ← fs.required 5 "transitions" (S.listOf (StateTransition.read S))
  fs.whole 6 { runId, step, hostname, worker, state, transitions }

end StepOutcome

end BuildFleet
