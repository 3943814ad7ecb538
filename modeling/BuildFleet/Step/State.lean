import BuildFleet.Instant
import BuildFleet.Step.Failure

/-!
# The life of a step run

A run is created, validated, executed, and ends by succeeding or failing; it may fail from every
state that is not an end. Each state but the first knows when it began.
-/

namespace BuildFleet

variable {ν : Type}

/-- The state of a run. -/
inductive StepState where
  /-- Nothing has been checked yet. -/
  | created
  /-- The target has passed its check. -/
  | validated (validatedAt : Instant)
  /-- The install is in progress. -/
  | executing (startedAt : Instant)
  | succeeded (startedAt completedAt : Instant)
  | failed (kind : FailureKind) (error : String) (failedAt : Instant)
  deriving DecidableEq, Repr, Inhabited

namespace StepState

/-- The state of a run that has failed at a point in time. -/
def ofFailure (f : Failure) (now : Instant) : StepState := .failed f.kind f.message now

/-- Whether a run in this state is over. -/
def isTerminal : StepState → Bool
  | succeeded .. | failed .. => true
  | _ => false

/-- The name of a state. -/
def name : StepState → String
  | created => "Created"
  | validated _ => "Validated"
  | executing _ => "Executing"
  | succeeded .. => "Succeeded"
  | failed .. => "Failed"

/-- Whether a run may go from one state to another. -/
def canAdvanceTo : StepState → StepState → Bool
  | created, validated _ => true
  | validated _, executing _ => true
  | executing _, succeeded .. => true
  | created, failed .. => true
  | validated _, failed .. => true
  | executing _, failed .. => true
  | _, _ => false

/-- When the execution began, in a state that knows it. -/
def startedAt? : StepState → Option Instant
  | executing t => some t
  | succeeded t _ => some t
  | _ => none

end StepState

/-- A change of state. -/
structure StateTransition where
  /-- The name of the state that was left. -/
  source : String
  /-- The name of the state that was entered. -/
  target : String
  moment : Instant
  deriving DecidableEq, Repr, Inhabited

/-! ## In documents -/

namespace Instant

/-- A point in time as written in a document. -/
def toDatum (t : Instant) : Datum := .text t.text

/-- Reads a point in time. -/
def read (S : Source ν) (n : ν) : Reading Instant := do
  .ofOption (Instant.parse? (← S.text n))

end Instant

namespace StepState

/-- A state as written in a document. -/
def toDatum : StepState → Datum
  | created => .text "Created"
  | validated t => .variant "Validated" (.record [("validated_at", t.toDatum)])
  | executing t => .variant "Executing" (.record [("started_at", t.toDatum)])
  | succeeded t u =>
    .variant "Succeeded" (.record [("started_at", t.toDatum), ("completed_at", u.toDatum)])
  | failed kind error t =>
    .variant "Failed"
      (.record [("kind", kind.toDatum), ("error", .text error), ("failed_at", t.toDatum)])

/-- Reads a state. -/
def read (S : Source ν) (n : ν) : Reading StepState := do
  let (name, payload) ← S.choice n
  if name == "Created" then if payload.all S.isVoid then return created else failure
  else
    let fs ← S.payloadFields (← Reading.ofOption payload)
    if name == "Validated" then
      let t ← fs.required 0 "validated_at" (Instant.read S)
      fs.whole 1 (validated t)
    else if name == "Executing" then
      let t ← fs.required 0 "started_at" (Instant.read S)
      fs.whole 1 (executing t)
    else if name == "Succeeded" then
      let t ← fs.required 0 "started_at" (Instant.read S)
      let u ← fs.required 1 "completed_at" (Instant.read S)
      fs.whole 2 (succeeded t u)
    else if name == "Failed" then
      let kind ← fs.required 0 "kind" (FailureKind.read S)
      let error ← fs.required 1 "error" S.text
      let t ← fs.required 2 "failed_at" (Instant.read S)
      fs.whole 3 (failed kind error t)
    else failure

end StepState

namespace StateTransition

/-- A change of state as written in a document. -/
def toDatum (t : StateTransition) : Datum :=
  .record [("from", .text t.source), ("to", .text t.target), ("at", t.moment.toDatum)]

/-- Reads a change of state. -/
def read (S : Source ν) (n : ν) : Reading StateTransition := do
  let fs ← S.fields n
  let source ← fs.required 0 "from" S.text
  let target ← fs.required 1 "to" S.text
  let moment ← fs.required 2 "at" (Instant.read S)
  fs.whole 3 { source, target, moment }

end StateTransition

end BuildFleet
