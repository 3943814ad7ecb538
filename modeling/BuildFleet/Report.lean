import BuildFleet.Registry
import BuildFleet.Run
import BuildFleet.Terminal

/-!
# What people are shown

Hosts, steps, events and outcomes as styled text. The automation root of a host is shown as one
path, its segments with slashes between them.
-/

namespace BuildFleet

/-- A state in capitals, in the colour of how things stand. -/
def StepState.label : StepState → Piece
  | created => .styled .dim "CREATED"
  | validated _ => .styled .cyan "VALIDATED"
  | executing _ => .styled .yellow "EXECUTING"
  | succeeded .. => .styled .green "SUCCEEDED"
  | failed kind .. => .styled .red ("FAILED (" ++ kind.displayName ++ ")")

/-- The first digits of an identifier, which are enough to tell it from others at a glance. -/
def RunId.short (id : RunId) : String := String.ofList (id.text.toList.take 8)

/-- An event in one line. -/
def RunEvent.line : RunEvent → StyledText
  | hostResolved hostname true workers =>
    [.icon .info, .plain " Host ", .styled .bold hostname, .plain " (",
      .styled .cyan (toString workers), .plain " workers)"]
  | hostResolved hostname false _ =>
    [.icon .warning, .plain " Host ", .styled .bold hostname,
      .plain " is not registered, using the default configuration"]
  | stepStarted runId step worker =>
    [.icon .rocket, .plain " Starting ", .styled .bold step, .plain " as ", .styled .cyan worker,
      .plain " (", .styled .dim runId.short, .plain ")"]
  | stepSucceeded _ step => [.icon .check, .plain " ", .styled .green step]
  | stepFailed _ step kind error =>
    [.icon .cross, .plain " ", .styled .red step, .plain (" [" ++ kind.displayName ++ "]: "),
      .styled .dim error]

namespace StepOutcome

/-- How a run has ended and as whom it ran. -/
def headline (o : StepOutcome) : StyledText :=
  [.icon (if o.isSuccess then .check else .cross), .plain " ", .styled .bold o.step, .plain " on ",
    .styled .bold o.hostname, .plain " as ", .styled .cyan (o.worker.getD "-"), .plain " - ",
    o.state.label]

/-- An outcome with its error and the time it took, as far as there is any. -/
def report (o : StepOutcome) : StyledText :=
  let error := match o.error? with
    | some error => [.plain "\n  ", .styled .red error]
    | none => []
  let duration := match o.duration? with
    | some duration => [.plain "\n  Duration: ", .styled .dim duration.rough]
    | none => []
  o.headline ++ error ++ duration

end StepOutcome

/-! ## Hosts -/

/-- A worker in one line. -/
def Worker.line (w : Worker) : StyledText :=
  [.plain "    [", .styled .dim w.index, .plain "] ", .styled .cyan w.name] ++
    if w.elevatedInstall then [.styled .dim " (elevated install)"] else []

/-- A copy rule in one line. -/
def CopyRule.line (r : CopyRule) : StyledText :=
  [.plain ("    " ++ r.source ++ " -> " ++ r.destination)]

/-- The segments of a path as one text. -/
def shownRoot (segments : List String) : String := "/".intercalate segments

namespace Host

/-- The name of a host; `known` says whether the host is in the table. -/
def headline (h : Host) (known : Bool) : StyledText :=
  [.icon .info, .plain " ", .styled .bold h.hostname] ++
    if known then [] else [.styled .yellow " (default configuration)"]

/-- The lines about the workers of a host. -/
def workerLines (h : Host) : List StyledText :=
  if h.workers.isEmpty then [[.plain "  Workers: ", .styled .dim "none provisioned"]]
  else [.plain "  Workers:"] :: h.workers.map Worker.line

/-- The lines about the copy rules of a host. -/
def copyLines (h : Host) : List StyledText :=
  match h.copies with
  | some rules => [.plain "  Copies:"] :: rules.map CopyRule.line
  | none => [[.plain "  Copies: ", .styled .dim "none"]]

/-- All about a host, one field on a line. -/
def report (h : Host) (known : Bool) : StyledText :=
  .ofLines (h.headline known :: h.workerLines ++ h.copyLines ++
    [[.plain ("  IP: " ++ h.network.display)],
     [.plain ("  KVM: " ++ h.kvm.display)],
     [.plain ("  Automation root: " ++ (h.automationRoot.map shownRoot).getD "-")],
     [.plain ("  Launch script: " ++ h.launchScriptPath)]])

/-- A host in one line. -/
def summary (h : Host) : StyledText :=
  if h.isUnprovisioned then
    [.plain "  ", .styled .bold h.hostname, .plain " ", .styled .dim "(unprovisioned)"]
  else
    [.plain "  ", .styled .bold h.hostname, .plain " (",
      .styled .cyan (toString h.workers.length), .plain " workers)"]

/-- The workers of a host below its summary. -/
def indentedWorkers (h : Host) : List StyledText :=
  h.workers.map fun w ↦ [.plain "      [", .styled .dim w.index, .plain ("] " ++ w.name)]

end Host

/-- The hosts of a table, and below each its workers if they are wanted. -/
def Registry.listing (r : Registry) (withWorkers : Bool) : StyledText :=
  if r.hosts.size = 0 then [.icon .info, .plain " No hosts registered"]
  else
    .ofLines
      ([.icon .info, .plain " Registered hosts (", .styled .cyan (toString r.hosts.size),
          .plain "):"] ::
        r.hosts.values.flatMap fun h ↦
          h.summary :: if withWorkers then h.indentedWorkers else [])

/-! ## Steps -/

namespace StepKind

/-- A step in one line. -/
def line (k : StepKind) : StyledText :=
  [.plain "  ", .styled .bold k.name, .plain (" - " ++ k.description)]

/-- All steps that can be asked for. -/
def listing : StyledText :=
  .ofLines ([.icon .info, .plain " Available steps:"] :: all.map line)

end StepKind

end BuildFleet
