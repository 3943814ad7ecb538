import BuildFleet.CommandLine.Basic
import BuildFleet.Report
import BuildFleet.Table.Builtin
import BuildFleet.Table.File

/-!
# The program

What the program prints and the status that it ends with, given the machine it runs on. The host
table is loaded first, whatever the command is: a command that does not need it fails all the same
when the table is faulty. The table is the one that the command line names, else the user's own if
there is one, else the built-in one.
-/

namespace BuildFleet

/-- The machine that the program runs on. -/
structure Machine (σ : Type) where
  /-- The environment variables. -/
  environment : CommandLine.Environment
  /-- The home directory of the account, if there is one. -/
  accountHome : Option String
  currentDirectory : String
  /-- The content of a file. -/
  read : (path : String) → Except FileError (List UInt8)
  /-- The system that starts adb. -/
  processes : ProcessSystem σ
  timer : Timer

/-- What the program leaves behind. -/
structure ProgramResult where
  exitCode : Nat
  stdout : String := ""
  /-- What is printed on errors, without the lines of the log. -/
  stderr : String := ""
  deriving DecidableEq, Repr, Inhabited

namespace Program

open CommandLine (Environment UsageError)

variable {σ : Type}

/-- The name and the version of the program. -/
def version : String := "buildhost 0.1.0"

/-- The environment variables that the program looks at. -/
def environmentNames : List String :=
  ["BUILDHOST_HOSTS", "HOSTNAME", "ANDROID_SERIAL", "ADB", "XDG_CONFIG_HOME", "HOME", "LANG",
    "CLICOLOR_FORCE"]

/-- How the program shows styled text when it does not print to a terminal: colours have to be
forced, and pictures need a language in UTF-8. -/
def look (env : Environment) : Look where
  colors := (env "CLICOLOR_FORCE").any (· != "0")
  pictures := (env "LANG").any fun lang ↦
    "UTF-8".toList.isSuffixOf (lang.toList.map Char.toUpper)

/-! ## Errors -/

/-- The text of a cause: its first line after a number or blanks, and the others below it. -/
def causeText (number : Option Nat) (cause : String) : String :=
  let start := match number with
    | some n => "    " ++ toString n ++ ": "
    | none => "    "
  let indent := match number with
    | some _ => "       "
    | none => "    "
  start ++ String.ofList (cause.toList.flatMap fun c ↦
    if c == '\n' then c :: indent.toList else [c])

/-- The text of an error and its causes, which are numbered if there are several. -/
def errorText (error : String) (causes : List String) : String :=
  let lines := match causes with
    | [] => []
    | [cause] => [causeText none cause]
    | causes => causes.mapIdx fun i cause ↦ causeText (some i) cause
  let listed := if lines.isEmpty then "" else "\n\nCaused by:\n" ++ "\n".intercalate lines
  "Error: " ++ error ++ listed ++ "\n"

/-- The result of a program that could not load the host table. -/
def failure (attempt : String) (e : TableFileError) : ProgramResult where
  exitCode := 1
  stderr := errorText attempt e.chain

/-- The result of a command line that is not understood, or that asks for something else. The text
of help pages and of usage errors is left to the caller. -/
def usage (e : UsageError) : ProgramResult where
  exitCode := e.exitCode
  stdout := if e = .displayVersion then version ++ "\n" else ""

/-! ## The host table -/

/-- The user's own table, if there is such a file. -/
def userTable? (m : Machine σ) : Option String :=
  (CommandLine.userHostsPath? m.environment m.accountHome).filter fun path ↦
    match m.read path with
    | .ok _ => true
    | .error e => !e.meansNoFile

/-- The host table, or the result of the program when it cannot be loaded. -/
def loadTable (m : Machine σ) (named : Option String) : Except ProgramResult HostTable :=
  match named with
  | some path =>
    (HostTable.ofFile path (m.read path)).mapError (failure "Failed to load host table")
  | none =>
    match userTable? m with
    | some path =>
      (HostTable.ofFile path (m.read path)).mapError (failure "Failed to load per-user host table")
    | none => .ok .builtin

/-! ## Commands -/

/-- The result of a command that prints a text. -/
def printed (text : String) : ProgramResult where
  exitCode := 0
  stdout := text

/-- Runs a step and prints the outcome. -/
def runStep (m : Machine σ) (r : Registry) (c : RunCommand) (runId : RunId) (now : Instant)
    (world : σ) : ProgramResult × σ :=
  let report := (c.runner r m.timer m.processes).run c.request runId now world
  let text :=
    if c.json then report.outcome.toDatum.toJson.pretty ++ "\n"
    else "\n" ++ report.outcome.report.render (look m.environment) ++ "\n"
  (⟨report.outcome.exitCode, text, ""⟩, report.world)

/-- Shows one host. -/
def showHost (look : Look) (r : Registry) (hostname : String) (json : Bool) : String :=
  let host := r.resolve hostname
  if json then host.toDatum.toJson.pretty ++ "\n"
  else (host.report (r.isKnown hostname)).render look ++ "\n"

/-- Lists the hosts of the table. -/
def listHosts (look : Look) (r : Registry) (json yaml withWorkers : Bool) : String :=
  if json then r.toJson ++ "\n"
  else if yaml then r.toYaml
  else (r.listing withWorkers).render look ++ "\n"

/-- Carries out a command. -/
def perform (m : Machine σ) (r : Registry) (c : Command) (runId : RunId) (now : Instant)
    (world : σ) : ProgramResult × σ :=
  let look := look m.environment
  match c with
  | .run c => runStep m r c runId now world
  | .host hostname json => (printed (showHost look r hostname json), world)
  | .hosts json yaml withWorkers => (printed (listHosts look r json yaml withWorkers), world)
  | .steps => (printed (StepKind.listing.render look ++ "\n"), world)

/-- Runs the program with the words after its name; `runId` and `now` are for a run that may come of
it. -/
def run (m : Machine σ) (args : List String) (runId : RunId) (now : Instant) (world : σ) :
    ProgramResult × σ :=
  match CommandLine.parse m.environment args with
  | .error e => (usage e, world)
  | .ok invocation =>
    match loadTable m invocation.hosts with
    | .error result => (result, world)
    | .ok table =>
      perform m (.ofTable table m.currentDirectory) invocation.command runId now world

/-- The files that the program may read. -/
def candidates (env : Environment) (accountHome : Option String) (args : List String) :
    List String :=
  match CommandLine.parse env args with
  | .error _ => []
  | .ok invocation =>
    match invocation.hosts with
    | some path => [path]
    | none => (CommandLine.userHostsPath? env accountHome).toList

end Program

end BuildFleet
