import BuildFleet.CommandLine.Grammar
import BuildFleet.Device.Adb
import BuildFleet.Path
import BuildFleet.Run

/-!
# The command line of the program

Four commands: running a step, showing one host, listing the hosts and listing the steps. Two
parameters belong to all of them and may stand before or after the command. The build configuration
is not checked here; a run with one that does not exist fails when it is run.
-/

namespace BuildFleet

/-- What is asked for by the command that runs a step. -/
structure RunCommand where
  step : String
  host : String
  worker : Option String
  configuration : String
  serial : Option String
  revision : Option String
  gotRevision : Option String
  validateTimeout : Nat
  installTimeout : Nat
  adb : Option String
  apkDir : String
  apkName : String
  launcherApkName : String
  /-- Whether the outcome is printed as JSON. -/
  json : Bool
  deriving DecidableEq, Repr, Inhabited

namespace RunCommand

/-- The parameters of the run. -/
def toParams (c : RunCommand) : StepParams :=
  ⟨c.configuration, c.serial, c.revision, c.gotRevision, c.worker⟩

/-- The limits of the run. -/
def toLimits (c : RunCommand) : StepLimits :=
  .ofSeconds c.validateTimeout c.installTimeout

/-- The seconds that one adb command may take beyond the larger limit of the run. The limits of the
run are the real ones; this one only keeps a command from running on for ever. -/
def graceSeconds : Nat := 60

/-- How adb is used. -/
def toAdbConfig (c : RunCommand) : AdbConfig where
  adbPath := c.adb
  apkDir := c.apkDir
  apkName := c.apkName
  launcherApkName := c.launcherApkName
  timeoutSeconds := max c.validateTimeout c.installTimeout + graceSeconds

/-- The request that is made. -/
def request (c : RunCommand) : RunRequest := ⟨c.host, c.step, c.toParams⟩

/-- The runner for the request. It has one handler, which prints the events. -/
def runner {σ : Type} (c : RunCommand) (registry : Registry) (t : Timer)
    (sys : ProcessSystem σ) : Runner σ where
  registry := registry
  limits := c.toLimits
  bridge := Adb.bridge t sys c.toAdbConfig
  timer := t
  handlers := 1

end RunCommand

/-- What is asked for by a command line. -/
inductive Command where
  | run (command : RunCommand)
  | host (hostname : String) (json : Bool)
  | hosts (json yaml withWorkers : Bool)
  | steps
  deriving DecidableEq, Repr, Inhabited

/-- A command line. -/
structure Invocation where
  verbose : Bool
  /-- The file of the host table, if one is named. -/
  hosts : Option String
  command : Command
  deriving DecidableEq, Repr, Inhabited

namespace CommandLine

/-! ## Grammars -/

/-- The parameters of all commands. -/
def globalParameters : List Parameter :=
  [{ name := "verbose", letter := some 'v', shape := .flag },
   { name := "hosts", rule := .nonEmptyText, variableName? := some "BUILDHOST_HOSTS" }]

/-- The parameter that asks for help. -/
def helpParameter : Parameter :=
  { name := "help", letter := some 'h', shape := .request .displayHelp }

/-- The parameter that asks for the version. -/
def versionParameter : Parameter :=
  { name := "version", letter := some 'V', shape := .request .displayVersion }

/-- The words that lead on to commands. -/
def commandWords : List String := ["run", "host", "hosts", "steps"]

/-- What may stand in front of the command. -/
def topGrammar : Grammar where
  parameters := globalParameters ++ [helpParameter, versionParameter]
  subcommands := commandWords ++ ["help"]

/-- The grammar of a command with parameters of its own. -/
def commandGrammar (parameters : List Parameter) : Grammar where
  parameters := parameters ++ globalParameters ++ [helpParameter]

/-- The grammar of the command that runs a step. -/
def runGrammar : Grammar := commandGrammar
  [{ name := "step", shape := .positional, required := true },
   { name := "host", rule := .nonEmptyText, variableName? := some "HOSTNAME", required := true },
   { name := "worker", letter := some 'w' },
   { name := "configuration", letter := some 'c', required := true },
   { name := "serial", letter := some 's', variableName? := some "ANDROID_SERIAL" },
   { name := "revision" },
   { name := "got-revision" },
   { name := "validate-timeout", rule := .wholeNumber, default? := some "30" },
   { name := "install-timeout", rule := .wholeNumber, default? := some "600" },
   { name := "adb", variableName? := some "ADB" },
   { name := "apk-dir", rule := .nonEmptyText, default? := some "out" },
   { name := "apk-name", default? := some "app.apk" },
   { name := "launcher-apk-name", default? := some "launcher.apk" },
   { name := "json", shape := .flag }]

/-- The grammar of the command that shows a host. -/
def hostGrammar : Grammar := commandGrammar
  [{ name := "hostname", shape := .positional, rule := .nonEmptyText,
     variableName? := some "HOSTNAME", required := true },
   { name := "json", shape := .flag }]

/-- The grammar of the command that lists the hosts. -/
def hostsGrammar : Grammar := commandGrammar
  [{ name := "json", shape := .flag, conflicts := ["yaml"] },
   { name := "yaml", shape := .flag },
   { name := "with-workers", shape := .flag }]

/-- The grammar of the command that lists the steps. -/
def stepsGrammar : Grammar := commandGrammar []

/-! ## Commands -/

/-- The number found for a name. -/
def Findings.number? (found : Findings) (name : String) : Option Nat :=
  (found.value? name).bind wholeNumber?

/-- The command that runs a step, with the values found; the required ones are there. -/
def runCommand (found : Findings) : RunCommand where
  step := (found.value? "step").getD ""
  host := (found.value? "host").getD ""
  worker := found.value? "worker"
  configuration := (found.value? "configuration").getD ""
  serial := found.value? "serial"
  revision := found.value? "revision"
  gotRevision := found.value? "got-revision"
  validateTimeout := (found.number? "validate-timeout").getD 0
  installTimeout := (found.number? "install-timeout").getD 0
  adb := found.value? "adb"
  apkDir := (found.value? "apk-dir").getD ""
  apkName := (found.value? "apk-name").getD ""
  launcherApkName := (found.value? "launcher-apk-name").getD ""
  json := found.isGiven "json"

/-- Reads the words after the one that names a command. -/
def readSubcommand (env : Environment) (name : String) (ws : List String) :
    Except UsageError (Command × Findings) :=
  if name == "run" then
    (readCommand runGrammar env ws).map fun found ↦ (.run (runCommand found), found)
  else if name == "host" then
    (readCommand hostGrammar env ws).map fun found ↦
      (.host ((found.value? "hostname").getD "") (found.isGiven "json"), found)
  else if name == "hosts" then
    (readCommand hostsGrammar env ws).map fun found ↦
      (.hosts (found.isGiven "json") (found.isGiven "yaml") (found.isGiven "with-workers"), found)
  else if name == "steps" then
    (readCommand stepsGrammar env ws).map fun found ↦ (.steps, found)
  else .error .invalidSubcommand

/-- What asking for help about some commands comes to: one command at most can be named. -/
def helpAbout : List String → UsageError
  | [] => .displayHelp
  | [name] =>
    if topGrammar.subcommands.contains name then .displayHelp else .invalidSubcommand
  | _ => .invalidSubcommand

/-- The command line, with the values found before and after the command's name. -/
def invocation (outer inner : Findings) (command : Command) : Invocation where
  verbose := outer.isGiven "verbose" || inner.isGiven "verbose"
  hosts := (better? (outer.get? "hosts") (inner.get? "hosts")).map (·.value)
  command := command

/-- Reads the words after the program's name. -/
def parse (env : Environment) (args : List String) : Except UsageError Invocation := do
  let (s, sub) ← LineState.words topGrammar { free := [] } args
  match sub with
  | some (name, ws) =>
    if name == "help" then .error (helpAbout ws)
    else
      let (command, inner) ← readSubcommand env name ws
      let outer ← complete topGrammar env s
      .ok (invocation outer inner command)
  | none =>
    let outer ← complete topGrammar env s
    if topGrammar.parameters.any fun p ↦ outer.isGiven p.name then .error .missingSubcommand
    else .error .displayHelpOnMissingArgumentOrSubcommand

/-! ## The user's own table -/

/-- The home directory of the user: the one that the environment names, or else the one of the
account. -/
def homeDirectory? (env : Environment) (accountHome : Option String) : Option String :=
  ((env "HOME").filter (!·.isEmpty)).or accountHome

/-- The file of the user's own host table: below the directory for configurations if that is an
absolute path, and below the home directory otherwise. -/
def userHostsPath? (env : Environment) (accountHome : Option String) : Option String :=
  let directory? := match (env "XDG_CONFIG_HOME").filter Path.isAbsolute with
    | some directory => some directory
    | none => (homeDirectory? env accountHome).map (Path.join · ".config")
  directory?.map fun directory ↦ Path.join (Path.join directory "buildhost") "hosts.yaml"

end CommandLine

end BuildFleet
