import BuildFleet.CommandLine.Basic
import BuildFleet.Proofs.LineReading

/-!
# The line of a run

A run is asked for by a step and up to thirteen options, some of which may come from the environment
instead. Which word gives what is told by the words alone and not by their places, so the choices
can be read off a line in any order: each of them goes into one field of the command, and from there
into one place of the parameters, of the limits or of the use of adb. The step is known by not
starting with a dash, and an option by its name up to the first equals sign, whatever follows.

The table of hosts is an option of all commands, and is looked for in the environment in front of
the command as well, where nothing has been given. A variable with an empty text is refused there,
also if the table is named on the line.

## Names instead of fields

A line knows names, and the command has fields. In between stands `value?`, which gives the value
that is chosen under a name. That the right words have been read is said with names for all options
at once, and only then is each name asked for, so that there is one argument for an option without a
variable and a default, one for an option with a default and one for an option with a variable,
instead of one for each option.

## Numbers

The limits are texts as they stand on the line. A text of decimal digits is read as the number that
it denotes if it is not too large, and it is the larger of the two limits together with a minute
that must not be too large, because adb is given a limit of that length.
-/

namespace BuildFleet.CommandLine

/-! ## Choices

Every word of a line is made from a choice that there is, so all lines that spell some choices are
permutations of one list. Whether choices can be made at all is a matter of single values: some must
not be empty, and the limits have to be numbers. -/

/-- What is chosen for a run: the step, and values for its options. The two limits are texts as they
stand on the line. -/
structure RunOptions where
  step : String
  host : String
  configuration : String
  worker : Option String := none
  serial : Option String := none
  revision : Option String := none
  gotRevision : Option String := none
  validateTimeout : Option String := none
  installTimeout : Option String := none
  adb : Option String := none
  apkDir : Option String := none
  apkName : Option String := none
  launcherApkName : Option String := none
  hosts : Option String := none

namespace RunOptions

/-- The options by their names, with the values that are chosen. -/
def options (o : RunOptions) : List (String × Option String) :=
  [("host", some o.host), ("worker", o.worker), ("configuration", some o.configuration),
    ("serial", o.serial), ("revision", o.revision), ("got-revision", o.gotRevision),
    ("validate-timeout", o.validateTimeout), ("install-timeout", o.installTimeout),
    ("adb", o.adb), ("apk-dir", o.apkDir), ("apk-name", o.apkName),
    ("launcher-apk-name", o.launcherApkName), ("hosts", o.hosts)]

/-- The words that spell the choices, in one of the orders that they can stand in. -/
def words (o : RunOptions) : List String :=
  o.step :: o.options.filterMap fun (name, value?) ↦
    value?.map fun value ↦ "--" ++ name ++ "=" ++ value

/-- A number in decimal. -/
def IsNumeral (t : String) : Prop := t ≠ "" ∧ ∀ c ∈ t.toList, c.isDigit = true

/-- The seconds of a limit. -/
def secondsOr (default : Nat) (t : Option String) : Nat :=
  (t.map fun t ↦ Nat.ofDigitChars 10 t.toList 0).getD default

def validateSeconds (o : RunOptions) : Nat := secondsOr 30 o.validateTimeout

def installSeconds (o : RunOptions) : Nat := secondsOr 600 o.installTimeout

/-- The choices can be made on a line. -/
structure IsProper (o : RunOptions) : Prop where
  step : o.step ≠ "" ∧ o.step.toList.head? ≠ some '-'
  host : o.host ≠ ""
  apkDir : o.apkDir ≠ some ""
  hosts : o.hosts ≠ some ""
  validateTimeout : ∀ t ∈ o.validateTimeout, IsNumeral t
  installTimeout : ∀ t ∈ o.installTimeout, IsNumeral t
  countable : max o.validateSeconds o.installSeconds + 60 < Nat.pow 2 64

/-- What a command that has been read has of the choices; what is left out comes from the
environment or has its usual value. -/
structure IsReadAs (o : RunOptions) (env : Environment) (c : RunCommand) : Prop where
  step : c.step = o.step
  host : c.host = o.host
  json : c.json = false
  params : c.toParams = ⟨o.configuration, o.serial.or (env "ANDROID_SERIAL"), o.revision,
    o.gotRevision, o.worker⟩
  limits : c.toLimits =
    { validate := .ofSeconds o.validateSeconds, install := .ofSeconds o.installSeconds }
  adb : c.toAdbConfig = ⟨o.adb.or (env "ADB"), o.apkDir.getD "out", o.apkName.getD "app.apk",
    o.launcherApkName.getD "launcher.apk", max o.validateSeconds o.installSeconds + 60⟩

def command (o : RunOptions) (env : Environment) : RunCommand where
  step := o.step
  host := o.host
  worker := o.worker
  configuration := o.configuration
  serial := o.serial.or (env "ANDROID_SERIAL")
  revision := o.revision
  gotRevision := o.gotRevision
  validateTimeout := o.validateSeconds
  installTimeout := o.installSeconds
  adb := o.adb.or (env "ADB")
  apkDir := o.apkDir.getD "out"
  apkName := o.apkName.getD "app.apk"
  launcherApkName := o.launcherApkName.getD "launcher.apk"
  json := false

theorem isReadAs_command (o : RunOptions) (env : Environment) : o.IsReadAs env (o.command env) :=
  ⟨rfl, rfl, rfl, rfl, rfl, rfl⟩

theorem or_congr_of_none {v x x' : Option String} (h : v = none → x = x') : v.or x = v.or x' := by
  match v with
  | none => exact h rfl
  | some _ => rfl

theorem command_congr {o : RunOptions} {env env' : Environment}
    (hserial : o.serial = none → env "ANDROID_SERIAL" = env' "ANDROID_SERIAL")
    (hadb : o.adb = none → env "ADB" = env' "ADB") : o.command env = o.command env' := by
  rw [command, command, or_congr_of_none hserial, or_congr_of_none hadb]

/-- The value that is chosen under a name. -/
def value? (o : RunOptions) (name : String) : Option String :=
  ((("step", some o.step) :: o.options).find? (·.1 == name)).bind (·.2)

def given (o : RunOptions) : List Given :=
  runGrammar.parameters.filterMap fun p ↦ (o.value? p.name).map (⟨p, ·⟩)

theorem words_eq (o : RunOptions) :
    o.words = runGrammar.parameters.filterMap fun p ↦ (o.value? p.name).map fun value ↦
      if p.shape = .positional then value else "--" ++ p.name ++ "=" ++ value := by
  rfl

theorem spells_of_value? {o : RunOptions} (h : o.IsProper) {p : Parameter}
    (hp : p ∈ runGrammar.parameters) {value : String} (hvalue : o.value? p.name = some value) :
    runGrammar.Spells ⟨p, value⟩
      (if p.shape = .positional then value else "--" ++ p.name ++ "=" ++ value) := by
  have hkinds : ∀ p ∈ runGrammar.parameters,
      (p.shape = .positional ∧ p.name = "step") ∨
        (p.shape = .option ∧ runGrammar.named? p.name.toList = some p ∧ '=' ∉ p.name.toList) ∨
        p.name = "json" ∨ p.name = "verbose" ∨ p.name = "help" := by decide
  rcases hkinds p hp with ⟨hshape, hname⟩ | ⟨hshape, hnamed, hname⟩ | hname | hname | hname
  · rw [hname] at hvalue
    cases hvalue
    rw [if_pos hshape]
    exact .word hshape h.step.2
  · rw [if_neg (by simp [hshape])]
    exact .option hshape hnamed hname
  all_goals
    rw [hname] at hvalue
    cases hvalue

theorem forall₂_spells {o : RunOptions} (h : o.IsProper) :
    List.Forall₂ runGrammar.Spells o.given o.words := by
  rw [words_eq, given]
  have hall : ∀ p ∈ runGrammar.parameters, ∀ value, o.value? p.name = some value → _ :=
    fun p hp value ↦ spells_of_value? h hp
  generalize runGrammar.parameters = ps at hall ⊢
  induction ps with
  | nil => exact .nil
  | cons p ps ih =>
    obtain ⟨hhead, htail⟩ := List.forall_mem_cons.mp hall
    rw [List.filterMap_cons, List.filterMap_cons]
    match hv : o.value? p.name with
    | none => exact ih htail
    | some value => exact .cons (hhead value hv) (ih htail)

theorem wholeNumber?_of_isNumeral {t : String} (h : IsNumeral t)
    (hlt : Nat.ofDigitChars 10 t.toList 0 < Nat.pow 2 64) :
    wholeNumber? t = some (Nat.ofDigitChars 10 t.toList 0) := by
  have hempty : t.toList.isEmpty = false := by simpa using h.1
  rw [wholeNumber?]
  split
  · rename_i ds hplus
    exact absurd (h.2 '+' (by rw [hplus]; exact List.mem_cons_self)) (by decide)
  · rw [hempty, List.all_eq_true.mpr h.2]
    exact if_pos hlt

theorem wholeNumber?_of_mem {default : Nat} {t : Option String} (h : ∀ v ∈ t, IsNumeral v)
    (hlt : secondsOr default t < Nat.pow 2 64) {v : String} (hv : v ∈ t) :
    wholeNumber? v = some (secondsOr default t) := by
  obtain rfl : t = some v := hv
  exact wholeNumber?_of_isNumeral (h v rfl) hlt

theorem IsProper.validateSeconds_lt {o : RunOptions} (h : o.IsProper) :
    o.validateSeconds < Nat.pow 2 64 :=
  Nat.lt_of_le_of_lt (Nat.le_add_right_of_le (Nat.le_max_left _ _)) h.countable

theorem IsProper.installSeconds_lt {o : RunOptions} (h : o.IsProper) :
    o.installSeconds < Nat.pow 2 64 :=
  Nat.lt_of_le_of_lt (Nat.le_add_right_of_le (Nat.le_max_right _ _)) h.countable

theorem check_of_value? {o : RunOptions} (h : o.IsProper) {p : Parameter}
    (hp : p ∈ runGrammar.parameters) {value : String} (hvalue : o.value? p.name = some value) :
    p.rule.check value = .ok () := by
  have hkinds : ∀ p ∈ runGrammar.parameters, p.rule = .anyText ∨
      (p.rule = .nonEmptyText ∧ (p.name = "host" ∨ p.name = "apk-dir" ∨ p.name = "hosts")) ∨
      (p.rule = .wholeNumber ∧ (p.name = "validate-timeout" ∨ p.name = "install-timeout")) := by
    decide
  rcases hkinds p hp with hrule | ⟨hrule, hname⟩ | ⟨hrule, hname⟩
  · rw [hrule]
    rfl
  · have hne : value ≠ "" := by
      rintro rfl
      rcases hname with hname | hname | hname <;> rw [hname] at hvalue
      · exact h.host (Option.some.inj hvalue)
      · exact h.apkDir hvalue
      · exact h.hosts hvalue
    rw [hrule, ValueRule.check, if_neg (by simpa using hne)]
  · have hnumber : (wholeNumber? value).isSome = true := by
      rcases hname with hname | hname <;> rw [hname] at hvalue
      · rw [wholeNumber?_of_mem h.validateTimeout h.validateSeconds_lt hvalue]
        rfl
      · rw [wholeNumber?_of_mem h.installTimeout h.installSeconds_lt hvalue]
        rfl
    rw [hrule, ValueRule.check, if_pos hnumber]

/-- The words on a line have given what is chosen. -/
def IsOnLine (o : RunOptions) (line : Findings) : Prop :=
  ∀ name, line.get? name = findingFor? runGrammar.parameters .line (fun p ↦ o.value? p.name) name

theorem map_parameter_given (o : RunOptions) :
    o.given.map Given.parameter =
      runGrammar.parameters.filter fun p ↦ (o.value? p.name).isSome := by
  rw [given]
  induction runGrammar.parameters with
  | nil => rfl
  | cons p ps ih =>
    rw [List.filterMap_cons]
    match hv : o.value? p.name with
    | none =>
      rw [List.filter_cons_of_neg (by simp [hv])]
      exact ih
    | some value =>
      rw [List.filter_cons_of_pos (by simp [hv])]
      exact congrArg (p :: ·) ih

theorem nodup_runGrammar : (runGrammar.parameters.map Parameter.name).Nodup := by
  decide

theorem exists_words {o : RunOptions} (h : o.IsProper) {ws : List String}
    (hws : ws.Perm o.words) :
    ∃ s found, LineState.words runGrammar { free := runGrammar.positionals } ws = .ok (s, none) ∧
      s.Holds found [] ∧ o.IsOnLine found := by
  obtain ⟨xs, hxs, hperm⟩ := List.perm_comp_forall₂ hws (forall₂_spells h).flip
  have hnames : (xs.map Given.parameter).Perm
      (runGrammar.parameters.filter fun p ↦ (o.value? p.name).isSome) := by
    rw [← map_parameter_given]
    exact hperm.map _
  have hnodup : ((xs.map Given.parameter).map Parameter.name).Nodup :=
    (hnames.map Parameter.name).nodup_iff.mpr
      (nodup_runGrammar.sublist (List.filter_sublist.map Parameter.name))
  have hfree : (xs.map Given.parameter).filter (·.shape == .positional) =
      runGrammar.positionals := by
    have hone := hnames.filter (·.shape == .positional)
    rw [List.filter_filter] at hone
    exact List.perm_singleton.mp hone
  have hrules : ∀ x ∈ xs, x.parameter.rule.check x.value = .ok () := by
    intro x hx
    obtain ⟨p, hp, hgiven⟩ := List.mem_filterMap.mp (hperm.mem_iff.mp hx)
    obtain ⟨value, hvalue, rfl⟩ := Option.map_eq_some_iff.mp hgiven
    exact check_of_value? h hp hvalue
  have hstart : LineState.Holds { free := runGrammar.positionals } []
      ((xs.map Given.parameter).filter (·.shape == .positional) ++ []) := by
    rw [hfree, List.append_nil]
    exact ⟨rfl, rfl, rfl, rfl⟩
  obtain ⟨s, hs, hholds⟩ := LineState.exists_words (g := runGrammar) rfl hxs.flip hstart
    (by rwa [List.map_nil, List.append_nil]) hrules
  refine ⟨s, _, hs, hholds, fun name ↦ ?_⟩
  have hfound : o.given.map Given.found = runGrammar.parameters.filterMap fun p ↦
      (o.value? p.name).map (⟨p.name, .line, ·⟩) := by
    rw [given, List.map_filterMap]
    simp only [Option.map_map]
    rfl
  rw [List.append_nil, ← get?_filterMap nodup_runGrammar, ← hfound]
  refine Findings.get?_of_perm ((List.reverse_perm _).trans (hperm.map _)) ?_ name
  rw [List.map_reverse, List.nodup_reverse, List.map_map]
  rwa [List.map_map] at hnodup

theorem number_or_default {usual : Nat} {text : String} (htext : wholeNumber? text = some usual)
    {t : Option String} (h : ∀ v ∈ t, IsNumeral v) (hlt : secondsOr usual t < Nat.pow 2 64) :
    wholeNumber? (t.getD text) = some (secondsOr usual t) := by
  match t with
  | none => exact htext
  | some v => exact wholeNumber?_of_mem h hlt rfl

/-- What is found on the line of a run when it has been completed. -/
structure IsFoundAs (o : RunOptions) (env : Environment) (found : Findings) : Prop where
  get? : ∀ name, found.get? name =
    ((findingFor? runGrammar.parameters .line (fun p ↦ o.value? p.name) name).or
      (findingFor? runGrammar.parameters .environment (fun p ↦ p.variableName?.bind env) name)).or
        (findingFor? runGrammar.parameters .default Parameter.default? name)

namespace IsFoundAs

variable {o : RunOptions} {env : Environment} {found : Findings}

theorem value? (h : o.IsFoundAs env found) (name : String) : found.value? name =
    ((valueFor? runGrammar.parameters (fun p ↦ o.value? p.name) name).or
      (valueFor? runGrammar.parameters (fun p ↦ p.variableName?.bind env) name)).or
        (valueFor? runGrammar.parameters Parameter.default? name) := by
  rw [Findings.value?, h.get?, findingFor?, findingFor?, findingFor?]
  rcases valueFor? runGrammar.parameters (fun p ↦ o.value? p.name) name with _ | _
  · rcases valueFor? runGrammar.parameters (fun p ↦ p.variableName?.bind env) name with _ | _
    · rcases valueFor? runGrammar.parameters Parameter.default? name with _ | _ <;> rfl
    · rfl
  · rfl

theorem value?_of_plain (h : o.IsFoundAs env found) {name : String} {v : Option String}
    (hline : valueFor? runGrammar.parameters (fun p ↦ o.value? p.name) name = v)
    (henv : valueFor? runGrammar.parameters (fun p ↦ p.variableName?.bind env) name = none)
    (hdefault : valueFor? runGrammar.parameters Parameter.default? name = none) :
    found.value? name = v := by
  rw [h.value?, hline, henv, hdefault, Option.or_none, Option.or_none]

theorem value?_of_default (h : o.IsFoundAs env found) {name : String} {v : Option String}
    {usual : String} (hline : valueFor? runGrammar.parameters (fun p ↦ o.value? p.name) name = v)
    (henv : valueFor? runGrammar.parameters (fun p ↦ p.variableName?.bind env) name = none)
    (hdefault : valueFor? runGrammar.parameters Parameter.default? name = some usual) :
    found.value? name = some (v.getD usual) := by
  rw [h.value?, hline, henv, hdefault, Option.or_none, Option.or_some]

/-- An option with a variable and without a default has the value that is chosen for it, or else
the value of the variable. -/
theorem value?_of_variable (h : o.IsFoundAs env found) {name key : String} {v : Option String}
    (hline : valueFor? runGrammar.parameters (fun p ↦ o.value? p.name) name = v)
    (henv : valueFor? runGrammar.parameters (fun p ↦ p.variableName?.bind env) name = env key)
    (hdefault : valueFor? runGrammar.parameters Parameter.default? name = none) :
    found.value? name = v.or (env key) := by
  rw [h.value?, hline, henv, hdefault, Option.or_none]

theorem runCommand_eq (h : o.IsFoundAs env found) (ho : o.IsProper) :
    runCommand found = o.command env := by
  have hstep : found.value? "step" = some o.step := h.value?_of_plain rfl rfl rfl
  have hhost : found.value? "host" = some o.host := h.value? "host"
  have hworker : found.value? "worker" = o.worker := h.value?_of_plain rfl rfl rfl
  have hconfiguration : found.value? "configuration" = some o.configuration :=
    h.value?_of_plain rfl rfl rfl
  have hserial : found.value? "serial" = o.serial.or (env "ANDROID_SERIAL") :=
    h.value?_of_variable rfl rfl rfl
  have hrevision : found.value? "revision" = o.revision := h.value?_of_plain rfl rfl rfl
  have hgotRevision : found.value? "got-revision" = o.gotRevision := h.value?_of_plain rfl rfl rfl
  have hvalidate : found.number? "validate-timeout" = some o.validateSeconds := by
    have htext : found.value? "validate-timeout" = some (o.validateTimeout.getD "30") :=
      h.value?_of_default rfl rfl rfl
    rw [Findings.number?, htext]
    exact number_or_default (by decide) ho.validateTimeout ho.validateSeconds_lt
  have hinstall : found.number? "install-timeout" = some o.installSeconds := by
    have htext : found.value? "install-timeout" = some (o.installTimeout.getD "600") :=
      h.value?_of_default rfl rfl rfl
    rw [Findings.number?, htext]
    exact number_or_default (by decide) ho.installTimeout ho.installSeconds_lt
  have hadb : found.value? "adb" = o.adb.or (env "ADB") := h.value?_of_variable rfl rfl rfl
  have hapkDir : found.value? "apk-dir" = some (o.apkDir.getD "out") :=
    h.value?_of_default rfl rfl rfl
  have hapkName : found.value? "apk-name" = some (o.apkName.getD "app.apk") :=
    h.value?_of_default rfl rfl rfl
  have hlauncher : found.value? "launcher-apk-name" =
      some (o.launcherApkName.getD "launcher.apk") := h.value?_of_default rfl rfl rfl
  have hjson : found.isGiven "json" = false := by
    rw [Findings.isGiven, h.get?]
    rfl
  rw [runCommand, hstep, hhost, hworker, hconfiguration, hserial, hrevision, hgotRevision,
    hvalidate, hinstall, hadb, hapkDir, hapkName, hlauncher, hjson]
  rfl

end IsFoundAs

/-- A variable that is needed for a run may have any value, except the one that names a table. -/
theorem check_of_variable {o : RunOptions} {line : Findings} (hline : o.IsOnLine line)
    {p : Parameter} (hp : p ∈ runGrammar.parameters) (hnone : line.get? p.name = none)
    {env : Environment} {v : String} (hv : p.variableName?.bind env = some v) :
    p.rule.check v = .ok () ∨
      (p.rule = .nonEmptyText ∧ p.variableName? = some "BUILDHOST_HOSTS" ∧ o.hosts = none) := by
  have hkinds : ∀ p ∈ runGrammar.parameters, p.rule = .anyText ∨ p.variableName? = none ∨
      p.name = "host" ∨ (p.rule = .nonEmptyText ∧ p.variableName? = some "BUILDHOST_HOSTS" ∧
        p.name = "hosts") := by decide
  rcases hkinds p hp with hrule | hkey | hname | ⟨hrule, hkey, hname⟩
  · rw [hrule]
    exact .inl rfl
  · rw [hkey] at hv
    cases hv
  · rw [hname, hline] at hnone
    cases hnone
  · rw [hname, hline] at hnone
    exact .inr ⟨hrule, hkey, Option.map_eq_none_iff.mp hnone⟩

/-- The words of a run are read, in any order, unless a table is needed from the environment and
named by an empty text. -/
theorem exists_readCommand {o : RunOptions} (h : o.IsProper) {ws : List String}
    (hws : ws.Perm o.words) {env : Environment}
    (henv : o.hosts = none → env "BUILDHOST_HOSTS" ≠ some "") :
    ∃ found, readCommand runGrammar env ws = .ok found ∧ o.IsFoundAs env found := by
  obtain ⟨s, line, hwords, hs, hline⟩ := exists_words h hws
  have hrules : ∀ p ∈ runGrammar.parameters, line.get? p.name = none →
      ∀ v ∈ p.variableName?.bind env, p.rule.check v = .ok () := by
    intro p hp hnone v hv
    rcases check_of_variable hline hp hnone hv with hrule | ⟨hrule, hkey, hhosts⟩
    · exact hrule
    · rw [hkey] at hv
      have hne : v ≠ "" := by
        rintro rfl
        exact henv hhosts hv
      rw [hrule, ValueRule.check, if_neg (by simpa using hne)]
  obtain ⟨found, hcomplete, hget⟩ := hs.exists_complete env nodup_runGrammar hrules
  have hfound : o.IsFoundAs env found := ⟨fun name ↦ by rw [hget, hline]⟩
  have hconflict : hasConflict runGrammar found = false := by
    simp [hasConflict, runGrammar, commandGrammar, globalParameters, helpParameter]
  have hgiven : ∀ name ∈ ["step", "host", "configuration"], found.isGiven name = true := by
    intro name hname
    rw [Findings.isGiven, hfound.get?]
    simp only [List.mem_cons, List.not_mem_nil, or_false] at hname
    rcases hname with rfl | rfl | rfl <;> rfl
  have hrequired : lacksRequired runGrammar found = false := by
    have hnames : ∀ p ∈ runGrammar.parameters, p.required = true →
        p.name ∈ ["step", "host", "configuration"] := by decide
    rw [lacksRequired, List.any_eq_false]
    intro p hp hlacks
    rw [Bool.and_eq_true] at hlacks
    rw [hgiven p.name (hnames p hp hlacks.1)] at hlacks
    exact Bool.false_ne_true hlacks.2
  refine ⟨found, ?_, hfound⟩
  rw [readCommand, hwords]
  simp only [bind, Except.bind, hcomplete, hconflict, hrequired]
  rfl

/-- If no table is chosen, the empty text is looked at and refused. -/
theorem readCommand_of_empty_variable {o : RunOptions} (h : o.IsProper) {ws : List String}
    (hws : ws.Perm o.words) {env : Environment} (henv : env "BUILDHOST_HOSTS" = some "")
    (hhosts : o.hosts = none) : readCommand runGrammar env ws = .error .invalidValue := by
  obtain ⟨s, line, hwords, hs, hline⟩ := exists_words h hws
  have hparameters : runGrammar.parameters = runGrammar.parameters.take 15 ++
      { name := "hosts", rule := .nonEmptyText, variableName? := some "BUILDHOST_HOSTS" } ::
        [helpParameter] := rfl
  have hcomplete : complete runGrammar env s = .error .invalidValue := by
    refine hs.complete_of_broken hparameters nodup_runGrammar ?_ ?_ henv rfl
    · intro q hq hnone v hv
      have hkey : ∀ q ∈ runGrammar.parameters.take 15,
          q.variableName? ≠ some "BUILDHOST_HOSTS" := by decide
      have hrule := check_of_variable hline (List.mem_of_mem_take hq) hnone hv
      exact hrule.resolve_right fun htable ↦ hkey q hq htable.2.1
    · rw [hline]
      change o.hosts.map _ = none
      rw [hhosts]
      rfl
  rw [readCommand, hwords]
  simp only [bind, Except.bind, hcomplete]

/-! ## Lines

The word for the command ends what is read in front of it. There the environment is asked for the
table, and here the two ways to name the table meet: a variable with an empty text is refused in
front of the command, whatever is said behind it. -/

/-- In front of the command there is nothing, so all that is found there is what the environment
says of the table. -/
theorem exists_complete_topGrammar {env : Environment} (henv : env "BUILDHOST_HOSTS" ≠ some "") :
    ∃ found, complete topGrammar env { free := [] } = .ok found ∧
      found.isGiven "verbose" = false ∧
      found.get? "hosts" = (env "BUILDHOST_HOSTS").map (⟨"hosts", .environment, ·⟩) := by
  have hstart : LineState.Holds { free := [] } [] [] := ⟨rfl, rfl, rfl, rfl⟩
  have hrules : ∀ p ∈ topGrammar.parameters, Findings.get? [] p.name = none →
      ∀ v ∈ p.variableName?.bind env, p.rule.check v = .ok () := by
    intro p hp _ v hv
    have hkinds : ∀ p ∈ topGrammar.parameters, p.variableName? = none ∨
        (p.rule = .nonEmptyText ∧ p.variableName? = some "BUILDHOST_HOSTS") := by decide
    rcases hkinds p hp with hkey | ⟨hrule, hkey⟩ <;> rw [hkey] at hv
    · cases hv
    · have hne : v ≠ "" := by
        rintro rfl
        exact henv hv
      rw [hrule, ValueRule.check, if_neg (by simpa using hne)]
  obtain ⟨found, hfound, hget⟩ := hstart.exists_complete env (by decide) hrules
  refine ⟨found, hfound, ?_, ?_⟩
  · rw [Findings.isGiven, hget]
    rfl
  · rw [hget]
    change ((none.or ((env "BUILDHOST_HOSTS").map _)).or none) = _
    rw [Option.none_or, Option.or_none]

theorem complete_topGrammar_of_empty_variable {env : Environment}
    (henv : env "BUILDHOST_HOSTS" = some "") :
    complete topGrammar env { free := [] } = .error .invalidValue := by
  have hstart : LineState.Holds { free := [] } [] [] := ⟨rfl, rfl, rfl, rfl⟩
  have hparameters : topGrammar.parameters = topGrammar.parameters.take 1 ++
      { name := "hosts", rule := .nonEmptyText, variableName? := some "BUILDHOST_HOSTS" } ::
        [helpParameter, versionParameter] := rfl
  refine hstart.complete_of_broken hparameters (by decide) ?_ rfl henv rfl
  intro q hq _ v hv
  have hkey : ∀ q ∈ topGrammar.parameters.take 1, q.variableName? = none := by decide
  rw [hkey q hq] at hv
  cases hv

theorem parse_run_eq (env : Environment) (ws : List String) :
    parse env ("run" :: ws) = (readCommand runGrammar env ws).bind fun inner ↦
      (complete topGrammar env { free := [] }).map fun outer ↦
        invocation outer inner (.run (runCommand inner)) := by
  have hwords : LineState.words topGrammar { free := [] } ("run" :: ws) =
      .ok ({ free := [] }, some ("run", ws)) := rfl
  have hread : readSubcommand env "run" ws =
      (readCommand runGrammar env ws).map fun found ↦ (.run (runCommand found), found) := rfl
  rw [parse, hwords]
  change (readSubcommand env "run" ws).bind _ = _
  rw [hread]
  match readCommand runGrammar env ws with
  | .error e => rfl
  | .ok inner =>
    change (complete topGrammar env { free := [] }).bind _ =
      (complete topGrammar env { free := [] }).map _
    match complete topGrammar env { free := [] } with
    | .error e => rfl
    | .ok outer => rfl

theorem parse_run_eq_ok {o : RunOptions} (h : o.IsProper) {ws : List String}
    (hws : ws.Perm o.words) {env : Environment} (henv : env "BUILDHOST_HOSTS" ≠ some "") :
    parse env ("run" :: ws) =
      .ok ⟨false, o.hosts.or (env "BUILDHOST_HOSTS"), .run (o.command env)⟩ := by
  obtain ⟨inner, hinner, hfound⟩ := exists_readCommand h hws fun _ ↦ henv
  obtain ⟨outer, houter, hverbose, hhosts⟩ := exists_complete_topGrammar henv
  have hverbose' : inner.isGiven "verbose" = false := by
    rw [Findings.isGiven, hfound.get?]
    rfl
  have hhosts' : inner.get? "hosts" = (o.hosts.map (⟨"hosts", .line, ·⟩)).or
      ((env "BUILDHOST_HOSTS").map (⟨"hosts", .environment, ·⟩)) :=
    (hfound.get? "hosts").trans Option.or_none
  rw [parse_run_eq, hinner, houter, Except.bind, Except.map, invocation, hverbose, hverbose',
    hhosts, hhosts', hfound.runCommand_eq h]
  match o.hosts, env "BUILDHOST_HOSTS" with
  | none, none | none, some _ | some _, none | some _, some _ => rfl

theorem parse_run_of_empty_variable {o : RunOptions} (h : o.IsProper) {ws : List String}
    (hws : ws.Perm o.words) {env : Environment} (henv : env "BUILDHOST_HOSTS" = some "") :
    parse env ("run" :: ws) = .error .invalidValue := by
  rw [parse_run_eq, complete_topGrammar_of_empty_variable henv]
  by_cases hhosts : o.hosts = none
  · rw [readCommand_of_empty_variable h hws henv hhosts]
    rfl
  · obtain ⟨inner, hinner, -⟩ := exists_readCommand h hws fun hnone ↦ absurd hnone hhosts
    rw [hinner]
    rfl

/-- A line that spells choices for a run is read as these choices, whatever the order of its words,
and an option that is given does not depend on its variable. One environment is refused with every
line: the one that names a table by an empty text. -/
theorem parse_run (o : RunOptions) (h : o.IsProper) (ws : List String) (hws : ws.Perm o.words)
    (env : Environment) :
    (env "BUILDHOST_HOSTS" ≠ some "" → ∃ c,
        parse env ("run" :: ws) = .ok ⟨false, o.hosts.or (env "BUILDHOST_HOSTS"), .run c⟩ ∧
          o.IsReadAs env c) ∧
      (env "BUILDHOST_HOSTS" = some "" → parse env ("run" :: ws) = .error .invalidValue) ∧
      ∀ env' : Environment, env "BUILDHOST_HOSTS" ≠ some "" → env' "BUILDHOST_HOSTS" ≠ some "" →
        (o.serial = none → env "ANDROID_SERIAL" = env' "ANDROID_SERIAL") →
        (o.adb = none → env "ADB" = env' "ADB") →
        (o.hosts = none → env "BUILDHOST_HOSTS" = env' "BUILDHOST_HOSTS") →
        parse env ("run" :: ws) = parse env' ("run" :: ws) := by
  refine ⟨?_, parse_run_of_empty_variable h hws, ?_⟩
  · intro henv
    exact ⟨o.command env, parse_run_eq_ok h hws henv, o.isReadAs_command env⟩
  · intro env' henv henv' hserial hadb hhosts
    rw [parse_run_eq_ok h hws henv, parse_run_eq_ok h hws henv', command_congr hserial hadb,
      or_congr_of_none hhosts]

/-! ### A line with every option -/

/-- A value for every option, with signs of a command line in some of them. -/
def everyOption : RunOptions where
  step := "android_install"
  host := "h"
  configuration := "--host=x"
  worker := some ""
  serial := some "-s"
  revision := some "a=b"
  gotRevision := some "android_install"
  validateTimeout := some "007"
  installTimeout := some "20"
  adb := some "bin/adb"
  apkDir := some "--"
  apkName := some "=a.apk"
  launcherApkName := some "b.apk"
  hosts := some "table.yaml"

/-- A line that spells these values, with the step in between. -/
def mixedLine : List String :=
  ["--hosts=table.yaml", "--got-revision=android_install", "--worker=", "--configuration=--host=x",
    "--install-timeout=20", "android_install", "--apk-dir=--", "--host=h", "--revision=a=b",
    "--adb=bin/adb", "--validate-timeout=007", "--launcher-apk-name=b.apk", "--serial=-s",
    "--apk-name==a.apk"]

theorem isProper_everyOption : everyOption.IsProper where
  step := by decide
  host := by decide
  apkDir := by decide
  hosts := by decide
  validateTimeout := by
    rintro _ ⟨⟩
    exact ⟨by decide, List.all_eq_true.mp rfl⟩
  installTimeout := by
    rintro _ ⟨⟩
    exact ⟨by decide, List.all_eq_true.mp rfl⟩
  countable := by decide

theorem parse_run_of_mixed_line :
    everyOption.IsProper ∧ mixedLine.Perm everyOption.words ∧
      (∃ c, parse (fun _ ↦ some "other") ("run" :: mixedLine) =
          .ok ⟨false, some "table.yaml", .run c⟩ ∧
        everyOption.IsReadAs (fun _ ↦ some "other") c) ∧
      parse (fun _ ↦ some "other") ("run" :: mixedLine) =
        parse (fun _ ↦ none) ("run" :: mixedLine) := by
  have hperm : mixedLine.Perm everyOption.words := by decide
  have hread := parse_run everyOption isProper_everyOption mixedLine hperm fun _ ↦ some "other"
  have hother : (some "other" : Option String) ≠ some "" := by decide
  refine ⟨isProper_everyOption, hperm, hread.1 hother, ?_⟩
  refine hread.2.2 (fun _ ↦ none) hother (by decide) ?_ ?_ ?_
  all_goals
    intro hnone
    cases hnone

/-- In an environment that names a table by an empty text, that line is refused, although the table
is given on it. -/
theorem not_parse_run_in_every_environment :
    parse (fun name ↦ if name = "BUILDHOST_HOSTS" then some "" else none) ("run" :: mixedLine) =
        .error .invalidValue ∧
      ¬ ∀ env env' : Environment,
        parse env ("run" :: mixedLine) = parse env' ("run" :: mixedLine) := by
  have hrefused : parse (fun name ↦ if name = "BUILDHOST_HOSTS" then some "" else none)
      ("run" :: mixedLine) = .error .invalidValue := by decide
  refine ⟨hrefused, fun hsame ↦ ?_⟩
  have hother : parse (fun _ ↦ none) ("run" :: mixedLine) ≠ .error .invalidValue := by decide
  exact hother ((hsame _ _).trans hrefused)

end RunOptions

end BuildFleet.CommandLine
