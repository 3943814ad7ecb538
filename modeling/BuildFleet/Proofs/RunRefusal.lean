import BuildFleet.Proofs.RunCourse
import BuildFleet.Proofs.WorkerSelection

/-!
# Requests that are refused

A request can be wrong in six ways, and in several of them at once. The first of these that there
is, in a fixed order, makes the failure; which ones there are depends on the request and the
registry alone. The checks are spread over the run, so that four of them are made before there is a
worker and the last one not before the step has started, but none is made after a device has been
asked for anything. So what a refused run comes to is laid down by a function that has no device to
look at.

## The order

Each place where a run can be left knows which checks have been passed before it, and this is all
that is needed for its defect to be the first. The order is therefore that of the places, and a
defect is never looked for by itself. `Passed` counts the places, and one lemma for each check takes
it one further.

## Failures that are no refusals

A step that has begun can fail in many ways, of which one alone is a defect of the request: the name
of a configuration that there is not. The kind of the failure tells it from the others, since no
answer of a device makes a step fail for its configuration. This is what gives the converse, that a
run which fails for one of the six reasons has been refused.
-/

namespace BuildFleet

variable {σ : Type}

/-! ## Defects -/

/-- What can be wrong with a request. -/
inductive RunDefect where
  | blankHostname
  | unknownStep
  | emptyHost
  | unknownWorker
  | noDevice
  | unknownConfiguration
  deriving DecidableEq

namespace RunDefect

/-- The place of a defect in the order in which they count. -/
def position : RunDefect → Nat
  | blankHostname => 0
  | unknownStep => 1
  | emptyHost => 2
  | unknownWorker => 3
  | noDevice => 4
  | unknownConfiguration => 5

/-- Whether a request has a defect, on the hosts of a registry. -/
def Affects (registry : Registry) (r : RunRequest) : RunDefect → Prop
  | blankHostname => Text.trim r.hostname = ""
  | unknownStep => ∀ kind ∈ StepKind.all, kind.name ≠ r.step
  | emptyHost => (registry.resolve r.hostname).workers = []
  | unknownWorker =>
    ∃ selector, r.params.worker = some selector ∧ (registry.resolve r.hostname).Lacks selector
  | noDevice => r.params.deviceSerial = none ∨ r.params.deviceSerial = some ""
  | unknownConfiguration => r.params.configuration ≠ "Release" ∧ r.params.configuration ≠ "Debug"

def detail (r : RunRequest) : RunDefect → String
  | blankHostname => "hostname must not be empty"
  | unknownStep => "unknown step '" ++ r.step ++ "'"
  | emptyHost => "host '" ++ r.hostname ++ "' has no provisioned workers"
  | unknownWorker =>
    "host '" ++ r.hostname ++ "' has no worker named or indexed '" ++ r.params.worker.getD "" ++ "'"
  | noDevice => "no target device serial given"
  | unknownConfiguration =>
    "unrecognized build configuration '" ++ r.params.configuration ++
      "' (expected Release or Debug)"

theorem detail_unknownWorker {r : RunRequest} {selector : String}
    (h : r.params.worker = some selector) :
    unknownWorker.detail r =
      "host '" ++ r.hostname ++ "' has no worker named or indexed '" ++ selector ++ "'" := by
  change "host '" ++ r.hostname ++ "' has no worker named or indexed '" ++
    r.params.worker.getD "" ++ "'" = _
  rw [h, Option.getD_some]

def hasWorker : RunDefect → Bool
  | noDevice | unknownConfiguration => true
  | _ => false

/-- The outcome of a request with a defect. -/
def outcome (registry : Registry) (r : RunRequest) (runId : RunId) (now : Instant)
    (d : RunDefect) : StepOutcome where
  runId := runId
  step := r.step
  hostname := r.hostname
  worker :=
    if d.hasWorker then
      ((registry.resolve r.hostname).selectWorker r.params.worker).toOption.map Worker.name
    else none
  state := .ofFailure (.configuration (d.detail r)) now
  transitions := [⟨"Created", "Failed", now⟩]

/-- A request has none of the defects in front of a place. -/
def Passed (registry : Registry) (r : RunRequest) (place : Nat) : Prop :=
  ∀ d : RunDefect, d.position < place → ¬ d.Affects registry r

/-- A request has a defect, and none that counts before it. -/
structure IsFirst (registry : Registry) (r : RunRequest) (d : RunDefect) : Prop where
  affects : d.Affects registry r
  passed : Passed registry r d.position

variable {registry : Registry} {r : RunRequest}

theorem position_inj {d d' : RunDefect} (h : d.position = d'.position) : d = d' := by
  cases d <;> cases d' <;> first | rfl | cases h

theorem Passed.zero : Passed registry r 0 := fun _ h ↦ absurd h (Nat.not_lt_zero _)

theorem Passed.succ {d : RunDefect} (h : Passed registry r d.position)
    (hd : ¬ d.Affects registry r) : Passed registry r (d.position + 1) := by
  intro d' hlt
  rcases Nat.lt_succ_iff_lt_or_eq.mp hlt with hbefore | heq
  · exact h d' hbefore
  · rw [position_inj heq]
    exact hd

theorem Passed.not_affects (h : Passed registry r 6) (d : RunDefect) : ¬ d.Affects registry r :=
  h d (by cases d <;> decide)

theorem IsFirst.unique {d d' : RunDefect} (h : d.IsFirst registry r) (h' : d'.IsFirst registry r) :
    d = d' := by
  rcases Nat.lt_trichotomy d.position d'.position with hlt | heq | hlt
  · exact absurd h.affects (h'.passed d hlt)
  · exact position_inj heq
  · exact absurd h'.affects (h.passed d' hlt)

/-! ### Checks and defects

A check of the run and a defect of the request are said in different words. The check looks at what
has been computed so far, and the defect is a property of the request and of the hosts in the
registry, so that it can be told by someone who has never seen the run. -/

theorem affects_blankHostname_iff :
    blankHostname.Affects registry r ↔ Text.allBlank r.hostname = true :=
  Text.trim_eq_empty_iff

theorem not_affects_unknownStep {kind : StepKind} (h : kind.name = r.step) :
    ¬ unknownStep.Affects registry r := by
  intro hunknown
  cases kind with
  | androidInstall => exact hunknown .androidInstall List.mem_cons_self h

theorem affects_unknownStep {f : Failure} (h : StepKind.parse r.step = .error f) :
    unknownStep.Affects registry r ∧ f = .configuration (unknownStep.detail r) := by
  constructor
  · intro kind _ hname
    rw [← hname, StepKind.parse_name] at h
    cases h
  · rw [StepKind.parse] at h
    split at h
    · cases h
    · cases h
      rfl

theorem not_affects_of_selectWorker {worker : Worker}
    (h : (registry.resolve r.hostname).selectWorker r.params.worker = .ok worker) :
    ¬ emptyHost.Affects registry r ∧ ¬ unknownWorker.Affects registry r := by
  have hpicks := Host.selects_of_selectWorker h
  constructor
  · intro hempty
    have hmember := hpicks.mem
    rw [show (registry.resolve r.hostname).workers = [] from hempty] at hmember
    cases hmember
  · rintro ⟨selector, hselector, hlacks⟩
    rw [hselector] at hpicks
    rcases hpicks.answers with hname | hindex
    · exact (hlacks worker hpicks.mem).1 hname
    · exact (hlacks worker hpicks.mem).2 hindex

theorem exists_worker (hempty : ¬ emptyHost.Affects registry r)
    (hunknown : ¬ unknownWorker.Affects registry r) :
    ∃ worker, (registry.resolve r.hostname).selectWorker r.params.worker = .ok worker := by
  rcases Host.selectWorker_cases (registry.resolve r.hostname) r.params.worker with
    ⟨hnil, -⟩ | ⟨-, selector, hselector, hlacks, -⟩ | ⟨worker, -, hok⟩
  · exact absurd hnil hempty
  · exact absurd ⟨selector, hselector, hlacks⟩ hunknown
  · exact ⟨worker, hok⟩

/-- A selection that fails has found one of two defects, and it is the first if no other counts
before it. -/
theorem exists_isFirst_of_selectWorker {f : Failure}
    (h : (registry.resolve r.hostname).selectWorker r.params.worker = .error f)
    (hpassed : Passed registry r 2) :
    ∃ d : RunDefect, d.IsFirst registry r ∧ d.hasWorker = false ∧
      f = .configuration (d.detail r) := by
  rcases Host.selectWorker_cases (registry.resolve r.hostname) r.params.worker with
    ⟨hempty, herror⟩ | ⟨hne, selector, hselector, hlacks, herror⟩ | ⟨worker, -, hok⟩
  · refine ⟨emptyHost, ⟨hempty, hpassed⟩, rfl, ?_⟩
    rw [Registry.hostname_resolve] at herror
    exact Except.error.inj (h.symm.trans herror)
  · have hprovisioned : ¬ emptyHost.Affects registry r := hne
    have haffects : unknownWorker.Affects registry r := ⟨selector, hselector, hlacks⟩
    refine ⟨unknownWorker, ⟨haffects, hpassed.succ hprovisioned⟩, rfl, ?_⟩
    have hf := Except.error.inj (h.symm.trans herror)
    rw [Registry.hostname_resolve] at hf
    rw [hf, detail_unknownWorker hselector]
  · cases h.symm.trans hok

theorem affects_noDevice_iff {c : StepContext} (hc : c.params = r.params) :
    noDevice.Affects registry r ↔
      c.deviceSerial = .error (.configuration (noDevice.detail r)) := by
  rcases c.deviceSerial_cases with ⟨serial, hs, hne, hok⟩ | ⟨hnone, herror⟩
  · rw [hok, Affects, ← hc, hs]
    simp [hne]
  · rw [herror, Affects, ← hc]
    exact iff_of_true hnone rfl

theorem deviceSerial_ne_error {c : StepContext} (hc : c.params = r.params)
    (h : ¬ noDevice.Affects registry r) (f : Failure) : c.deviceSerial ≠ .error f := by
  rcases c.deviceSerial_cases with ⟨serial, -, -, hok⟩ | ⟨hnone, -⟩
  · rw [hok]
    exact fun herror ↦ by cases herror
  · rw [hc] at hnone
    exact absurd hnone h

theorem exists_configuration (h : ¬ unknownConfiguration.Affects registry r) :
    ∃ k : BuildConfiguration, k.name = r.params.configuration := by
  by_contra hnone
  exact h ⟨fun hrelease ↦ hnone ⟨.release, hrelease.symm⟩,
    fun hdebug ↦ hnone ⟨.debug, hdebug.symm⟩⟩

theorem affects_unknownConfiguration_iff {c : StepContext} (hc : c.params = r.params) :
    unknownConfiguration.Affects registry r ↔
      c.buildConfiguration = .error (.configuration (unknownConfiguration.detail r)) := by
  rw [StepContext.buildConfiguration, hc]
  constructor
  · rintro ⟨hrelease, hdebug⟩
    refine BuildConfiguration.parse_of_forall_name_ne fun k hk ↦ ?_
    cases k with
    | release => exact hrelease hk.symm
    | debug => exact hdebug hk.symm
  · intro h
    constructor <;> intro hname
    · rw [hname, show "Release" = BuildConfiguration.release.name from rfl,
        BuildConfiguration.parse_name] at h
      cases h
    · rw [hname, show "Debug" = BuildConfiguration.debug.name from rfl,
        BuildConfiguration.parse_name] at h
      cases h

end RunDefect

/-! ## Refused runs -/

/-- Whatever the device says, an install that is asked for fails for another reason than the
configuration. -/
theorem InstallCourse.kind_ne_configuration {checkBy installBy : Span} {s : InstallStep σ}
    {c : StepContext} {w : σ} {record : InstallRecord}
    (h : InstallCourse checkBy installBy s c w record) {k : BuildConfiguration}
    (hk : k.name = c.params.configuration) {f : Failure} (hf : record.result = .error f) :
    f.kind ≠ .configuration := by
  cases h with
  | unrecognized hnone => exact absurd hk (hnone k)
  | unanswered | unreachable | unfit | overrun | broken =>
    cases hf
    simp [Failure.kind]
  | failed _ _ _ hkind =>
    cases hf
    rcases hkind with hkind | hkind <;> rw [hkind] <;> simp
  | installed => cases hf

/-- A configuration that there is not ends a step before anything has been asked. -/
theorem InstallStep.runToCompletion_of_unrecognized (t : Timer) (s : InstallStep σ) {p : Progress σ}
    {f : Failure} (h : p.context.buildConfiguration = .error f) :
    s.runToCompletion t p = (.error f, p.move fun c now ↦ c.markFailed f now) := by
  have hperform : s.perform t p = (.error f, p) := by
    rw [perform_eq, h]
  rw [runToCompletion, hperform]

theorem StepOutcome.failureKind?_of_settles {o : StepOutcome} {result : Except Failure Unit}
    (h : o.state.Settles result) (hkind : ∀ f, result = .error f → f.kind ≠ .configuration) :
    o.failureKind? ≠ some .configuration := by
  rw [failureKind?]
  cases result with
  | ok _ =>
    obtain ⟨t, u, ht⟩ := h
    rw [ht]
    simp
  | error f =>
    obtain ⟨t, ht⟩ := h
    rw [ht, StepState.ofFailure]
    simpa using hkind f rfl

namespace Runner

variable {k : Runner σ} {r : RunRequest} {runId : RunId} {now : Instant} {w : σ}

theorem toOutcome_markFailed {c : StepContext} (hc : k.Opens r runId c) (f : Failure)
    (now : Instant) :
    (c.markFailed f now).2.toOutcome r.step =
      ⟨runId, r.step, r.hostname, some c.worker.name, .ofFailure f now,
        [⟨"Created", "Failed", now⟩]⟩ := by
  have hopen : c.state.isTerminal = false := congrArg StepState.isTerminal hc.fresh.created
  rw [StepContext.markFailed, StepContext.advance_of_canAdvanceTo now
    (StepState.canAdvanceTo_ofFailure hopen f now), StepContext.moved, StepContext.toOutcome]
  simp only [hc.fresh.created, hc.fresh.unmoved, hc.runId, hostname_of_opens hc]
  rfl

theorem outcome_of_rejection {d : RunDefect} (hd : d.hasWorker = false) (registry : Registry)
    (r : RunRequest) (runId : RunId) (now : Instant) :
    d.outcome registry r runId now = rejection r runId now (.configuration (d.detail r)) := by
  rw [RunDefect.outcome, if_neg (by rw [hd]; exact Bool.false_ne_true)]
  rfl

theorem outcome_of_opens {c : StepContext} (hc : k.Opens r runId c) {d : RunDefect}
    (hd : d.hasWorker = true) (now : Instant) :
    d.outcome k.registry r runId now =
      (c.markFailed (.configuration (d.detail r)) now).2.toOutcome r.step := by
  rw [toOutcome_markFailed hc, RunDefect.outcome, if_pos hd, selectWorker_of_opens hc]
  rfl

/-- A run is refused for its first defect, or has none and does not fail for one. -/
structure Screened (k : Runner σ) (r : RunRequest) (runId : RunId) (now : Instant) (w : σ)
    (report : RunReport σ) : Prop where
  /-- The first defect makes the outcome, and the world is left as it is. -/
  refused : (∃ d : RunDefect, d.Affects k.registry r) → ∃ d : RunDefect,
    d.IsFirst k.registry r ∧ report.outcome = d.outcome k.registry r runId now ∧ report.world = w
  passed : (∀ d : RunDefect, ¬ d.Affects k.registry r) →
    report.outcome.failureKind? ≠ some .configuration ∧ report.outcome.worker ≠ none

theorem screened_of_isFirst {report : RunReport σ} {d : RunDefect} (hd : d.IsFirst k.registry r)
    (ho : report.outcome = d.outcome k.registry r runId now) (hw : report.world = w) :
    k.Screened r runId now w report where
  refused := fun _ ↦ ⟨d, hd, ho, hw⟩
  passed := fun hnone ↦ absurd hd.affects (hnone d)

/-! ### Places and checks -/

theorem passed_of_hostname (h : Text.allBlank r.hostname = false) :
    RunDefect.Passed k.registry r 1 := by
  have hnamed : ¬ RunDefect.blankHostname.Affects k.registry r := by
    rw [RunDefect.affects_blankHostname_iff, h]
    exact Bool.false_ne_true
  exact RunDefect.Passed.zero.succ hnamed

theorem passed_of_step (hn : Text.allBlank r.hostname = false) {kind : StepKind}
    (hk : kind.name = r.step) : RunDefect.Passed k.registry r 2 :=
  (passed_of_hostname hn).succ (d := .unknownStep) (RunDefect.not_affects_unknownStep hk)

theorem passed_of_opens (hn : Text.allBlank r.hostname = false) {kind : StepKind}
    (hk : kind.name = r.step) {c : StepContext} (hc : k.Opens r runId c) :
    RunDefect.Passed k.registry r 4 := by
  have hworker := RunDefect.not_affects_of_selectWorker (selectWorker_of_opens hc)
  exact ((passed_of_step hn hk).succ (d := .emptyHost) hworker.1).succ (d := .unknownWorker)
    hworker.2

/-- The checks that have been passed on the way to a place are those before its own defect. -/
theorem Exit.screened {report : RunReport σ} (h : k.Exit r runId now w report) :
    k.Screened r runId now w report := by
  cases h with
  | nameless hn =>
    exact screened_of_isFirst (d := .blankHostname)
      ⟨RunDefect.affects_blankHostname_iff.mpr hn, .zero⟩ rfl rfl
  | unknown hn h =>
    obtain ⟨haffects, rfl⟩ : RunDefect.unknownStep.Affects k.registry r ∧ _ :=
      RunDefect.affects_unknownStep h
    exact screened_of_isFirst (d := .unknownStep) ⟨haffects, passed_of_hostname hn⟩ rfl rfl
  | workerless hn hk h =>
    obtain ⟨d, hd, hworker, rfl⟩ := RunDefect.exists_isFirst_of_selectWorker h
      (passed_of_step hn hk)
    exact screened_of_isFirst hd (outcome_of_rejection hworker _ _ _ _).symm rfl
  | @deviceless hn _ hk c hc f h =>
    have hserial : RunDefect.noDevice.Affects k.registry r := by
      by_contra hnone
      exact absurd h (RunDefect.deviceSerial_ne_error hc.params hnone f)
    cases h.symm.trans ((RunDefect.affects_noDevice_iff hc.params).mp hserial)
    exact screened_of_isFirst ⟨hserial, passed_of_opens hn hk hc⟩
      (outcome_of_opens hc rfl now).symm rfl
  | @complete hn _ hk c hc serial h result p hrun =>
    let s := Android.stepOn k.bridge serial c.requiresElevatedInstall
    have hopen : c.state.isTerminal = false := congrArg StepState.isTerminal hc.fresh.created
    have hserial : ¬ RunDefect.noDevice.Affects k.registry r := by
      rw [RunDefect.affects_noDevice_iff hc.params, h]
      exact fun herror ↦ by cases herror
    have hpassed := (passed_of_opens hn hk hc).succ (d := .noDevice) hserial
    by_cases hknown : RunDefect.unknownConfiguration.Affects k.registry r
    · have herror := (RunDefect.affects_unknownConfiguration_iff hc.params).mp hknown
      cases hrun.symm.trans (s.runToCompletion_of_unrecognized k.timer (p := ⟨c, w, now⟩) herror)
      exact screened_of_isFirst ⟨hknown, hpassed⟩ (outcome_of_opens hc rfl now).symm rfl
    · have hnone := (hpassed.succ hknown).not_affects
      have hsettles : (p.context.toOutcome r.step).state.Settles result := by
        have h := s.runToCompletion_settles k.timer (p := ⟨c, w, now⟩) hopen
        rw [hrun] at h
        exact h
      refine ⟨fun ⟨d, hd⟩ ↦ absurd hd (hnone d), fun _ ↦ ⟨?_, Option.some_ne_none _⟩⟩
      refine StepOutcome.failureKind?_of_settles hsettles fun f hf ↦ ?_
      have hcourse := (InstallCourse.iff_eq_record (t := k.timer) (s := s) (w := w) hc.fresh
        now).mpr rfl
      obtain ⟨configuration, hname⟩ := RunDefect.exists_configuration hknown
      refine hcourse.kind_ne_configuration (by rw [hname, hc.params]) ?_
      rw [← hf, InstallStep.record, hrun]

end Runner

/-! ## What a refusal depends on

The outcome is laid down for the whole of a refused run, and the times in it are all the same. So
two refused runs differ in nothing but identifier and time, and neither limits nor timers nor the
device make a difference. An unknown host cannot be wrong in its workers as long as none is named.
-/

def StepState.undated : StepState → StepState
  | created => created
  | validated _ => validated default
  | executing _ => executing default
  | succeeded _ _ => succeeded default default
  | failed kind error _ => failed kind error default

/-- An outcome without its identifier and its times. -/
def StepOutcome.undated (o : StepOutcome) : StepOutcome :=
  { o with
    runId := default
    state := o.state.undated
    transitions := o.transitions.map fun t ↦ { t with moment := default } }

namespace RunDefect

variable {registry : Registry} {r : RunRequest} {d : RunDefect}

theorem undated_outcome (d : RunDefect) (registry : Registry) (r : RunRequest)
    (runId runId' : RunId) (now now' : Instant) :
    (d.outcome registry r runId now).undated = (d.outcome registry r runId' now').undated := rfl

theorem failureKind?_outcome (d : RunDefect) (registry : Registry) (r : RunRequest)
    (runId : RunId) (now : Instant) :
    (d.outcome registry r runId now).failureKind? = some .configuration := rfl

theorem error?_outcome (d : RunDefect) (registry : Registry) (r : RunRequest) (runId : RunId)
    (now : Instant) :
    (d.outcome registry r runId now).error? = some ("Configuration error: " ++ d.detail r) := rfl

theorem IsFirst.worker_outcome (h : d.IsFirst registry r) (runId : RunId) (now : Instant) :
    (d.outcome registry r runId now).worker = none ↔ d.hasWorker = false := by
  rw [outcome]
  cases hd : d.hasWorker with
  | false => simp
  | true =>
    -- the selection has been passed, and has found a worker
    have hplace : 4 ≤ d.position := by
      cases d <;> first | decide | cases hd
    have hhost := h.passed emptyHost (Nat.lt_of_lt_of_le (by decide) hplace)
    have hselector := h.passed unknownWorker (Nat.lt_of_lt_of_le (by decide) hplace)
    obtain ⟨worker, hworker⟩ := exists_worker hhost hselector
    simp [hworker, Except.toOption]

end RunDefect

namespace Runner

/-- What the defects of a request make of its run. -/
structure RefusesDefects (k : Runner σ) (r : RunRequest) (runId : RunId) (now : Instant) (w : σ) :
    Prop where
  /-- A run fails for its request if the request has a defect, and only then. -/
  configuration_iff : (k.run r runId now w).outcome.failureKind? = some .configuration ↔
    ∃ d : RunDefect, d.Affects k.registry r
  /-- The text is that of the first defect. -/
  text : (∃ d : RunDefect, d.Affects k.registry r) → ∃ d : RunDefect, d.IsFirst k.registry r ∧
    (k.run r runId now w).outcome.error? = some ("Configuration error: " ++ d.detail r)
  /-- There is a worker in the outcome, unless a defect has been found before one was selected. -/
  worker_iff : (k.run r runId now w).outcome.worker = none ↔
    ∃ d : RunDefect, d.IsFirst k.registry r ∧ d.hasWorker = false
  /-- Other limits, another timer and another device, whatever it does, make no difference to a
  refusal. -/
  independent : (∃ d : RunDefect, d.Affects k.registry r) →
    ∀ {τ : Type} (limits : StepLimits) (b : Bridge τ) (t : Timer) (handlers : Nat)
      (runId' : RunId) (now' : Instant) (w' : τ),
      ((Runner.mk k.registry limits b t handlers).run r runId' now' w').outcome.undated =
        (k.run r runId now w).outcome.undated
  /-- The device is left as it is. -/
  untouched : (∃ d : RunDefect, d.Affects k.registry r) → (k.run r runId now w).world = w
  /-- A host that is not in the table has a worker for whoever names none. -/
  selfHosted : k.registry.get? r.hostname = none → r.params.worker = none →
    ¬ RunDefect.emptyHost.Affects k.registry r ∧ ¬ RunDefect.unknownWorker.Affects k.registry r

theorem not_affects_of_unknown_host {registry : Registry} {r : RunRequest}
    (hunknown : registry.get? r.hostname = none) (hselector : r.params.worker = none) :
    ¬ RunDefect.emptyHost.Affects registry r ∧ ¬ RunDefect.unknownWorker.Affects registry r := by
  constructor
  · intro hempty
    have hhost : registry.resolve r.hostname = registry.defaultHost r.hostname := by
      rw [Registry.resolve, hunknown, Option.getD_none]
    rw [RunDefect.Affects, hhost] at hempty
    exact absurd hempty (List.cons_ne_nil _ _)
  · rintro ⟨selector, hsome, -⟩
    rw [hselector] at hsome
    cases hsome

/-- A run fails for its request exactly if the request has a defect; the first defect makes all of
the outcome, and no device has a part in it. -/
theorem run_refuses_defects (k : Runner σ) (r : RunRequest) (runId : RunId) (now : Instant)
    (w : σ) : k.RefusesDefects r runId now w := by
  have hscreened := (k.exit_run r runId now w).screened
  constructor
  case configuration_iff =>
    constructor
    · intro hkind
      by_contra hnone
      exact (hscreened.passed (not_exists.mp hnone)).1 hkind
    · intro hd
      obtain ⟨d, -, ho, -⟩ := hscreened.refused hd
      rw [ho, RunDefect.failureKind?_outcome]
  case text =>
    intro hd
    obtain ⟨d, hfirst, ho, -⟩ := hscreened.refused hd
    exact ⟨d, hfirst, by rw [ho, RunDefect.error?_outcome]⟩
  case worker_iff =>
    constructor
    · intro hworker
      have hd : ∃ d : RunDefect, d.Affects k.registry r := by
        by_contra hnone
        exact (hscreened.passed (not_exists.mp hnone)).2 hworker
      obtain ⟨d, hfirst, ho, -⟩ := hscreened.refused hd
      rw [ho] at hworker
      exact ⟨d, hfirst, (hfirst.worker_outcome runId now).mp hworker⟩
    · rintro ⟨d, hfirst, hworker⟩
      obtain ⟨d', hfirst', ho, -⟩ := hscreened.refused ⟨d, hfirst.affects⟩
      rw [ho, hfirst'.unique hfirst]
      exact (hfirst.worker_outcome runId now).mpr hworker
  case independent =>
    intro hd τ limits b t handlers runId' now' w'
    have hscreened' :=
      ((Runner.mk k.registry limits b t handlers).exit_run r runId' now' w').screened
    obtain ⟨d, hfirst, ho, -⟩ := hscreened.refused hd
    obtain ⟨d', hfirst', ho', -⟩ := hscreened'.refused hd
    rw [ho, ho', hfirst'.unique hfirst]
    exact d.undated_outcome k.registry r runId' runId now' now
  case untouched =>
    intro hd
    obtain ⟨d, -, -, hworld⟩ := hscreened.refused hd
    exact hworld
  case selfHosted => exact not_affects_of_unknown_host

end Runner

end BuildFleet
