import BuildFleet.Proofs.InstallCourse

/-!
# The course of a run

Outside of a run there are three things to be seen of it: the outcome, what has reached the device,
and the exit status of the program. They tell the same story, so that each can be read off the
others.

A run can be left in five places. Four of them are refusals, three of which write down a history
that no context has had; the fifth is the end of the step. They are told apart once, by `Exit`, and
all that holds of every run is a case analysis over that.

## From exits to courses

An exit knows everything about its report, events and worlds included, and it is what the other
theories of runs start from. A course knows less and is shorter: the state at the end, the moves,
the calls, and the status. The refusals are one course, since they all fail for the configuration of
the request. The other four are the rules for an install as they are seen from the device, where the
check of the target is the question whether it can be reached.

Each row of what is wanted in the end is an equivalence, such as that an install has been asked for
exactly if the run has got as far as executing. A case analysis of the courses gives each of them in
both directions, since every run goes by one of the five.
-/

namespace BuildFleet

variable {σ : Type}

/-! ## Exits -/

namespace Runner

/-- The context that a step of a request is made for: it belongs to the request, and nothing has
happened in it. -/
structure Opens (k : Runner σ) (r : RunRequest) (runId : RunId) (c : StepContext) : Prop where
  fresh : c.IsFresh
  runId : c.runId = runId
  host : c.host = k.registry.resolve r.hostname
  worker : c.host.selectWorker r.params.worker = .ok c.worker
  params : c.params = r.params
  limits : c.limits = k.limits

theorem hostname_of_opens {k : Runner σ} {r : RunRequest} {runId : RunId} {c : StepContext}
    (h : k.Opens r runId c) : c.host.hostname = r.hostname := by
  rw [h.host, Registry.hostname_resolve]

theorem selectWorker_of_opens {k : Runner σ} {r : RunRequest} {runId : RunId} {c : StepContext}
    (h : k.Opens r runId c) :
    (k.registry.resolve r.hostname).selectWorker r.params.worker = .ok c.worker := by
  rw [← h.host]
  exact h.worker

theorem contextFor_cases (k : Runner σ) (r : RunRequest) (runId : RunId) :
    (∃ c, contextFor k.limits r runId (k.registry.resolve r.hostname) = .ok c ∧
        k.Opens r runId c) ∨
      ∃ f, contextFor k.limits r runId (k.registry.resolve r.hostname) = .error f ∧
        (k.registry.resolve r.hostname).selectWorker r.params.worker = .error f := by
  rw [contextFor, StepContext.forHost]
  cases hw : (k.registry.resolve r.hostname).selectWorker r.params.worker with
  | error f => exact .inr ⟨f, rfl, rfl⟩
  | ok worker =>
    refine .inl ⟨_, rfl, ?_⟩
    -- the revisions are notes, which nothing that is asked for looks at
    cases r.params.revision <;> cases r.params.gotRevision <;>
      exact ⟨⟨rfl, rfl⟩, rfl, rfl, hw, rfl, rfl⟩

def resolved (k : Runner σ) (r : RunRequest) : RunEvent :=
  .hostResolved r.hostname (k.registry.isKnown r.hostname)
    (k.registry.resolve r.hostname).workers.length

def ended (r : RunRequest) (runId : RunId) : Except Failure Unit → RunEvent
  | .ok () => .stepSucceeded runId r.step
  | .error f => .ofFailure runId r.step f

/-- The places where a run can be left, with the reports that it leaves there. -/
inductive Exit (k : Runner σ) (r : RunRequest) (runId : RunId) (now : Instant) (w : σ) :
    RunReport σ → Prop
  /-- No host is named. -/
  | nameless (h : Text.allBlank r.hostname = true) :
    Exit k r runId now w
      (k.reject r runId now w (.configuration "hostname must not be empty") [])
  /-- The step is not in the catalogue. -/
  | unknown (hn : Text.allBlank r.hostname = false) {f : Failure}
    (h : StepKind.parse r.step = .error f) :
    Exit k r runId now w (k.reject r runId now w f [k.resolved r])
  /-- The host has no worker for the request. -/
  | workerless (hn : Text.allBlank r.hostname = false) {kind : StepKind} (hk : kind.name = r.step)
    {f : Failure}
    (h : (k.registry.resolve r.hostname).selectWorker r.params.worker = .error f) :
    Exit k r runId now w (k.reject r runId now w f [k.resolved r])
  /-- No device is named. -/
  | deviceless (hn : Text.allBlank r.hostname = false) {kind : StepKind} (hk : kind.name = r.step)
    {c : StepContext} (hc : k.Opens r runId c) {f : Failure} (h : c.deviceSerial = .error f) :
    Exit k r runId now w
      (.delivered k.handlers ((c.markFailed f now).2.toOutcome r.step)
        [k.resolved r, .ofFailure runId r.step f] w now)
  /-- The step is run to its end. -/
  | complete (hn : Text.allBlank r.hostname = false) {kind : StepKind} (hk : kind.name = r.step)
    {c : StepContext} (hc : k.Opens r runId c) {serial : String} (h : c.deviceSerial = .ok serial)
    {result : Except Failure Unit} {p : Progress σ}
    (hrun : (Android.stepOn k.bridge serial c.requiresElevatedInstall).runToCompletion k.timer
      ⟨c, w, now⟩ = (result, p)) :
    Exit k r runId now w
      (.delivered k.handlers (p.context.toOutcome r.step)
        [k.resolved r, .stepStarted runId r.step c.worker.name, ended r runId result] p.world
        p.now)

variable (k : Runner σ) (r : RunRequest) (runId : RunId) (now : Instant) (w : σ)

/-- Every run is left in one of these places. -/
theorem exit_run : k.Exit r runId now w (k.run r runId now w) := by
  rw [run]
  cases hn : Text.allBlank r.hostname with
  | true => exact .nameless hn
  | false =>
    have hresolved : RunEvent.hostResolved (k.registry.resolve r.hostname).hostname
        (k.registry.isKnown r.hostname) (k.registry.resolve r.hostname).workers.length =
          k.resolved r := by
      rw [Registry.hostname_resolve, resolved]
    rw [if_neg Bool.false_ne_true]
    dsimp only
    rw [hresolved]
    cases hk : StepKind.parse r.step with
    | error f => exact .unknown hn hk
    | ok kind =>
      have hname := StepKind.name_of_parse hk
      rcases k.contextFor_cases r runId with ⟨c, hctx, hc⟩ | ⟨f, hctx, hw⟩
      · rw [hctx]
        dsimp only
        cases kind with
        | androidInstall =>
          rw [perform]
          simp only [StepKind.instantiate, Android.step, hname, hc.runId]
          cases hs : c.deviceSerial with
          | error f => exact .deviceless hn hname hc hs
          | ok serial =>
            rcases hrun : (Android.stepOn k.bridge serial
              c.requiresElevatedInstall).runToCompletion k.timer ⟨c, w, now⟩ with ⟨result, p⟩
            simp only [Except.map, hrun]
            cases result with
            | ok _ => exact .complete hn hname hc hs hrun
            | error f => exact .complete hn hname hc hs hrun
      · rw [hctx]
        exact .workerless hn hname hw

end Runner

/-! ## Courses -/

def StepOutcome.moves (o : StepOutcome) : List (String × String) :=
  o.transitions.map StateTransition.names

/-- The ways in which a run can go: the state that it ends in, its moves, the calls that reach the
device, and the exit status of the program. -/
inductive RunCourse : StepState → List (String × String) → List DeviceCall → Nat → Prop
  /-- The request is unusable, and the device hears nothing of it. -/
  | refused (error : String) (t : Instant) :
    RunCourse (.failed .configuration error t) Moves.failedEarly [] 2
  /-- The device does not pass its check. -/
  | unreachable (error : String) (t : Instant) (serial : String) :
    RunCourse (.failed .targetUnreachable error t) Moves.failedEarly [.isReachable serial] 3
  | failed (error : String) (t : Instant) (serial : String) (release launcher : Bool) :
    RunCourse (.failed .installFailure error t) Moves.failedLate
      [.isReachable serial, .install serial release launcher] 4
  | timedOut (error : String) (t : Instant) (serial : String) (release launcher : Bool) :
    RunCourse (.failed .installTimeout error t) Moves.failedLate
      [.isReachable serial, .install serial release launcher] 5
  | succeeded (t u : Instant) (serial : String) (release launcher : Bool) :
    RunCourse (.succeeded t u) Moves.succeeded
      [.isReachable serial, .install serial release launcher] 0

namespace RunCourse

variable {o : StepOutcome} {f : Failure} {t : Instant}

theorem of_refusal (hs : o.state = .ofFailure f t) (hf : f.kind = .configuration)
    (hm : o.moves = Moves.failedEarly) : RunCourse o.state o.moves [] o.exitCode := by
  rw [StepOutcome.exitCode, hs, hm, StepState.ofFailure, hf]
  exact .refused _ _

theorem of_installCourse {checkBy installBy : Span} {s : InstallStep σ} {c : StepContext} {w : σ}
    {record : InstallRecord} (h : InstallCourse checkBy installBy s c w record)
    (hs : o.state.Settles record.result) (hm : o.moves = record.moves) :
    RunCourse o.state o.moves (record.calls.map (StepCall.toDeviceCall s.target.serial))
      o.exitCode := by
  cases h with
  | unrecognized h =>
    obtain ⟨t, ht⟩ := hs
    exact of_refusal ht rfl hm
  | unanswered | unreachable | unfit =>
    obtain ⟨t, ht⟩ := hs
    rw [StepOutcome.exitCode, ht, hm]
    exact .unreachable _ _ _
  | overrun =>
    obtain ⟨t, ht⟩ := hs
    rw [StepOutcome.exitCode, ht, hm]
    exact .timedOut _ _ _ _ _
  | failed _ _ _ hf =>
    obtain ⟨t, ht⟩ := hs
    rw [StepOutcome.exitCode, ht, hm, StepState.ofFailure]
    rcases hf with hf | hf
    · rw [hf]
      exact .failed _ _ _ _ _
    · rw [hf]
      exact .timedOut _ _ _ _ _
  | broken =>
    obtain ⟨t, ht⟩ := hs
    rw [StepOutcome.exitCode, ht, hm]
    exact .failed _ _ _ _ _
  | installed =>
    obtain ⟨t, u, ht⟩ := hs
    rw [StepOutcome.exitCode, ht, hm]
    exact .succeeded _ _ _ _ _

/-! ### Calls and ends -/

variable {moves : List (String × String)} {calls : List DeviceCall} {code : Nat}

theorem isTerminal {s : StepState} (h : RunCourse s moves calls code) : s.isTerminal = true := by
  cases h <;> rfl

theorem configuration_iff (h : RunCourse o.state moves calls code) :
    o.failureKind? = some .configuration ↔ calls = [] := by
  rw [StepOutcome.failureKind?]
  generalize o.state = s at h
  cases h <;> simp

theorem targetUnreachable_iff (h : RunCourse o.state moves calls code) :
    o.failureKind? = some .targetUnreachable ↔ ∃ serial, calls = [.isReachable serial] := by
  rw [StepOutcome.failureKind?]
  generalize o.state = s at h
  cases h <;> simp

theorem installed_iff (h : RunCourse o.state moves calls code) :
    (o.failureKind? = some .installFailure ∨ o.failureKind? = some .installTimeout ∨
        o.isSuccess = true) ↔
      ∃ serial release launcher,
        calls = [.isReachable serial, .install serial release launcher] := by
  rw [StepOutcome.failureKind?, StepOutcome.isSuccess]
  generalize o.state = s at h
  cases h <;> simp

end RunCourse

/-- The run of an Android step over a bridge that keeps a record goes by the rules for an install,
and the record holds the calls that the rules tell. -/
theorem Android.exists_course {t : Timer} {b : Bridge σ} {serial : String} {elevated : Bool}
    {c : StepContext} {w : σ} {now : Instant} {result : Except Failure Unit}
    {p : Progress (σ × List DeviceCall)} (hc : c.IsFresh)
    (hrun : (stepOn b.recording serial elevated).runToCompletion t ⟨c, (w, []), now⟩ =
      (result, p)) :
    ∃ record,
      InstallCourse (t.lasts c.limits.validate) (t.lasts c.limits.install)
          (stepOn b serial elevated) c w record ∧
        result = record.result ∧
        p.world.2 = record.calls.map (StepCall.toDeviceCall serial) ∧
        p.context.moves = record.moves := by
  let s := stepOn b serial elevated
  let q := s.recording.runToCompletion t ⟨c, (w, []), now⟩
  -- the record of the device is that of the step, call by call
  have hfollows : (result, p) =
      (q.1, q.2.map (Prod.map id (List.map (StepCall.toDeviceCall serial)))) :=
    hrun.symm.trans
      ((recording_follows b serial elevated).runToCompletion_eq t ⟨c, (w, []), now⟩)
  cases hfollows
  exact ⟨_, (InstallCourse.iff_eq_record hc now).mpr (s.record_eq t c now w).symm, rfl, rfl, rfl⟩

/-- The outcome of a run and the calls that reach the device tell the same. -/
structure StepOutcome.Matches (o : StepOutcome) (calls : List DeviceCall) : Prop where
  settled : o.state.isTerminal = true
  /-- The device has heard nothing. -/
  configuration : o.failureKind? = some .configuration ↔ calls = []
  /-- The device has been asked whether it is there, and nothing else. -/
  targetUnreachable :
    o.failureKind? = some .targetUnreachable ↔ ∃ serial, calls = [.isReachable serial]
  /-- The device has been asked to install, once, after it has been asked whether it is there. -/
  installed :
    (o.failureKind? = some .installFailure ∨ o.failureKind? = some .installTimeout ∨
        o.isSuccess = true) ↔
      ∃ serial release launcher,
        calls = [.isReachable serial, .install serial release launcher]
  /-- The moves and the exit status go with the end and the calls, row by row. -/
  course : RunCourse o.state o.moves calls o.exitCode

namespace Runner

variable (k : Runner σ) (r : RunRequest) (runId : RunId) (now : Instant) (w : σ)

theorem runCourse :
    RunCourse (k.run r runId now w).outcome.state (k.run r runId now w).outcome.moves
      (k.calls r runId now w) (k.run r runId now w).outcome.exitCode := by
  have hexit := k.recording.exit_run r runId now (w, [])
  rw [calls, k.run_recording r runId now w []]
  generalize k.recording.run r runId now (w, []) = report at hexit
  cases hexit with
  | nameless => exact .of_refusal rfl rfl rfl
  | unknown _ h => exact .of_refusal rfl (StepKind.kind_of_parse h) rfl
  | workerless _ _ h => exact .of_refusal rfl (Host.kind_of_selectWorker h) rfl
  | deviceless _ _ hc h =>
    have hopen : StepState.isTerminal _ = false := congrArg StepState.isTerminal hc.fresh.created
    exact .of_refusal (StepContext.markFailed_state hopen _ _)
      (StepContext.kind_of_deviceSerial h) (hc.fresh.moves_markFailed _ _)
  | @complete _ _ _ c hc serial h result p hrun =>
    have hopen : c.state.isTerminal = false := congrArg StepState.isTerminal hc.fresh.created
    have hsettles := InstallStep.runToCompletion_settles (p := ⟨c, (w, []), now⟩)
      k.recording.timer (Android.stepOn k.recording.bridge serial c.requiresElevatedInstall) hopen
    obtain ⟨record, hcourse, hresult, hcalls, hmoves⟩ := Android.exists_course hc.fresh hrun
    rw [hrun, hresult] at hsettles
    dsimp only [RunReport.delivered]
    rw [hcalls]
    exact .of_installCourse hcourse hsettles hmoves

/-- Whatever is asked for and however the device behaves, a run comes to an end that matches what
the device has heard. -/
theorem outcome_matches_calls :
    (k.run r runId now w).outcome.Matches (k.calls r runId now w) := by
  have hcourse := k.runCourse r runId now w
  exact ⟨hcourse.isTerminal, hcourse.configuration_iff, hcourse.targetUnreachable_iff,
    hcourse.installed_iff, hcourse⟩

end Runner

end BuildFleet
