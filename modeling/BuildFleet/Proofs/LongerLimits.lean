import BuildFleet.Proofs.DeviceWaits
import BuildFleet.Proofs.RunAuthority
import BuildFleet.Proofs.RunResemblance
import BuildFleet.Proofs.Settling

/-!
# Longer limits

A run in which every answer of the device has come in time does not show what its limits were. So it
is the same under longer ones, whether it has gone well or failed: what makes a difference is a
timer that goes off, and nothing else looks at the limits. That the device itself may report that an
install took too long is a matter of its own, since that is an answer and names its own limit.

## From limits to deadlines

What a run sees is whether an answer has come by a deadline, and the deadlines are what the timer
makes of the limits. So two things have to be known of the timer: that no deadline is in front of
its limit, for otherwise an answer within the limit could be missed, and that a longer limit has no
earlier deadline. Both hold of reliable timers. The rest of the argument is about deadlines only: if
all answers have come by those of the first run, they have come by the later ones of the second, and
from there on the two runs make the same moves on the same answers, at other times.

Whether the device is late is not for the run to say, which only learns that nothing has come yet.
It is read off a record that is kept beside the device.
-/

namespace BuildFleet

variable {σ τ : Type}

/-! ## Steps under longer limits -/

/-- All answers that a step waits for come before the timers go off. -/
structure InstallStep.AnswersBy (l : StepLimits) (s : InstallStep τ) (w : τ)
    (k : BuildConfiguration) : Prop where
  check : ∃ a, s.checkAnswer w l.validate = some a
  /-- The installer is asked if the check has passed. -/
  install : s.checkAnswer w l.validate = some (.ok ()) → ∃ a, s.installAnswer w l.install k = some a

namespace InstallStep

variable {t : Timer} {s : InstallStep τ} {p q : Progress τ} {k : BuildConfiguration}

theorem checked_some (t : Target τ) (limit limit' : Span) (a : Except Failure Unit) :
    checked t limit (some a) = checked t limit' (some a) := by
  cases a with
  | ok _ => rfl
  | error f => cases f <;> rfl

theorem installed_some (limit limit' : Span) (a : Except Failure InstallReport) :
    installed limit (some a) = installed limit' (some a) := by
  cases a with
  | ok _ => rfl
  | error f => cases f <;> rfl

theorem eq_ok_of_checked {t : Target τ} {limit : Span} {a : Except Failure Unit}
    (h : checked t limit (some a) = .ok ()) : a = .ok () := by
  cases a with
  | ok _ => rfl
  | error f => cases f <;> cases h

theorem ready_resembles (t : Timer) (s : InstallStep τ) (h : p.Resembles q) :
    (s.ready t p).Resembles (s.ready t q) := by
  have hchecking := h.await t p.context.limits.validate q.context.limits.validate s.target.check
  exact ⟨(hchecking.context.markValidated _ _).markExecuting _ _, hchecking.world⟩

theorem installing_resembles (t : Timer) (s : InstallStep τ) (h : p.Resembles q)
    (k : BuildConfiguration) :
    (s.installing t p k).Resembles (s.installing t q k) :=
  (s.ready_resembles t h).await _ _ _ _

theorem note_resembles (k : BuildConfiguration) (report : InstallReport) {c d : StepContext}
    (h : c.Resembles d) : (note k report c).Resembles (note k report d) :=
  ⟨h.host, h.worker, h.params, h.state, h.moves⟩

/-- If all answers have come in time, timers that go off later make no difference to a step. -/
theorem perform_resembles (h : p.Resembles q)
    (hlimits : (t.deadlines p.context.limits).AtMost (t.deadlines q.context.limits))
    (hanswers : ∀ k, p.context.buildConfiguration = .ok k →
      s.AnswersBy (t.deadlines p.context.limits) p.world k) :
    (s.perform t p).1 = (s.perform t q).1 ∧ (s.perform t p).2.Resembles (s.perform t q).2 := by
  have hconfiguration := h.context.buildConfiguration
  cases hk : p.context.buildConfiguration with
  | error f =>
    rw [perform_eq t s p, perform_eq t s q, hconfiguration, hk]
    exact ⟨rfl, h⟩
  | ok k =>
    obtain ⟨a, ha⟩ : ∃ a, s.checkAnswer p.world (t.lasts p.context.limits.validate) = some a :=
      (hanswers k hk).check
    have ha' : s.checkAnswer q.world (t.lasts q.context.limits.validate) = some a := by
      rw [← h.world]
      exact Reply.answerBy_mono hlimits.validate ha
    rw [hk] at hconfiguration
    cases hc : checked s.target p.context.limits.validate (some a) with
    | error f =>
      have hc' := (checked_some s.target q.context.limits.validate _ a).trans hc
      rw [← ha] at hc
      rw [← ha'] at hc'
      rw [perform_of_unchecked hk hc, perform_of_unchecked hconfiguration hc']
      exact ⟨rfl, h.await _ _ _ _⟩
    | ok _ =>
      have hc' := (checked_some s.target q.context.limits.validate _ a).trans hc
      have hpassed := ha
      rw [eq_ok_of_checked hc] at hpassed
      rw [← ha] at hc
      rw [← ha'] at hc'
      obtain ⟨b, hb⟩ : ∃ b, s.installAnswer p.world (t.lasts p.context.limits.install) k = some b :=
        (hanswers k hk).install hpassed
      have hb' : s.installAnswer q.world (t.lasts q.context.limits.install) k = some b := by
        rw [← h.world]
        exact Reply.answerBy_mono hlimits.install hb
      have hready := (s.ready_resembles t h).context
      have hinstalling := s.installing_resembles t h k
      rw [perform_of_checked hk hc, perform_of_checked hconfiguration hc', hb, hb',
        installed_some p.context.limits.install q.context.limits.install]
      cases installed q.context.limits.install (some b) with
      | error f =>
        dsimp only
        exact ⟨rfl, hinstalling⟩
      | ok report =>
        dsimp only
        exact ⟨rfl, note_resembles k report hready, hinstalling.world⟩

theorem runToCompletion_resembles (h : p.Resembles q)
    (hlimits : (t.deadlines p.context.limits).AtMost (t.deadlines q.context.limits))
    (hanswers : ∀ k, p.context.buildConfiguration = .ok k →
      s.AnswersBy (t.deadlines p.context.limits) p.world k) :
    (s.runToCompletion t p).1 = (s.runToCompletion t q).1 ∧
      (s.runToCompletion t p).2.Resembles (s.runToCompletion t q).2 := by
  have hperform := perform_resembles h hlimits hanswers
  rw [runToCompletion, runToCompletion]
  generalize s.perform t p = ended, s.perform t q = ended' at hperform
  obtain ⟨result, p'⟩ := ended
  obtain ⟨result', q'⟩ := ended'
  obtain ⟨rfl, hprogress⟩ : result = result' ∧ p'.Resembles q' := hperform
  cases result with
  | error f => exact ⟨rfl, hprogress.context.markFailed f _ _, hprogress.world⟩
  | ok _ => exact ⟨rfl, hprogress.context.markSucceeded _ _, hprogress.world⟩

/-! ### Answers that have come in time -/

theorem fst_runToCompletion (t : Timer) (s : InstallStep τ) (p : Progress τ) :
    (s.runToCompletion t p).1 = (s.perform t p).1 := by
  rw [runToCompletion]
  rcases s.perform t p with ⟨_ | _, _⟩ <;> rfl

theorem world_runToCompletion (t : Timer) (s : InstallStep τ) (p : Progress τ) :
    (s.runToCompletion t p).2.world = (s.perform t p).2.world := by
  rw [runToCompletion]
  rcases s.perform t p with ⟨_ | _, _⟩ <;> rfl

theorem world_of_unchecked {f : Failure} (hk : p.context.buildConfiguration = .ok k)
    (hc : checked s.target p.context.limits.validate
      (s.checkAnswer p.world (t.lasts p.context.limits.validate)) = .error f) :
    (s.runToCompletion t p).2.world = (s.target.check p.world).2 := by
  rw [world_runToCompletion, perform_of_unchecked hk hc]
  rfl

/-- After a passed check, it is the install that leaves the world. -/
theorem world_of_checked (hk : p.context.buildConfiguration = .ok k)
    (hc : checked s.target p.context.limits.validate
      (s.checkAnswer p.world (t.lasts p.context.limits.validate)) = .ok ()) :
    (s.runToCompletion t p).2.world =
      (s.installer.install (s.request k) (s.target.check p.world).2).2 := by
  rw [world_runToCompletion, perform_of_checked hk hc]
  split <;> rfl

theorem answersBy_of_ok (hk : p.context.buildConfiguration = .ok k)
    (h : (s.runToCompletion t p).1 = .ok ()) :
    s.AnswersBy (t.deadlines p.context.limits) p.world k := by
  rw [fst_runToCompletion] at h
  cases hc : checked s.target p.context.limits.validate
      (s.checkAnswer p.world (t.lasts p.context.limits.validate)) with
  | error f =>
    rw [perform_of_unchecked hk hc] at h
    cases h
  | ok _ =>
    rw [perform_of_checked hk hc] at h
    constructor
    · cases ha : s.checkAnswer p.world (t.lasts p.context.limits.validate) with
      | none =>
        rw [ha] at hc
        cases hc
      | some a => exact ⟨a, ha⟩
    · intro _
      cases hb : s.installAnswer p.world (t.lasts p.context.limits.install) k with
      | none =>
        rw [hb] at h
        cases h
      | some b => exact ⟨b, hb⟩

end InstallStep

namespace Android

variable {t : Timer} {b : Bridge σ} {serial : String} {elevated : Bool} {w : σ}

/-- If all that was waited for came in time, the answers of the step did. -/
theorem answersBy_of_waits {c : StepContext} {now : Instant} {k : BuildConfiguration}
    (hk : c.buildConfiguration = .ok k)
    (h : ∀ wait ∈ ((stepOn b.timing serial elevated).runToCompletion t ⟨c, (w, []), now⟩).2.world.2,
      wait.IsWithin (t.deadlines c.limits)) :
    (stepOn b.timing serial elevated).AnswersBy (t.deadlines c.limits) (w, []) k := by
  let s := stepOn b.timing serial elevated
  have hcheck := check_timing b serial elevated w []
  cases hc : InstallStep.checked s.target c.limits.validate
      (s.checkAnswer (w, []) (t.lasts c.limits.validate)) with
  | error f =>
    rw [InstallStep.world_of_unchecked (p := ⟨c, (w, []), now⟩) hk hc, hcheck] at h
    obtain ⟨delay, hdelay, hle⟩ := h _ List.mem_cons_self
    refine ⟨Reply.exists_answerBy hdelay hle, ?_⟩
    intro hpassed
    have hpassed : s.checkAnswer (w, []) (t.lasts c.limits.validate) = some (.ok ()) := hpassed
    rw [hpassed] at hc
    cases hc
  | ok _ =>
    rw [InstallStep.world_of_checked (p := ⟨c, (w, []), now⟩) hk hc, install_timing, hcheck] at h
    obtain ⟨delay, hdelay, hle⟩ := h _ List.mem_cons_self
    obtain ⟨delay', hdelay', hle'⟩ := h _ (List.mem_cons_of_mem _ List.mem_cons_self)
    exact ⟨Reply.exists_answerBy hdelay hle, fun _ ↦ Reply.exists_answerBy hdelay' hle'⟩

end Android

/-! ## Runs under longer limits -/

theorem StepOutcome.exists_of_isSuccess {o : StepOutcome} (h : o.isSuccess = true) :
    ∃ t u, o.state = .succeeded t u := by
  rw [isSuccess] at h
  split at h
  · exact ⟨_, _, ‹_›⟩
  · cases h

namespace Runner

/-- The run has gone well, or all that it has waited for has come within the limits. -/
def InTime (l : StepLimits) (report : RunReport (σ × List DeviceWait)) : Prop :=
  report.outcome.isSuccess = true ∨ ∀ wait ∈ report.world.2, wait.IsWithin l

theorem answersBy_of_inTime {t : Timer} {b : Bridge σ} {serial : String} {elevated : Bool} {w : σ}
    {c : StepContext} {now : Instant} {k : BuildConfiguration} {step : String}
    {events : List RunEvent} {handlers : Nat} (hopen : c.state.isTerminal = false)
    (hk : c.buildConfiguration = .ok k) {result : Except Failure Unit}
    {p : Progress (σ × List DeviceWait)}
    (hrun : (Android.stepOn b.timing serial elevated).runToCompletion t ⟨c, (w, []), now⟩ =
      (result, p))
    (hin : InTime (t.deadlines c.limits)
      (.delivered handlers (p.context.toOutcome step) events p.world p.now)) :
    (Android.stepOn b.timing serial elevated).AnswersBy (t.deadlines c.limits) (w, []) k := by
  rcases hin with hsuccess | hwaits
  · have hsettles := InstallStep.runToCompletion_settles (p := ⟨c, (w, []), now⟩) t
      (Android.stepOn b.timing serial elevated) hopen
    refine InstallStep.answersBy_of_ok (p := ⟨c, (w, []), now⟩) hk (hsettles.ok_iff.mpr ?_)
    rw [hrun]
    exact StepOutcome.exists_of_isSuccess hsuccess
  · have hworld : p.world = _ := congrArg (fun run ↦ run.2.world) hrun.symm
    rw [RunReport.delivered, hworld] at hwaits
    exact Android.answersBy_of_waits hk hwaits

/-- The runner that differs only in its limits. -/
def under (k : Runner σ) (limits : StepLimits) : Runner σ := { k with limits := limits }

variable {k : Runner σ} {limits' : StepLimits} {r : RunRequest} {runId : RunId} {now : Instant}
  {w : σ}

theorem perform_timing_resembles (kind : StepKind) {c c' : StepContext} (h : c.Resembles c')
    (hopen : c.state.isTerminal = false)
    (hlimits : (k.timer.deadlines c.limits).AtMost (k.timer.deadlines c'.limits)) (now' : Instant)
    (events : List RunEvent)
    (hin : InTime (k.timer.deadlines c.limits) (k.timing.perform kind c now (w, []) events)) :
    (k.timing.perform kind c now (w, []) events).Resembles
      (k.timing.perform kind c' now' (w, []) events) := by
  cases kind with
  | androidInstall =>
    rw [perform] at hin ⊢
    rw [perform]
    simp only [StepKind.instantiate, Android.step] at hin ⊢
    rw [h.deviceSerial]
    cases hserial : c.deviceSerial with
    | error f =>
      simp only [Except.map]
      refine ⟨(h.markFailed f _ _).undated_toOutcome _, ?_, rfl⟩
      simp [RunReport.delivered, RunEvent.ofFailure, RunEvent.anonymous]
    | ok serial =>
      rw [hserial] at hin
      simp only [Except.map] at hin ⊢
      have helevated : c'.requiresElevatedInstall = c.requiresElevatedInstall := by
        rw [StepContext.requiresElevatedInstall, StepContext.requiresElevatedInstall, h.worker]
      rw [helevated]
      have hanswers := fun k (hk : c.buildConfiguration = .ok k) ↦
        answersBy_of_inTime hopen hk rfl hin
      obtain ⟨hresult, hprogress⟩ := InstallStep.runToCompletion_resembles
        (p := ⟨c, (w, []), now⟩) (q := ⟨c', (w, []), now'⟩) ⟨h, rfl⟩ hlimits hanswers
      refine ⟨hprogress.context.undated_toOutcome _, ?_, hprogress.world⟩
      dsimp only [RunReport.delivered, timing, withBridge]
      rw [hresult]
      split <;> simp [RunEvent.ofFailure, RunEvent.anonymous, h.worker]

/-- Of two runs of a request over a timed bridge, the one with the later deadlines tells the same as
the other one, if that is in time. -/
theorem run_timing_resembles
    (hlimits : (k.timer.deadlines k.limits).AtMost (k.timer.deadlines limits')) (runId' : RunId)
    (now' : Instant)
    (hin : InTime (k.timer.deadlines k.limits) (k.timing.run r runId now (w, []))) :
    (k.timing.run r runId now (w, [])).Resembles
      ((k.under limits').timing.run r runId' now' (w, [])) := by
  rw [run] at hin ⊢
  rw [run]
  by_cases hn : Text.allBlank r.hostname = true
  · simp only [if_pos hn]
    exact reject_resembles _ _ _ _ _ _ _ _ _ _
  · simp only [if_neg hn, timing, under, withBridge_registry, withBridge_limits] at hin ⊢
    cases hk : StepKind.parse r.step with
    | error f => exact reject_resembles _ _ _ _ _ _ _ _ _ _
    | ok kind =>
      simp only [hk] at hin
      dsimp only
      rcases k.contextFor_both limits' r runId runId' with
        ⟨c, c', hctx, hctx', hc, hlimit, hresembles⟩ | ⟨f, hctx, hctx'⟩
      · rw [hctx] at hin ⊢
        rw [hctx']
        rw [← hc.limits] at hin hlimits
        rw [← hlimit] at hlimits
        exact perform_timing_resembles kind hresembles
          (congrArg StepState.isTerminal hc.fresh.created) hlimits now' _ hin
      · rw [hctx, hctx']
        exact reject_resembles _ _ _ _ _ _ _ _ _ _

/-- The run goes well, or every answer that it waits for comes within the limits. -/
def IsTimely (k : Runner σ) (l : StepLimits) (r : RunRequest) (runId : RunId) (now : Instant)
    (w : σ) : Prop :=
  (k.run r runId now w).outcome.isSuccess = true ∨ ∀ wait ∈ k.waits r runId now w, wait.IsWithin l

/-- Two runs of a request come to the same apart from identifiers and times, and ask the device for
the same. -/
structure RunsAlike (k k' : Runner σ) (r : RunRequest) (runId runId' : RunId) (now now' : Instant)
    (w : σ) : Prop where
  report : (k.run r runId now w).Resembles (k'.run r runId' now' w)
  calls : k'.calls r runId' now' w = k.calls r runId now w

theorem IsTimely.mono {l l' : StepLimits} (hl : l.AtMost l') (h : k.IsTimely l r runId now w) :
    k.IsTimely l' r runId now w :=
  h.imp_right fun hwaits wait hwait ↦ (hwaits wait hwait).mono hl

/-- A run that goes well, or in which no answer of the device is later than its limit, is the same
under longer limits. -/
theorem run_of_longer_limits (k : Runner σ) (ht : k.timer.IsReliable) {limits' : StepLimits}
    (hlimits : k.limits.AtMost limits') (r : RunRequest) (runId runId' : RunId)
    (now now' : Instant) (w : σ) (h : k.IsTimely k.limits r runId now w) :
    k.RunsAlike (k.under limits') r runId runId' now now' w := by
  -- the deadlines are no earlier than the limits, so what is in time by these is so by those
  have hin : InTime (k.timer.deadlines k.limits) (k.timing.run r runId now (w, [])) := by
    have htimely := h.mono (ht.atMost_deadlines k.limits)
    rw [IsTimely, k.run_timing] at htimely
    exact htimely
  have htiming := run_timing_resembles (ht.deadlines_atMost hlimits) runId' now' hin
  constructor
  case report =>
    rw [k.run_timing, (k.under limits').run_timing]
    exact ⟨htiming.outcome, htiming.events, congrArg Prod.fst htiming.world⟩
  case calls =>
    rw [k.calls_eq_map_waits, (k.under limits').calls_eq_map_waits]
    exact (congrArg (fun world ↦ world.2.map DeviceWait.call) htiming.world).symm

/-! ### Answers at the limit -/

def overScript (limits : StepLimits) : Runner DeviceScript := overTwoWorkers.under limits

/-- A device that answers exactly at the usual limits, and says of the install that it took too
long. -/
def atTheLimits : DeviceScript where
  reachable := [.after (.ofSeconds 30) (.ok true)]
  install := [.after (.ofSeconds 600) (.error (.timeout 5))]

/-- That device is not late, so with a second more for each call its failure stays the same. -/
theorem run_of_longer_limits_at_the_limits :
    (overScript .usual).IsTimely .usual (.toTwoWorkers "a" "Release" "full") default default
        atTheLimits ∧
      (overScript .usual).RunsAlike (overScript (.ofSeconds 31 601))
        (.toTwoWorkers "a" "Release" "full") default default default default atTheLimits ∧
      ((overScript .usual).run (.toTwoWorkers "a" "Release" "full") default default
        atTheLimits).outcome.error? = some "Install timed out after 5s" := by
  have htimely : (overScript .usual).IsTimely .usual (.toTwoWorkers "a" "Release" "full") default
      default atTheLimits := .inr (by decide)
  refine ⟨htimely, ?_, by decide⟩
  exact (overScript .usual).run_of_longer_limits Timer.isReliable_ticking ⟨by decide, by decide⟩
    _ _ _ _ _ _ htimely

end Runner

end BuildFleet
