import BuildFleet.Proofs.RunCourse

/-!
# Calls that agree up to a deadline

Whoever waits under a limit sees nothing of what a call would have answered later. So two calls that
do the same, or are both too late, cannot be told apart by the wait, and neither can steps and runs
that are made of such calls. The worlds are another matter: a call that is given up on has acted on
its world all the same, so nothing is said of the worlds that late calls leave.

## From calls to runs

Agreement is closed under what calls are made of. A change of the answer keeps it, and so does a
second call after the first one, where a first call that is late makes the whole late and one that
is not leaves less time for the second. Under a limit of its own that is beyond the deadline, a call
still agrees with itself under any other such limit, which is the case that all of this is for.

A step makes two calls. If its check is late on both sides then both runs fail in the same way, and
nothing that comes later can tell them apart, because a failed check ends a step. That is the reason
why the worlds may be forgotten: no call is made any more in the ones that are not known.
-/

namespace BuildFleet

variable {σ α β : Type}

/-! ## Late replies -/

namespace Reply

theorem answerBy_eq_none_iff {deadline : Span} {r : Reply α} :
    r.answerBy deadline = none ↔
      ∀ delay ∈ r.delay?, deadline.nanoseconds < delay.nanoseconds := by
  match r with
  | never => simp [answerBy, delay?]
  | after delay a => simp [answerBy, delay?]

theorem answerBy_map (f : α → β) (deadline : Span) (r : Reply α) :
    (r.map f).answerBy deadline = (r.answerBy deadline).map f := by
  match r with
  | never => rfl
  | after delay a =>
    rw [map, answerBy, answerBy, apply_ite (Option.map f)]
    rfl

theorem answerBy_delayed_of_late {deadline : Span} {r : Reply α}
    (h : r.answerBy deadline = none) (wait : Span) : (r.delayed wait).answerBy deadline = none := by
  rw [answerBy_eq_none_iff] at h ⊢
  match r with
  | never => exact h
  | after delay a =>
    intro total htotal
    cases htotal
    exact Nat.lt_of_lt_of_le (h delay rfl) (Nat.le_add_left _ _)

theorem answerBy_delayed_of_lt {deadline wait : Span}
    (h : deadline.nanoseconds < wait.nanoseconds) (r : Reply α) :
    (r.delayed wait).answerBy deadline = none := by
  rw [answerBy_eq_none_iff]
  match r with
  | never => simp [delayed, delay?]
  | after delay a =>
    intro total htotal
    cases htotal
    exact Nat.lt_of_lt_of_le h (Nat.le_add_right _ _)

theorem awaited_of_late {deadline : Span} {r : Reply α} (h : r.answerBy deadline = none) :
    r.awaited deadline = (none, deadline) := by
  rw [answerBy_eq_none_iff] at h
  match r with
  | never => rfl
  | after delay a => rw [awaited, if_neg (Nat.not_le_of_lt (h delay rfl))]

theorem awaited_of_answerBy {deadline later : Span}
    (hl : deadline.nanoseconds < later.nanoseconds) {delay : Span} {a : α}
    (h : delay.nanoseconds ≤ deadline.nanoseconds) :
    (after delay a).awaited later = (some a, delay) := by
  rw [awaited, if_pos (by omega)]

/-- A wait that lasts longer than a deadline lasts beyond it for a reply that is late by it. -/
theorem lt_awaited_of_late {deadline later : Span} {r : Reply α}
    (hl : deadline.nanoseconds < later.nanoseconds) (h : r.answerBy deadline = none) :
    deadline.nanoseconds < (r.awaited later).2.nanoseconds := by
  rw [answerBy_eq_none_iff] at h
  match r with
  | never => exact hl
  | after delay a =>
    rw [awaited]
    split
    · exact h delay rfl
    · exact hl

end Reply

/-! ## Calls -/

/-- Two calls are the same to whoever waits for them up to a deadline: they do the same, or both
answer too late. -/
def Call.AgreesUpTo (deadline : Span) (c c' : Call σ α) : Prop :=
  ∀ w, c w = c' w ∨ ((c w).1.answerBy deadline = none ∧ (c' w).1.answerBy deadline = none)

namespace Call.AgreesUpTo

variable {deadline : Span} {c c' : Call σ α}

theorem refl (deadline : Span) (c : Call σ α) : c.AgreesUpTo deadline c := fun _ ↦ .inl rfl

theorem map (h : c.AgreesUpTo deadline c') (f : α → β) :
    (c.map f).AgreesUpTo deadline (c'.map f) := by
  intro w
  rcases h w with heq | ⟨hlate, hlate'⟩
  · refine .inl ?_
    rw [Call.map, Call.map, heq]
  · refine .inr ?_
    rw [Call.map, Call.map, Reply.answerBy_map, Reply.answerBy_map, hlate, hlate']
    exact ⟨rfl, rfl⟩

/-- What follows a late call is late as well. -/
theorem andThen_late {w : σ} (h : (c w).1.answerBy deadline = none) (next : α → Call σ β) :
    (c.andThen next w).1.answerBy deadline = none := by
  rw [Call.andThen]
  split
  · rfl
  · rename_i delay a w' hw
    rw [hw, Reply.answerBy_eq_none_iff] at h
    exact Reply.answerBy_delayed_of_lt (h delay rfl) _

theorem andThen {next next' : α → Call σ β} (h : c.AgreesUpTo deadline c')
    (hnext : ∀ a, (next a).AgreesUpTo deadline (next' a)) :
    (c.andThen next).AgreesUpTo deadline (c'.andThen next') := by
  intro w
  rcases h w with heq | ⟨hlate, hlate'⟩
  · rw [Call.andThen, Call.andThen, ← heq]
    match c w with
    | (.never, w') => exact .inl rfl
    | (.after delay a, w') =>
      dsimp only
      refine (hnext a w').imp (fun heq' ↦ by rw [heq']) fun hlate ↦ ?_
      exact ⟨Reply.answerBy_delayed_of_late hlate.1 _, Reply.answerBy_delayed_of_late hlate.2 _⟩
  · exact .inr ⟨andThen_late hlate next, andThen_late hlate' next'⟩

/-- Waits that last longer than a deadline are the same up to it, if the same is made of what has
come. -/
theorem within {t : Timer} {limit limit' : Span} (c : Call σ α)
    (hl : deadline.nanoseconds < (t.lasts limit).nanoseconds)
    (hl' : deadline.nanoseconds < (t.lasts limit').nanoseconds) {f f' : Option α → β}
    (hf : ∀ a, f (some a) = f' (some a)) :
    ((c.within t limit).map f).AgreesUpTo deadline ((c.within t limit').map f') := by
  intro w
  rw [Call.map, Call.map, Call.within, Call.within]
  by_cases hlate : (c w).1.answerBy deadline = none
  · refine .inr ⟨?_, ?_⟩ <;>
    · rw [Reply.answerBy_map, Reply.within, Reply.answerBy, if_neg, Option.map_none]
      exact Nat.not_le_of_lt (Reply.lt_awaited_of_late ‹_› hlate)
  · refine .inl ?_
    generalize c w = answered at hlate
    rcases answered with ⟨_ | ⟨delay, a⟩, w'⟩
    · exact absurd rfl hlate
    · have hdelay : delay.nanoseconds ≤ deadline.nanoseconds := by
        simpa [Reply.answerBy] using hlate
      rw [Reply.within, Reply.within, Reply.awaited_of_answerBy hl hdelay,
        Reply.awaited_of_answerBy hl' hdelay, Reply.map, Reply.map, hf]

end Call.AgreesUpTo

/-! ## Steps

What is told of a run in progress leaves out its world. It keeps the context and the time, for a
late call is waited for up to the deadline and no longer, however late it is. -/

/-- What can be seen of a run in progress without looking at its world. -/
def Progress.told (p : Progress σ) : StepContext × Instant := (p.context, p.now)

structure InstallStep.AgreesUpTo (deadlines : StepLimits) (s s' : InstallStep σ) : Prop where
  platform : s.target.platform = s'.target.platform
  serial : s.target.serial = s'.target.serial
  elevated : s.target.elevated = s'.target.elevated
  check : s.target.check.AgreesUpTo deadlines.validate s'.target.check
  install : ∀ r, (s.installer.install r).AgreesUpTo deadlines.install (s'.installer.install r)

namespace Progress

variable {t : Timer} {c c' : Call σ α} {limit : Span}

theorem await_eq (p : Progress σ) (limit : Span) (h : c p.world = c' p.world) :
    p.await t limit c = p.await t limit c' := by
  rw [await, await, h]

theorem told_await_of_late (p : Progress σ) (h : (c p.world).1.answerBy (t.lasts limit) = none) :
    (p.await t limit c).2.told = (p.context, p.now.add (t.lasts limit)) := by
  simp only [told, await, t.runs_eq_lasts, Reply.awaited_of_late h]

end Progress

namespace InstallStep.AgreesUpTo

variable {deadlines : StepLimits} {t : Timer} {s s' : InstallStep σ} {p : Progress σ}
  {k : BuildConfiguration}

theorem request_eq (h : s.AgreesUpTo deadlines s') (k : BuildConfiguration) :
    s.request k = s'.request k := by
  rw [request, request, h.serial, h.elevated]

theorem checked_eq (h : s.AgreesUpTo deadlines s') (limit : Span)
    (answer : Option (Except Failure Unit)) :
    checked s.target limit answer = checked s'.target limit answer := by
  simp only [checked, h.platform, h.serial]

/-- After the same check, the installs agree. -/
theorem perform_of_check_eq (h : s.AgreesUpTo (t.deadlines p.context.limits) s')
    (hcheck : s.target.check p.world = s'.target.check p.world)
    (hk : p.context.buildConfiguration = .ok k) :
    (s.perform t p).1 = (s'.perform t p).1 ∧ (s.perform t p).2.told = (s'.perform t p).2.told := by
  have hanswer : s.checkAnswer p.world (t.lasts p.context.limits.validate) =
      s'.checkAnswer p.world (t.lasts p.context.limits.validate) := by
    rw [checkAnswer, checkAnswer, hcheck]
  have hchecked := h.checked_eq p.context.limits.validate
    (s.checkAnswer p.world (t.lasts p.context.limits.validate))
  cases hc : checked s.target p.context.limits.validate
      (s.checkAnswer p.world (t.lasts p.context.limits.validate)) with
  | error f =>
    rw [hc, hanswer] at hchecked
    rw [perform_of_unchecked hk hc, perform_of_unchecked hk hchecked.symm, p.await_eq _ hcheck]
    exact ⟨rfl, rfl⟩
  | ok _ =>
    rw [hc, hanswer] at hchecked
    have hready : s.ready t p = s'.ready t p := by rw [ready, ready, p.await_eq _ hcheck]
    have hworld : (s'.ready t p).world = (s.target.check p.world).2 := by
      rw [← hready]
      rfl
    rw [perform_of_checked hk hc, perform_of_checked hk hchecked.symm, installing, installing,
      installAnswer, installAnswer, hready, ← h.request_eq, ← hcheck, ← hworld]
    rcases h.install (s.request k) (s'.ready t p).world with heq | ⟨hlate, hlate'⟩
    · rw [heq, (s'.ready t p).await_eq _ heq]
      exact ⟨rfl, rfl⟩
    · rw [Timer.deadlines_install] at hlate hlate'
      rw [hlate, hlate']
      refine ⟨rfl, ?_⟩
      dsimp only [installed]
      rw [Progress.told_await_of_late _ hlate, Progress.told_await_of_late _ hlate']

/-- Steps that agree under the limits of a context cannot be told apart by their runs on it. -/
theorem perform_eq (h : s.AgreesUpTo (t.deadlines p.context.limits) s') :
    (s.perform t p).1 = (s'.perform t p).1 ∧ (s.perform t p).2.told = (s'.perform t p).2.told := by
  cases hk : p.context.buildConfiguration with
  | error f =>
    rw [InstallStep.perform_eq, InstallStep.perform_eq, hk]
    exact ⟨rfl, rfl⟩
  | ok k =>
    rcases h.check p.world with hcheck | ⟨hlate, hlate'⟩
    · exact perform_of_check_eq h hcheck hk
    · -- nothing is installed after a late check, and what is said of it names the target alone
      have hchecked : ∀ {u : InstallStep σ},
          u.checkAnswer p.world (t.lasts p.context.limits.validate) = none →
            checked u.target p.context.limits.validate
                (u.checkAnswer p.world (t.lasts p.context.limits.validate)) =
              .error (.targetUnreachable (u.target.platform ++ " device " ++ u.target.serial ++
                " did not answer within " ++ p.context.limits.validate.text)) := by
        intro u hu
        rw [hu]
        rfl
      rw [perform_of_unchecked hk (hchecked hlate), perform_of_unchecked hk (hchecked hlate'),
        h.platform, h.serial]
      refine ⟨rfl, ?_⟩
      rw [Progress.told_await_of_late _ hlate, Progress.told_await_of_late _ hlate']

theorem runToCompletion_eq (h : s.AgreesUpTo (t.deadlines p.context.limits) s') :
    (s.runToCompletion t p).1 = (s'.runToCompletion t p).1 ∧
      (s.runToCompletion t p).2.told = (s'.runToCompletion t p).2.told := by
  have hperform := h.perform_eq
  rw [runToCompletion, runToCompletion]
  generalize s.perform t p = ended, s'.perform t p = ended' at hperform
  obtain ⟨result, ⟨context, world, now⟩⟩ := ended
  obtain ⟨result', ⟨context', world', now'⟩⟩ := ended'
  obtain ⟨rfl, htold⟩ := hperform
  cases htold
  rcases result with f | _ <;> exact ⟨rfl, rfl⟩

end InstallStep.AgreesUpTo

/-! ## Runs -/

/-- What can be seen of a run without looking at its world. -/
def RunReport.told (r : RunReport σ) :
    StepOutcome × List RunEvent × List (Nat × RunEvent) × Instant :=
  (r.outcome, r.events, r.deliveries, r.now)

/-- Two bridges with calls that agree up to the deadlines of the check and of the install. -/
structure Bridge.AgreesUpTo (deadlines : StepLimits) (b b' : Bridge σ) : Prop where
  isReachable : ∀ serial,
    (b.isReachable serial).AgreesUpTo deadlines.validate (b'.isReachable serial)
  install : ∀ serial release launcher,
    (b.install serial release launcher).AgreesUpTo deadlines.install
      (b'.install serial release launcher)

namespace Bridge.AgreesUpTo

variable {deadlines : StepLimits} {b b' : Bridge σ} {k : Runner σ}

theorem androidStep (h : b.AgreesUpTo deadlines b') (serial : String) (elevated : Bool) :
    (Android.stepOn b serial elevated).AgreesUpTo deadlines
      (Android.stepOn b' serial elevated) where
  platform := rfl
  serial := rfl
  elevated := rfl
  check := (h.isReachable serial).map _
  install := fun r ↦ (h.install r.serial r.configuration.isRelease r.launcher).map _

theorem told_perform (h : k.bridge.AgreesUpTo (k.timer.deadlines k.limits) b') (kind : StepKind)
    {c : StepContext} (hc : c.limits = k.limits) (now : Instant) (w : σ) (events : List RunEvent) :
    (k.perform kind c now w events).told =
      ((k.withBridge b').perform kind c now w events).told := by
  match kind with
  | .androidInstall =>
    rw [Runner.perform, Runner.perform]
    simp only [StepKind.instantiate, Android.step, Runner.withBridge]
    cases c.deviceSerial with
    | error f => rfl
    | ok serial =>
      have hstep := h.androidStep serial c.requiresElevatedInstall
      rw [← hc] at hstep
      have hrun := InstallStep.AgreesUpTo.runToCompletion_eq (p := ⟨c, w, now⟩) hstep
      simp only [Progress.told, Prod.mk.injEq] at hrun
      simp only [Except.map, RunReport.told, RunReport.delivered, hrun]

/-- Bridges that agree up to the deadlines of a run cannot be told apart by it. -/
theorem told_run (h : k.bridge.AgreesUpTo (k.timer.deadlines k.limits) b') (r : RunRequest)
    (runId : RunId) (now : Instant) (w : σ) :
    (k.run r runId now w).told = ((k.withBridge b').run r runId now w).told := by
  rw [Runner.run, Runner.run]
  simp only [Runner.withBridge_registry, Runner.withBridge_limits]
  split
  · rfl
  · split
    · rfl
    · rcases k.contextFor_cases r runId with ⟨c, hctx, hc⟩ | ⟨f, hctx, -⟩
      · rw [hctx]
        exact h.told_perform _ hc.limits now w _
      · rw [hctx]
        rfl

end Bridge.AgreesUpTo

end BuildFleet
