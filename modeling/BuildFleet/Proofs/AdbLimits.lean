import BuildFleet.CommandLine.Basic
import BuildFleet.Proofs.AdbCommands
import BuildFleet.Proofs.CallAgreement
import BuildFleet.Proofs.LongerLimits

/-!
# The limit on a command of adb

A run has two phases, the check and the install, each under a limit of its own. Inside a phase adb
puts a limit on each of its commands, and the install may take two of them. The limit of adb is only
there so that nothing runs on for ever: it is longer than the limits of both phases, so whenever it
could end a command, the phase that the command belongs to is over already.

What decides is how long the commands of a phase take together. It is never how long adb would have
waited: under every longer limit of adb the run is the same.

## What is asked of the timer

Two limits of different length are compared by their timers, so the timer must not make the longer
limit of adb end first. The limits of a command line are whole seconds, and a timer that keeps those
is enough: no other property of it is used, and there is no bound on the seconds. It is the only
hypothesis of `RunCommand.run_judgedByLimits`, and the lemmas in front of it ask for even less, that
the timers of both phases go off before the one of adb.

## Two ways to say it

That adb never gives up first is said in terms of the commands of a run, which a recording system
has written down: up to a command that has been given up on, more time has been spent than the phase
has. That its limit plays no part at all is said in terms of two runs. The first is an induction on
the commands of a phase, the second is an instance of calls that agree up to a deadline.
-/

namespace BuildFleet

variable {σ : Type}

/-- The timers of the limits of both phases go off before the one of another limit does. -/
structure StepLimits.ExpireBefore (t : Timer) (l : StepLimits) (limit : Span) : Prop where
  validate : (t.lasts l.validate).nanoseconds < (t.lasts limit).nanoseconds
  install : (t.lasts l.install).nanoseconds < (t.lasts limit).nanoseconds

namespace Adb

/-! ## How long a phase takes

A command that takes for ever makes the phase take for ever, so the time of a phase is an option. It
is counted on what the system has answered and not on what adb has waited for, and the two are the
same as long as adb does not give up, which is what the comparison in `spent_le_iff` rests on. -/

/-- How long the commands of a phase take, one after the other, if all of them are answered. -/
def duration? : List IssuedCommand → Option Span
  | [] => some ⟨0⟩
  | i :: is =>
    i.reply.delay?.bind fun d ↦ (duration? is).map fun t ↦ ⟨d.nanoseconds + t.nanoseconds⟩

/-- The commands of a phase are all answered, and together take no longer than a limit. -/
def FinishWithin (limit : Span) (is : List IssuedCommand) : Prop :=
  ∃ t ∈ duration? is, t.nanoseconds ≤ limit.nanoseconds

variable {t : Timer} {c : AdbConfig} {limit : Span}

theorem finishWithin_cons {i : IssuedCommand} {is : List IssuedCommand} :
    FinishWithin limit (i :: is) ↔ ∃ d ∈ i.reply.delay?, d.nanoseconds ≤ limit.nanoseconds ∧
      FinishWithin ⟨limit.nanoseconds - d.nanoseconds⟩ is := by
  simp only [FinishWithin, duration?, Option.mem_def, Option.bind_eq_some_iff,
    Option.map_eq_some_iff]
  constructor
  · rintro ⟨_, ⟨d, hd, t, ht, rfl⟩, hle⟩
    dsimp only at hle
    exact ⟨d, hd, by omega, t, ht, by omega⟩
  · rintro ⟨d, hd, hle, t, ht, hle'⟩
    exact ⟨_, ⟨d, hd, t, ht, rfl⟩, by dsimp only at hle' ⊢; omega⟩

/-- A command that is waited for long enough is answered, unless it takes as long as its limit. -/
theorem waited_cases (t : Timer) (c : AdbConfig) (i : IssuedCommand) :
    (∃ a, i.answer t c = some a ∧ i.reply.delay? = some (i.waited t c)) ∨
      (i.answer t c = none ∧ i.waited t c = t.lasts c.limit ∧
        ∀ d ∈ i.reply.delay?, (t.lasts c.limit).nanoseconds < d.nanoseconds) := by
  rw [IssuedCommand.answer, IssuedCommand.waited]
  rcases i.reply with _ | ⟨d, a⟩
  · exact .inr ⟨rfl, rfl, by simp [Reply.delay?]⟩
  · by_cases hd : d.nanoseconds ≤ (t.lasts c.limit).nanoseconds
    · exact .inl ⟨a, by rw [Reply.answerBy, if_pos hd], by rw [Reply.awaited, if_pos hd]; rfl⟩
    · refine .inr ⟨by rw [Reply.answerBy, if_neg hd], by rw [Reply.awaited, if_neg hd], ?_⟩
      simpa [Reply.delay?] using hd

/-- Under a limit that expires before the one of adb, a phase is over in time if its commands are,
and then none of them has been given up on. -/
theorem spent_le_iff (h : limit.nanoseconds < (t.lasts c.limit).nanoseconds)
    (is : List IssuedCommand) :
    (spent t c is).nanoseconds ≤ limit.nanoseconds ↔ FinishWithin limit is := by
  induction is generalizing limit with
  | nil => exact ⟨fun hle ↦ ⟨⟨0⟩, rfl, hle⟩, fun _ ↦ Nat.zero_le _⟩
  | cons i is ih =>
    rw [spent_cons, finishWithin_cons]
    dsimp only
    rcases waited_cases t c i with ⟨a, -, hdelay⟩ | ⟨-, hwaited, hlate⟩
    · rw [hdelay]
      simp only [Option.mem_some, exists_eq_left']
      rw [← ih (by dsimp only; omega)]
      dsimp only
      omega
    · rw [hwaited]
      constructor
      · intro hle
        omega
      · rintro ⟨d, hd, hle, -⟩
        have hlt := hlate d hd
        omega

theorem exists_answer_of_finishWithin (h : limit.nanoseconds < (t.lasts c.limit).nanoseconds)
    {is : List IssuedCommand} (hin : FinishWithin limit is) :
    ∀ i ∈ is, ∃ a, i.answer t c = some a := by
  induction is generalizing limit with
  | nil => simp
  | cons i is ih =>
    obtain ⟨d, hd, hle, hrest⟩ := finishWithin_cons.mp hin
    refine List.forall_mem_cons.mpr ⟨?_, ih (by dsimp only; omega) hrest⟩
    rcases waited_cases t c i with ⟨a, ha, -⟩ | ⟨-, -, hlate⟩
    · exact ⟨a, ha⟩
    · have hlt := hlate d hd
      omega

/-! ## Other limits of adb -/

section OtherLimit

variable (t : Timer) (sys : ProcessSystem σ) (c : AdbConfig) (serial : String) {seconds : Nat}

theorem resultOf_some (seconds : Nat) (r : Except String ProcessResult) :
    resultOf c (some r) = resultOf { c with timeoutSeconds := seconds } (some r) := by
  match r with
  | .error reason => rfl
  | .ok r => rfl

theorem run_agrees (h : limit.nanoseconds < (t.lasts c.limit).nanoseconds)
    (h' : limit.nanoseconds < (t.lasts (.ofSeconds seconds)).nanoseconds) (command : List String) :
    (run t sys c serial command).AgreesUpTo limit
      (run t sys { c with timeoutSeconds := seconds } serial command) :=
  Call.AgreesUpTo.within _ h h' (resultOf_some c seconds)

theorem installFiles_agrees (h : limit.nanoseconds < (t.lasts c.limit).nanoseconds)
    (h' : limit.nanoseconds < (t.lasts (.ofSeconds seconds)).nanoseconds)
    (paths done : List String) (output : String) :
    (installFiles t sys c serial done output paths).AgreesUpTo limit
      (installFiles t sys { c with timeoutSeconds := seconds } serial done output paths) := by
  induction paths generalizing done output with
  | nil => exact .refl _ _
  | cons path paths ih =>
    refine (run_agrees t sys c serial h h' _).andThen fun r ↦ ?_
    match r with
    | .error e => exact .refl _ _
    | .ok text =>
      dsimp only
      split
      · exact .refl _ _
      · exact ih _ _

/-- If adb gives up on a command only after the limits of both phases, it makes no difference when
it does. -/
theorem bridge_agrees {l : StepLimits} (h : l.ExpireBefore t c.limit)
    (h' : l.ExpireBefore t (.ofSeconds seconds)) :
    (bridge t sys c).AgreesUpTo (t.deadlines l)
      (bridge t sys { c with timeoutSeconds := seconds }) where
  isReachable := fun serial ↦
    ((run_agrees t sys c serial h.validate h'.validate _).map _).map _
  install := fun serial _ _ ↦ installFiles_agrees t sys c serial h.install h'.install _ _ _

end OtherLimit

end Adb

/-! ## The course of a run over adb

The courses of an install are told apart by what comes by the deadlines of the two phases. Over adb
the same courses are told by commands: none, one command for the check, or that one and those of the
install. Each course carries what is known of the time of its phases, and the four facts that are
wanted of a run are read off the courses, one case for each. -/

namespace InstallStep

variable {t : Timer} {s : InstallStep σ} {p : Progress σ} {k : BuildConfiguration}

theorem kind_of_checked {t : Target σ} {limit : Span} {answer : Option (Except Failure Unit)}
    {f : Failure} (h : checked t limit answer = .error f) : f.kind = .targetUnreachable := by
  match answer with
  | none | some (.error (.configuration _)) | some (.error (.targetUnreachable _))
  | some (.error (.installFailure _)) | some (.error (.installTimeout _)) =>
    cases h
    rfl

theorem fst_of_checked (hk : p.context.buildConfiguration = .ok k)
    (hc : checked s.target p.context.limits.validate
      (s.checkAnswer p.world (t.lasts p.context.limits.validate)) = .ok ()) :
    (s.runToCompletion t p).1 = (installed p.context.limits.install
      (s.installAnswer p.world (t.lasts p.context.limits.install) k)).map fun _ ↦ () := by
  rw [fst_runToCompletion, perform_of_checked hk hc]
  split <;> rename_i hinstalled <;> rw [hinstalled] <;> rfl

end InstallStep

namespace Adb

/-- The ways in which a run over adb can go under the limits of its phases, by the commands that it
issues and by how long they take. -/
inductive TimedCourse (t : Timer) (c : AdbConfig) (l : StepLimits) (serial : String) :
    List IssuedCommand → Except Failure Unit → Prop
  /-- The request is unusable, and nothing is asked of adb. -/
  | refused {f : Failure} (hf : f.kind = .configuration) : TimedCourse t c l serial [] (.error f)
  /-- The check takes too long. -/
  | lateCheck {i : IssuedCommand}
    (hi : i.command = ⟨c.program, arguments serial ["get-state"]⟩)
    (h : ¬ FinishWithin (t.lasts l.validate) [i]) :
    TimedCourse t c l serial [i] (.error (.targetUnreachable
      ("android device " ++ serial ++ " did not answer within " ++ l.validate.text)))
  /-- The device is found not to be ready in time. -/
  | failedCheck {i : IssuedCommand}
    (hi : i.command = ⟨c.program, arguments serial ["get-state"]⟩)
    (h : FinishWithin (t.lasts l.validate) [i]) {f : Failure} (hf : f.kind = .targetUnreachable) :
    TimedCourse t c l serial [i] (.error f)
  /-- The commands of the install take too long together. -/
  | lateInstall {i : IssuedCommand}
    (hi : i.command = ⟨c.program, arguments serial ["get-state"]⟩)
    (h : FinishWithin (t.lasts l.validate) [i]) {is : List IssuedCommand} (hne : is ≠ [])
    {release launcher : Bool}
    (his : is.map IssuedCommand.command <+: c.installCommands serial release launcher)
    (hlate : ¬ FinishWithin (t.lasts l.install) is) :
    TimedCourse t c l serial (i :: is) (.error (.installTimeout l.install))
  /-- The install ends in time, well or not. -/
  | settled {i : IssuedCommand}
    (hi : i.command = ⟨c.program, arguments serial ["get-state"]⟩)
    (h : FinishWithin (t.lasts l.validate) [i]) {is : List IssuedCommand} (hne : is ≠ [])
    {release launcher : Bool}
    (his : is.map IssuedCommand.command <+: c.installCommands serial release launcher)
    (hin : FinishWithin (t.lasts l.install) is) {result : Except Failure Unit}
    (hf : ∀ f, result = .error f → f.kind = .installFailure) :
    TimedCourse t c l serial (i :: is) result

theorem finishWithin_nil (limit : Span) : FinishWithin limit [] := ⟨⟨0⟩, rfl, Nat.zero_le _⟩

namespace TimedCourse

variable {t : Timer} {c : AdbConfig} {l : StepLimits} {serial : String}
  {issued : List IssuedCommand}
  {result : Except Failure Unit}

theorem inOrder (h : TimedCourse t c l serial issued result) :
    issued = [] ∨ ∃ release launcher, issued.map IssuedCommand.command <+:
      ⟨c.program, arguments serial ["get-state"]⟩ ::
        c.installCommands serial release launcher := by
  match h with
  | refused _ => exact .inl rfl
  | lateCheck hi _ | failedCheck hi _ _ =>
    refine .inr ⟨false, false, ?_⟩
    rw [List.map_cons, hi]
    exact (List.prefix_cons_inj _).mpr List.nil_prefix
  | lateInstall hi _ _ his _ | settled hi _ _ his _ _ =>
    simp only [List.map_cons, hi]
    exact .inr ⟨_, _, (List.prefix_cons_inj _).mpr his⟩

theorem of_late_check (h : TimedCourse t c l serial issued result)
    (hlate : ¬ FinishWithin (t.lasts l.validate) (issued.take 1)) :
    issued ≠ [] ∧ result = .error (.targetUnreachable
      ("android device " ++ serial ++ " did not answer within " ++ l.validate.text)) := by
  match h with
  | refused _ => exact absurd (finishWithin_nil _) hlate
  | lateCheck _ _ => exact ⟨List.cons_ne_nil _ _, rfl⟩
  | failedCheck _ hin _ | lateInstall _ hin _ _ _ | settled _ hin _ _ _ _ => exact absurd hin hlate

theorem of_late_install (h : TimedCourse t c l serial issued result)
    (hlate : ¬ FinishWithin (t.lasts l.install) issued.tail) :
    result = .error (.installTimeout l.install) := by
  match h with
  | refused _ | lateCheck _ _ | failedCheck _ _ _ => exact absurd (finishWithin_nil _) hlate
  | lateInstall _ _ _ _ _ => rfl
  | settled _ _ _ _ hin _ => exact absurd hin hlate

theorem of_install_in_time (h : TimedCourse t c l serial issued result)
    (hin : FinishWithin (t.lasts l.install) issued.tail) {f : Failure} (hf : result = .error f) :
    f.kind ≠ .installTimeout := by
  match h with
  | refused hkind | failedCheck _ _ hkind =>
    cases hf
    rw [hkind]
    decide
  | lateCheck _ _ =>
    cases hf
    exact FailureKind.noConfusion
  | lateInstall _ _ _ _ hlate => exact absurd hin hlate
  | settled _ _ _ _ _ hkind =>
    rw [hkind f hf]
    decide

end TimedCourse

section Course

variable (t : Timer) (sys : ProcessSystem σ) (c : AdbConfig) (serial : String) (elevated : Bool)
  {limit : Span}

theorem exists_check (h : limit.nanoseconds < (t.lasts c.limit).nanoseconds) (w : σ) :
    ∃ (i : IssuedCommand) (w' : σ),
      i.command = ⟨c.program, arguments serial ["get-state"]⟩ ∧
        ((Android.stepOn (bridge t sys.recording c) serial elevated).target.check (w, [])).2 =
          (w', [i]) ∧
        ((Android.stepOn (bridge t sys.recording c) serial elevated).checkAnswer (w, []) limit =
          none ↔ ¬ FinishWithin limit [i]) := by
  obtain ⟨i, w', hi, hrun⟩ := exists_run_waited t sys c serial ["get-state"] w []
  have hcheck : (Android.stepOn (bridge t sys.recording c) serial elevated).target.check (w, []) =
      (.after (i.waited t c) (Android.reachability serial
        (readiness ((resultOf c (i.answer t c)).map Text.trim))), (w', [i])) := by
    change ((((run t sys.recording c serial ["get-state"]).map _).map readiness).map
      (Android.reachability serial)) (w, []) = _
    simp only [Call.map, hrun]
    rfl
  refine ⟨i, w', hi, by rw [hcheck], ?_⟩
  rw [InstallStep.checkAnswer, hcheck, Reply.answerBy_eq_none_iff, ← spent_le_iff h, spent_cons]
  simp [Reply.delay?, spent]

/-- The install is made of commands in order, and late if they are together. An install that is in
time does not fail by a limit. -/
theorem exists_install (h : limit.nanoseconds < (t.lasts c.limit).nanoseconds)
    (k : BuildConfiguration) (w : σ) (i : IssuedCommand) :
    ∃ (is : List IssuedCommand) (answer : Except Failure InstallReport) (w' : σ),
      is ≠ [] ∧
        is.map IssuedCommand.command <+: c.installCommands serial k.isRelease elevated ∧
        (Android.stepOn (bridge t sys.recording c) serial elevated).installer.install
            ⟨serial, k, elevated⟩ (w, [i]) = (.after (spent t c is) answer, (w', i :: is)) ∧
        (FinishWithin limit is → ∀ f, answer = .error f → f.kind = .installFailure) := by
  obtain ⟨is, r, w', hinstalls, hrun⟩ :=
    exists_installFiles_spent t sys c serial (c.packages k.isRelease elevated) [] "" w [i]
  refine ⟨is, Android.installation (r.map fun text ↦ ⟨c.packages k.isRelease elevated, text⟩), w',
    ?_, hinstalls.isPrefix_issued, ?_, ?_⟩
  case refine_1 =>
    rintro rfl
    cases hinstalls
  case refine_2 =>
    change ((installFiles t sys.recording c serial [] "" (c.installPaths k.isRelease elevated)).map
      Android.installation) (w, [i]) = _
    rw [c.installPaths_eq_packages, Call.map, hrun]
    simp [Reply.map]
  case refine_3 =>
    intro hin f hf
    rcases r with e | text
    · obtain ⟨last, hlast, hwrong⟩ := hinstalls.of_error
      obtain ⟨a, ha⟩ := exists_answer_of_finishWithin h hin last (List.mem_of_getLast? hlast)
      -- adb has not given up on the command that went wrong
      have hnot : ∀ seconds, e ≠ .timeout seconds := by
        rintro seconds rfl
        cases hwrong with
        | failed hfails =>
          cases hfails with
          | late hlate =>
            rw [ha] at hlate
            cases hlate
      cases e with
      | timeout seconds => exact absurd rfl (hnot seconds)
      | spawn | commandFailed | rejected | decode =>
        cases hf
        rfl
    · cases hf

variable {t c sys serial elevated} {ctx : StepContext} {k : BuildConfiguration}

theorem timedCourse_of_unchecked (h : ctx.limits.ExpireBefore t c.limit) (w : σ) (now : Instant)
    {f : Failure} (hk : ctx.buildConfiguration = .ok k)
    (hc : InstallStep.checked (Android.stepOn (bridge t sys.recording c) serial elevated).target
      ctx.limits.validate ((Android.stepOn (bridge t sys.recording c) serial elevated).checkAnswer
        (w, []) (t.lasts ctx.limits.validate)) = .error f) :
    let run := (Android.stepOn (bridge t sys.recording c) serial elevated).runToCompletion t
      ⟨ctx, (w, []), now⟩
    TimedCourse t c ctx.limits serial run.2.world.2 run.1 := by
  intro run
  obtain ⟨i, w', hi, hissued, hcheck⟩ := exists_check t sys c serial elevated h.validate w
  have hfirst : run.1 = .error f := by
    rw [InstallStep.fst_runToCompletion, InstallStep.perform_of_unchecked hk hc]
  have hlast : run.2.world.2 = [i] := by
    rw [InstallStep.world_of_unchecked hk hc]
    exact congrArg Prod.snd hissued
  rw [hfirst, hlast]
  by_cases hlate : FinishWithin (t.lasts ctx.limits.validate) [i]
  · exact .failedCheck hi hlate (InstallStep.kind_of_checked hc)
  · rw [hcheck.mpr hlate] at hc
    cases hc
    exact .lateCheck hi hlate

theorem timedCourse_of_checked (h : ctx.limits.ExpireBefore t c.limit) (w : σ) (now : Instant)
    (hk : ctx.buildConfiguration = .ok k)
    (hc : InstallStep.checked (Android.stepOn (bridge t sys.recording c) serial elevated).target
      ctx.limits.validate ((Android.stepOn (bridge t sys.recording c) serial elevated).checkAnswer
        (w, []) (t.lasts ctx.limits.validate)) = .ok ()) :
    let run := (Android.stepOn (bridge t sys.recording c) serial elevated).runToCompletion t
      ⟨ctx, (w, []), now⟩
    TimedCourse t c ctx.limits serial run.2.world.2 run.1 := by
  let s := Android.stepOn (bridge t sys.recording c) serial elevated
  intro run
  obtain ⟨i, w', hi, hissued, hcheck⟩ := exists_check t sys c serial elevated h.validate w
  have hin : FinishWithin (t.lasts ctx.limits.validate) [i] := by
    by_contra hlate
    rw [hcheck.mpr hlate] at hc
    cases hc
  obtain ⟨is, answer, w'', hne, his, hinstall, hkind⟩ :=
    exists_install t sys c serial elevated h.install k w' i
  have hinstall' : s.installer.install (s.request k) (s.target.check (w, [])).2 =
      (.after (spent t c is) answer, (w'', i :: is)) := by
    rw [← hinstall, hissued]
    rfl
  have hlast : run.2.world.2 = i :: is := by
    rw [InstallStep.world_of_checked hk hc, hinstall']
  have hanswer : s.installAnswer (w, []) (t.lasts ctx.limits.install) k =
      if (spent t c is).nanoseconds ≤ (t.lasts ctx.limits.install).nanoseconds then some answer
      else none := by
    rw [InstallStep.installAnswer, hinstall']
    rfl
  rw [InstallStep.fst_of_checked hk hc, hlast]
  change TimedCourse t c ctx.limits serial (i :: is)
    ((InstallStep.installed ctx.limits.install
      (s.installAnswer (w, []) (t.lasts ctx.limits.install) k)).map fun _ ↦ ())
  rw [hanswer]
  by_cases hlate : FinishWithin (t.lasts ctx.limits.install) is
  · rw [if_pos ((spent_le_iff h.install is).mpr hlate)]
    refine .settled hi hin hne his hlate fun f hf ↦ ?_
    rcases answer with e | report
    · rw [InstallStep.installed_of_kind (.inl (hkind hlate e rfl))] at hf
      cases hf
      exact hkind hlate f rfl
    · cases hf
  · rw [if_neg ((spent_le_iff h.install is).not.mpr hlate)]
    exact .lateInstall hi hin hne his hlate

/-- Under limits that expire before the one of adb, the run of a step over adb goes by the
courses. -/
theorem timedCourse_runToCompletion (h : ctx.limits.ExpireBefore t c.limit) (w : σ) (now : Instant)
    {result : Except Failure Unit} {p : Progress (σ × List IssuedCommand)}
    (hrun : (Android.stepOn (bridge t sys.recording c) serial elevated).runToCompletion t
      ⟨ctx, (w, []), now⟩ = (result, p)) :
    TimedCourse t c ctx.limits serial p.world.2 result := by
  let s := Android.stepOn (bridge t sys.recording c) serial elevated
  let start : Progress (σ × List IssuedCommand) := ⟨ctx, (w, []), now⟩
  have hresult : result = (s.runToCompletion t start).1 := congrArg Prod.fst hrun.symm
  have hworld : p.world = (s.runToCompletion t start).2.world :=
    congrArg (fun run ↦ run.2.world) hrun.symm
  rw [hresult, hworld]
  cases hk : start.context.buildConfiguration with
  | error f =>
    have hperform : s.perform t start = (.error f, start) := by rw [InstallStep.perform_eq, hk]
    rw [InstallStep.world_runToCompletion, InstallStep.fst_runToCompletion, hperform]
    exact .refused (BuildConfiguration.kind_of_parse hk)
  | ok k =>
    cases hc : InstallStep.checked s.target ctx.limits.validate
        (s.checkAnswer (w, []) (t.lasts ctx.limits.validate)) with
    | error f => exact timedCourse_of_unchecked h w now hk hc
    | ok _ => exact timedCourse_of_checked h w now hk hc

end Course

end Adb

/-! ## Runs of the program -/

namespace StepOutcome

variable {o : StepOutcome}

theorem failureKind?_of_ok (h : o.state.Settles (.ok ())) : o.failureKind? = none := by
  obtain ⟨t, u, ht⟩ := h
  rw [failureKind?, ht]

theorem failure_of_error {f : Failure} (h : o.state.Settles (.error f)) :
    o.failureKind? = some f.kind ∧ o.error? = some f.message := by
  obtain ⟨t, ht⟩ := h
  rw [failureKind?, error?, ht]
  exact ⟨rfl, rfl⟩

end StepOutcome

namespace RunCommand

def issued (c : RunCommand) (registry : Registry) (t : Timer) (sys : ProcessSystem σ)
    (runId : RunId) (now : Instant) (w : σ) : List IssuedCommand :=
  ((c.runner registry t sys.recording).run c.request runId now (w, [])).world.2

variable {t : Timer} {c : RunCommand}

theorem expireBefore (ht : t.KeepsSeconds) {seconds : Nat}
    (hle : c.toAdbConfig.timeoutSeconds ≤ seconds) :
    c.toLimits.ExpireBefore t (.ofSeconds seconds) := by
  have hmax : max c.validateTimeout c.installTimeout + 60 ≤ seconds := hle
  have hvalidate : t.lasts c.toLimits.validate = .ofSeconds c.validateTimeout := ht _
  have hinstall : t.lasts c.toLimits.install = .ofSeconds c.installTimeout := ht _
  have hadb : t.lasts (.ofSeconds seconds) = .ofSeconds seconds := ht _
  constructor
  case validate =>
    rw [hvalidate, hadb]
    simp only [Span.ofSeconds, Span.ofParts, Span.perSecond]
    omega
  case install =>
    rw [hinstall, hadb]
    simp only [Span.ofSeconds, Span.ofParts, Span.perSecond]
    omega

/-- The run of a command goes by one of the courses, for the device that the command names. -/
theorem exists_timedCourse (h : c.toLimits.ExpireBefore t c.toAdbConfig.limit)
    (registry : Registry) (sys : ProcessSystem σ) (runId : RunId) (now : Instant) (w : σ) :
    ∃ (serial : String) (result : Except Failure Unit),
      (c.issued registry t sys runId now w = [] ∨ c.serial = some serial) ∧
        Adb.TimedCourse t c.toAdbConfig c.toLimits serial (c.issued registry t sys runId now w)
          result ∧
        ((c.runner registry t sys).run c.request runId now w).outcome.state.Settles result := by
  have hfollows : (c.runner registry t sys).run c.request runId now w =
      ((c.runner registry t sys.recording).run c.request runId now (w, [])).map Prod.fst :=
    (Adb.bridge_recording_follows t sys c.toAdbConfig).run_eq (k := c.runner registry t sys)
      c.request runId now (w, [])
  have hexit := (c.runner registry t sys.recording).exit_run c.request runId now (w, [])
  rw [hfollows, issued]
  generalize (c.runner registry t sys.recording).run c.request runId now (w, []) = report at hexit
  cases hexit with
  | nameless => exact ⟨"", .error _, .inl rfl, .refused rfl, now, rfl⟩
  | unknown _ hf => exact ⟨"", .error _, .inl rfl, .refused (StepKind.kind_of_parse hf), now, rfl⟩
  | workerless _ _ hf =>
    exact ⟨"", .error _, .inl rfl, .refused (Host.kind_of_selectWorker hf), now, rfl⟩
  | deviceless _ _ hc hf =>
    have hopen : StepState.isTerminal _ = false := congrArg StepState.isTerminal hc.fresh.created
    exact ⟨"", .error _, .inl rfl, .refused (StepContext.kind_of_deviceSerial hf), now,
      StepContext.markFailed_state hopen _ _⟩
  | @complete _ _ _ ctx hc serial hserial result p hrun =>
    have hlimits : ctx.limits = c.toLimits := hc.limits
    have hparams : ctx.params = c.toParams := hc.params
    have hopen : ctx.state.isTerminal = false := congrArg StepState.isTerminal hc.fresh.created
    have hcourse := Adb.timedCourse_runToCompletion (c := c.toAdbConfig) (hlimits ▸ h) w now hrun
    have hsettles := InstallStep.runToCompletion_settles (p := ⟨ctx, (w, []), now⟩) t
      (Android.stepOn (Adb.bridge t sys.recording c.toAdbConfig) serial
        ctx.requiresElevatedInstall) hopen
    rw [hlimits] at hcourse
    refine ⟨serial, result, .inr ?_, hcourse, ?_⟩
    · rcases ctx.deviceSerial_cases with ⟨named, hnamed, -, hok⟩ | ⟨-, herror⟩
      · rw [hserial] at hok
        cases hok
        rw [hparams] at hnamed
        exact hnamed
      · rw [hserial] at herror
        cases herror
    · have hrun' := congrArg (fun run ↦ run.2.context.state.Settles run.1) hrun
      exact hrun'.mp hsettles

end RunCommand

/-- Before adb gives up on a command of a phase, the phase is over. -/
structure Adb.EndsBeforeGivingUp (t : Timer) (c : AdbConfig) (limit : Span)
    (is : List IssuedCommand) : Prop where
  /-- Whenever a command has been given up on, more than the limit has been spent on the commands
  up to this one. -/
  givenUp : ∀ before i after, is = before ++ i :: after → i.answer t c = none →
    limit.nanoseconds < (spent t c (before ++ [i])).nanoseconds
  /-- If the commands finish within the limit, none of them is given up on. -/
  answered : FinishWithin limit is → ∀ i ∈ is, ∃ a, i.answer t c = some a

theorem Adb.endsBeforeGivingUp_of_lt {t : Timer} {c : AdbConfig} {limit : Span}
    (h : limit.nanoseconds < (t.lasts c.limit).nanoseconds) (is : List IssuedCommand) :
    EndsBeforeGivingUp t c limit is := by
  refine ⟨?_, exists_answer_of_finishWithin h⟩
  intro before i after _ hnone
  rw [← Nat.not_le, spent_le_iff h]
  intro hin
  obtain ⟨a, ha⟩ := exists_answer_of_finishWithin h hin i (by simp)
  rw [hnone] at ha
  cases ha

namespace RunCommand

/-- What the commands that are issued in a run have to do with its outcome. The first one is the
check, and the others are the install. -/
structure JudgedByLimits (t : Timer) (c : RunCommand) (issued : List IssuedCommand)
    (o : StepOutcome) : Prop where
  inOrder : issued = [] ∨ ∃ serial release launcher, c.serial = some serial ∧
    issued.map IssuedCommand.command <+:
      ⟨c.adb.getD "adb", ["-s", serial, "get-state"]⟩ ::
        c.toAdbConfig.installCommands serial release launcher
  check : Adb.EndsBeforeGivingUp t c.toAdbConfig (.ofSeconds c.validateTimeout) (issued.take 1)
  install : Adb.EndsBeforeGivingUp t c.toAdbConfig (.ofSeconds c.installTimeout) issued.tail
  /-- A check that takes too long is reported with its limit. -/
  lateCheck : ¬ Adb.FinishWithin (.ofSeconds c.validateTimeout) (issued.take 1) →
    ∃ serial, c.serial = some serial ∧ o.failureKind? = some .targetUnreachable ∧
      o.error? = some ("Target unreachable: " ++ ("android device " ++ serial ++
        " did not answer within " ++ (Span.ofSeconds c.validateTimeout).text))
  installTimeout_iff : o.failureKind? = some .installTimeout ↔
    ¬ Adb.FinishWithin (.ofSeconds c.installTimeout) issued.tail
  /-- And so is an install. -/
  lateInstall : o.failureKind? = some .installTimeout →
    o.error? = some ("Install timed out after " ++ (Span.ofSeconds c.installTimeout).text)

variable {t : Timer} {c : RunCommand}

theorem judgedByLimits_of_timedCourse (ht : t.KeepsSeconds) {issued : List IssuedCommand}
    {o : StepOutcome} {serial : String} {result : Except Failure Unit}
    (hserial : issued = [] ∨ c.serial = some serial)
    (hcourse : Adb.TimedCourse t c.toAdbConfig c.toLimits serial issued result)
    (hsettles : o.state.Settles result) : c.JudgedByLimits t issued o := by
  have hexpire : c.toLimits.ExpireBefore t c.toAdbConfig.limit := expireBefore ht le_rfl
  have hvalidate : t.lasts c.toLimits.validate = .ofSeconds c.validateTimeout := ht _
  have hinstall : t.lasts c.toLimits.install = .ofSeconds c.installTimeout := ht _
  have hlateInstall : ¬ Adb.FinishWithin (.ofSeconds c.installTimeout) issued.tail →
      o.failureKind? = some .installTimeout ∧
        o.error? = some ("Install timed out after " ++ (Span.ofSeconds c.installTimeout).text) := by
    intro hlate
    rw [← hinstall] at hlate
    rw [hcourse.of_late_install hlate] at hsettles
    exact StepOutcome.failure_of_error hsettles
  have hinTime : Adb.FinishWithin (.ofSeconds c.installTimeout) issued.tail →
      o.failureKind? ≠ some .installTimeout := by
    intro hin hkind
    rw [← hinstall] at hin
    match result with
    | .ok () =>
      rw [StepOutcome.failureKind?_of_ok hsettles] at hkind
      cases hkind
    | .error f =>
      rw [(StepOutcome.failure_of_error hsettles).1] at hkind
      exact hcourse.of_install_in_time hin rfl (Option.some.inj hkind)
  constructor
  case inOrder =>
    rcases hcourse.inOrder with hnone | ⟨release, launcher, hissued⟩
    · exact .inl hnone
    · exact hserial.imp_right fun hserial ↦ ⟨serial, release, launcher, hserial, hissued⟩
  case check =>
    rw [← hvalidate]
    exact Adb.endsBeforeGivingUp_of_lt hexpire.validate _
  case install =>
    rw [← hinstall]
    exact Adb.endsBeforeGivingUp_of_lt hexpire.install _
  case lateCheck =>
    intro hlate
    rw [← hvalidate] at hlate
    obtain ⟨hissued, hresult⟩ := hcourse.of_late_check hlate
    rw [hresult] at hsettles
    obtain ⟨hkind, herror⟩ := StepOutcome.failure_of_error hsettles
    exact ⟨serial, hserial.resolve_left hissued, hkind, herror⟩
  case installTimeout_iff =>
    exact ⟨fun hkind hin ↦ hinTime hin hkind, fun hlate ↦ (hlateInstall hlate).1⟩
  case lateInstall =>
    intro hkind
    exact (hlateInstall fun hin ↦ hinTime hin hkind).2

/-- By timers that go off exactly at their limits, a run over adb is judged by its own limits, and
never by the one of adb: with any longer one it would be the same. -/
theorem run_judgedByLimits (c : RunCommand) (t : Timer) (ht : t.KeepsSeconds) (registry : Registry)
    (sys : ProcessSystem σ) (runId : RunId) (now : Instant) (w : σ) :
    c.JudgedByLimits t (c.issued registry t sys runId now w)
        ((c.runner registry t sys).run c.request runId now w).outcome ∧
      ∀ seconds, c.toAdbConfig.timeoutSeconds ≤ seconds →
        ((c.runner registry t sys).run c.request runId now w).told =
          (((c.runner registry t sys).withBridge
            (Adb.bridge t sys { c.toAdbConfig with timeoutSeconds := seconds })).run
              c.request runId now w).told := by
  have hexpire : c.toLimits.ExpireBefore t c.toAdbConfig.limit := expireBefore ht le_rfl
  constructor
  · obtain ⟨serial, result, hserial, hcourse, hsettles⟩ :=
      exists_timedCourse hexpire registry sys runId now w
    exact judgedByLimits_of_timedCourse ht hserial hcourse hsettles
  · intro seconds hle
    have hagrees := Adb.bridge_agrees t sys c.toAdbConfig hexpire (expireBefore ht hle)
    exact hagrees.told_run (k := c.runner registry t sys) c.request runId now w

/-! ### Two commands that are too long together -/

/-- A system in which a check takes half a minute and an install a minute, and both go well. -/
def unhurried : ProcessSystem Unit := fun _ arguments w ↦
  if arguments.contains "install" then
    (.after (.ofSeconds 60) (.ok ⟨.exited 0, Text.Utf8.encode "Success", []⟩), w)
  else (.after (.ofSeconds 30) (.ok ⟨.exited 0, Text.Utf8.encode "device", []⟩), w)

/-- An install of the application and the launcher, with limits on the check and on the install. -/
def bothPackages (validateTimeout installTimeout : Nat) : RunCommand where
  step := Android.stepName
  host := "h"
  worker := some "full"
  configuration := "Release"
  serial := some "a"
  revision := none
  gotRevision := none
  validateTimeout := validateTimeout
  installTimeout := installTimeout
  adb := none
  apkDir := "out"
  apkName := "app.apk"
  launcherApkName := "launcher.apk"
  json := false

/-- With 100 seconds for the install it takes too long, although adb would have waited for 160 on
each of its commands. -/
theorem run_judgedByLimits_of_two_commands :
    let c := bothPackages 30 100
    let registry := Runner.overTwoWorkers.registry
    let issued := c.issued registry .ticking unhurried default default ()
    let run := (c.runner registry .ticking unhurried).run c.request default default ()
    Timer.ticking.KeepsSeconds ∧ (∀ i ∈ issued, ∃ a, i.answer .ticking c.toAdbConfig = some a) ∧
      c.JudgedByLimits .ticking issued run.outcome ∧
      run.outcome.error? = some "Install timed out after 100s" := by
  have ht : Timer.ticking.KeepsSeconds := Timer.isReliable_ticking.keepsSeconds
  refine ⟨ht, ?_, ?_, by decide⟩
  · simp only [← Option.isSome_iff_exists]
    decide
  · exact (run_judgedByLimits _ .ticking ht _ _ _ _ _).1

end RunCommand

end BuildFleet
