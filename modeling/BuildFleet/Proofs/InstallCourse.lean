import BuildFleet.Proofs.Lifecycle
import BuildFleet.Proofs.Recording

/-!
# The course of an install

What a run of the install step comes to is laid down by eight rules, one for each way in which it
can go. A rule tells the result, what the target and the installer have been asked, the moves of the
context and what has been noted. The rules look at the answers that have come by two deadlines, and
at nothing else of the time: how long the check has taken plays no part in the install.

## Deadlines and limits

The deadlines of a run are not its limits but what timers make of them, so the rules take the
deadlines as parameters. With the deadlines of its timers they hold of every run, whatever the
timers are. With the limits themselves they hold as far as reliable timers can tell: of a limit that
is whole milliseconds, and of any limit unless the answer comes after it by less than a millisecond.
Such an answer may be taken although it is late, and by a timer that ticks it can be.
-/

namespace BuildFleet

variable {σ : Type}

/-! ## Records -/

/-- The names of the states that a move left and entered. -/
def StateTransition.names (t : StateTransition) : String × String := (t.source, t.target)

namespace Moves

def failedEarly : List (String × String) := [("Created", "Failed")]

def failedLate : List (String × String) :=
  [("Created", "Validated"), ("Validated", "Executing"), ("Executing", "Failed")]

def succeeded : List (String × String) :=
  [("Created", "Validated"), ("Validated", "Executing"), ("Executing", "Succeeded")]

end Moves

/-- What can be told of the run of an install step when it is over. -/
structure InstallRecord where
  result : Except Failure Unit
  /-- What the target and the installer have been asked, in order. -/
  calls : List StepCall
  /-- The moves of the context, by the names of the states. -/
  moves : List (String × String)
  /-- The notes of the context. -/
  metadata : Dictionary String

namespace StepContext

def moves (c : StepContext) : List (String × String) := c.transitions.map StateTransition.names

/-- Nothing has happened in the run yet. -/
structure IsFresh (c : StepContext) : Prop where
  created : c.state = .created
  unmoved : c.transitions = []

end StepContext

namespace InstallStep

/-- The record of a run from a context at a point in time. -/
def record (t : Timer) (s : InstallStep σ) (c : StepContext) (now : Instant) (w : σ) :
    InstallRecord where
  result := (s.runToCompletion t ⟨c, w, now⟩).1
  calls := (s.recording.runToCompletion t ⟨c, (w, []), now⟩).2.world.2
  moves := (s.runToCompletion t ⟨c, w, now⟩).2.context.moves
  metadata := (s.runToCompletion t ⟨c, w, now⟩).2.context.metadata

end InstallStep

/-! ## The rules -/

/-- What has come of the check by a deadline. -/
def InstallStep.checkAnswer (s : InstallStep σ) (w : σ) (deadline : Span) :
    Option (Except Failure Unit) :=
  (s.target.check w).1.answerBy deadline

/-- What has come of the install by a deadline, in the world that the check has left. -/
def InstallStep.installAnswer (s : InstallStep σ) (w : σ) (deadline : Span)
    (configuration : BuildConfiguration) : Option (Except Failure InstallReport) :=
  (s.installer.install (s.request configuration) (s.target.check w).2).1.answerBy deadline

/-- The ways in which an install can go, given the deadlines of the check and of the install. -/
inductive InstallCourse (checkBy installBy : Span) (s : InstallStep σ) (c : StepContext) (w : σ) :
    InstallRecord → Prop
  /-- No configuration has the name that was given: neither capability is asked. -/
  | unrecognized (h : ∀ k : BuildConfiguration, k.name ≠ c.params.configuration) :
    InstallCourse checkBy installBy s c w
      ⟨.error (.configuration ("unrecognized build configuration '" ++ c.params.configuration ++
        "' (expected Release or Debug)")), [], Moves.failedEarly, c.metadata⟩
  /-- The check is not answered in time. -/
  | unanswered {k : BuildConfiguration} (hk : k.name = c.params.configuration)
    (h : s.checkAnswer w checkBy = none) :
    InstallCourse checkBy installBy s c w
      ⟨.error (.targetUnreachable (s.target.platform ++ " device " ++ s.target.serial ++
        " did not answer within " ++ c.limits.validate.text)), [.check], Moves.failedEarly,
        c.metadata⟩
  /-- The target says that it cannot be reached, and that is passed on. -/
  | unreachable {k : BuildConfiguration} (hk : k.name = c.params.configuration) {detail : String}
    (h : s.checkAnswer w checkBy = some (.error (.targetUnreachable detail))) :
    InstallCourse checkBy installBy s c w
      ⟨.error (.targetUnreachable detail), [.check], Moves.failedEarly, c.metadata⟩
  /-- The check fails in any other way: the target counts as unreachable. -/
  | unfit {k : BuildConfiguration} (hk : k.name = c.params.configuration) {f : Failure}
    (h : s.checkAnswer w checkBy = some (.error f)) (hf : f.kind ≠ .targetUnreachable) :
    InstallCourse checkBy installBy s c w
      ⟨.error (.targetUnreachable f.message), [.check], Moves.failedEarly, c.metadata⟩
  /-- The install is not answered in time. -/
  | overrun {k : BuildConfiguration} (hk : k.name = c.params.configuration)
    (hc : s.checkAnswer w checkBy = some (.ok ()))
    (h : s.installAnswer w installBy k = none) :
    InstallCourse checkBy installBy s c w
      ⟨.error (.installTimeout c.limits.install),
        [.check, .install ⟨s.target.serial, k, s.target.elevated⟩], Moves.failedLate, c.metadata⟩
  /-- The installer reports a failed install or one that took too long, and that is passed on. -/
  | failed {k : BuildConfiguration} (hk : k.name = c.params.configuration)
    (hc : s.checkAnswer w checkBy = some (.ok ())) {f : Failure}
    (h : s.installAnswer w installBy k = some (.error f))
    (hf : f.kind = .installFailure ∨ f.kind = .installTimeout) :
    InstallCourse checkBy installBy s c w
      ⟨.error f, [.check, .install ⟨s.target.serial, k, s.target.elevated⟩], Moves.failedLate,
        c.metadata⟩
  /-- The installer fails in any other way: the install counts as failed. -/
  | broken {k : BuildConfiguration} (hk : k.name = c.params.configuration)
    (hc : s.checkAnswer w checkBy = some (.ok ())) {f : Failure}
    (h : s.installAnswer w installBy k = some (.error f))
    (hf : f.kind ≠ .installFailure ∧ f.kind ≠ .installTimeout) :
    InstallCourse checkBy installBy s c w
      ⟨.error (.installFailure f.message),
        [.check, .install ⟨s.target.serial, k, s.target.elevated⟩], Moves.failedLate, c.metadata⟩
  /-- The install is reported, and what it has placed is noted. -/
  | installed {k : BuildConfiguration} (hk : k.name = c.params.configuration)
    (hc : s.checkAnswer w checkBy = some (.ok ())) {report : InstallReport}
    (h : s.installAnswer w installBy k = some (.ok report)) :
    InstallCourse checkBy installBy s c w
      ⟨.ok (), [.check, .install ⟨s.target.serial, k, s.target.elevated⟩], Moves.succeeded,
        (c.metadata.insert "installed_packages" (",".intercalate report.packages)).insert
          "configuration" k.name⟩

/-! ## Fresh contexts -/

namespace StepContext

theorem moves_advance {c : StepContext} {next : StepState} (now : Instant)
    (h : c.state.canAdvanceTo next = true) :
    (c.advance next now).2.moves = c.moves ++ [(c.state.name, next.name)] := by
  rw [advance_of_canAdvanceTo now h, moves, moved, List.map_append]
  rfl

namespace IsFresh

variable {c : StepContext}

theorem moves_eq (hc : c.IsFresh) : c.moves = [] := by
  rw [moves, hc.unmoved, List.map_nil]

theorem moves_markFailed (hc : c.IsFresh) (f : Failure) (now : Instant) :
    (c.markFailed f now).2.moves = Moves.failedEarly := by
  rw [markFailed, moves_advance now (by rw [hc.created]; rfl), hc.moves_eq, hc.created]
  rfl

theorem executing (hc : c.IsFresh) (now : Instant) :
    ((c.markValidated now).2.markExecuting now).2 =
      (c.moved (.validated now) now).moved (.executing now) now := by
  rw [markValidated, advance_of_canAdvanceTo now (by rw [hc.created]; rfl), markExecuting,
    advance_of_canAdvanceTo now (by rfl)]

theorem moves_executing (hc : c.IsFresh) (now : Instant) :
    ((c.moved (.validated now) now).moved (.executing now) now).moves =
      [("Created", "Validated"), ("Validated", "Executing")] := by
  simp only [moves, moved, hc.unmoved, hc.created]
  rfl

end IsFresh

end StepContext

namespace InstallStep

/-- A run whose check has passed, about to install. -/
def ready (t : Timer) (s : InstallStep σ) (p : Progress σ) : Progress σ :=
  ((p.await t p.context.limits.validate s.target.check).2.move StepContext.markValidated).move
    StepContext.markExecuting

theorem ready_limits (t : Timer) (s : InstallStep σ) (p : Progress σ) :
    (s.ready t p).context.limits = p.context.limits :=
  (StepContext.sameRun_of_reaches
    ((Relation.ReflTransGen.single (.advance _ _)).tail (.advance _ _))).limits

theorem ready_metadata (t : Timer) (s : InstallStep σ) (p : Progress σ) :
    (s.ready t p).context.metadata = p.context.metadata :=
  (StepContext.advance_metadata _ _ _).trans (StepContext.advance_metadata _ _ _)

theorem note_moves (k : BuildConfiguration) (report : InstallReport) (c : StepContext) :
    (note k report c).moves = c.moves := rfl

def installing (t : Timer) (s : InstallStep σ) (p : Progress σ) (k : BuildConfiguration) :
    Progress σ :=
  ((s.ready t p).await t p.context.limits.install (s.installer.install (s.request k))).2

/-! ## Branches of a run

A check that is not passed ends the run, and after a check that is passed the install decides. Both
are told in terms of the answers by the deadlines, so that what is said of the run below never goes
through the waits again. `ready` and `installing` name the run at the two points in between. -/

variable {t : Timer} {s : InstallStep σ} {p : Progress σ} {k : BuildConfiguration} {f : Failure}

theorem checked_of_kind_ne {limit : Span} (h : f.kind ≠ .targetUnreachable) :
    checked s.target limit (some (.error f)) = .error (.targetUnreachable f.message) := by
  cases f with
  | targetUnreachable => exact absurd rfl h
  | configuration | installFailure | installTimeout => rfl

theorem installed_of_kind {limit : Span}
    (h : f.kind = .installFailure ∨ f.kind = .installTimeout) :
    installed limit (some (.error f)) = .error f := by
  cases f with
  | installFailure | installTimeout => rfl
  | configuration | targetUnreachable => simp [Failure.kind] at h

theorem installed_of_kind_ne {limit : Span}
    (h : f.kind ≠ .installFailure ∧ f.kind ≠ .installTimeout) :
    installed limit (some (.error f)) = .error (.installFailure f.message) := by
  cases f with
  | installFailure => exact absurd rfl h.1
  | installTimeout => exact absurd rfl h.2
  | configuration | targetUnreachable => rfl

theorem perform_of_unchecked (hk : p.context.buildConfiguration = .ok k)
    (hf : checked s.target p.context.limits.validate
      (s.checkAnswer p.world (t.lasts p.context.limits.validate)) = .error f) :
    s.perform t p = (.error f, (p.await t p.context.limits.validate s.target.check).2) := by
  have hchecked : checked s.target p.context.limits.validate
      (p.await t p.context.limits.validate s.target.check).1 = .error f := by
    rw [Progress.await_fst]
    exact hf
  rw [perform_eq, hk]
  dsimp only
  rw [hchecked]

theorem perform_of_checked (hk : p.context.buildConfiguration = .ok k)
    (hc : checked s.target p.context.limits.validate
      (s.checkAnswer p.world (t.lasts p.context.limits.validate)) = .ok ()) :
    s.perform t p =
      match installed p.context.limits.install
        (s.installAnswer p.world (t.lasts p.context.limits.install) k) with
      | .error f => (.error f, s.installing t p k)
      | .ok report =>
        (.ok (), { s.installing t p k with context := note k report (s.ready t p).context }) := by
  have hchecked : checked s.target p.context.limits.validate
      (p.await t p.context.limits.validate s.target.check).1 = .ok () := by
    rw [Progress.await_fst]
    exact hc
  have hlimit := s.ready_limits t p
  rw [perform_eq, hk]
  dsimp only
  rw [hchecked]
  dsimp only
  rw [← ready, hlimit, Progress.await_fst]
  rfl

/-! ## Records of the branches -/

variable {c : StepContext} {w : σ} {now : Instant}

theorem record_eq (t : Timer) (s : InstallStep σ) (c : StepContext) (now : Instant) (w : σ) :
    s.record t c now w =
      ⟨(s.recording.runToCompletion t ⟨c, (w, []), now⟩).1,
        (s.recording.runToCompletion t ⟨c, (w, []), now⟩).2.world.2,
        (s.recording.runToCompletion t ⟨c, (w, []), now⟩).2.context.moves,
        (s.recording.runToCompletion t ⟨c, (w, []), now⟩).2.context.metadata⟩ := by
  have hrun := s.recording_follows.runToCompletion_eq t ⟨c, (w, []), now⟩
  rw [record]
  simp only [Progress.map] at hrun
  rw [hrun]

theorem record_of_error {q : Progress (σ × List StepCall)}
    (h : s.recording.perform t ⟨c, (w, []), now⟩ = (.error f, q)) :
    s.record t c now w =
      ⟨.error f, q.world.2, (q.context.markFailed f q.now).2.moves, q.context.metadata⟩ := by
  rw [record_eq, runToCompletion, h]
  simp only [Progress.move, StepContext.markFailed, StepContext.advance_metadata]

theorem record_of_ok {q : Progress (σ × List StepCall)}
    (h : s.recording.perform t ⟨c, (w, []), now⟩ = (.ok (), q)) :
    s.record t c now w =
      ⟨.ok (), q.world.2, (q.context.markSucceeded q.now).2.moves, q.context.metadata⟩ := by
  rw [record_eq, runToCompletion, h]
  simp only [Progress.move, StepContext.markSucceeded, StepContext.advance_metadata]

variable (hc : c.IsFresh)

include hc

theorem record_of_unrecognized (hk : c.buildConfiguration = .error f) :
    s.record t c now w = ⟨.error f, [], Moves.failedEarly, c.metadata⟩ := by
  have hperform : s.recording.perform t ⟨c, (w, []), now⟩ = (.error f, ⟨c, (w, []), now⟩) := by
    rw [perform_eq, hk]
  rw [record_of_error hperform, hc.moves_markFailed]

theorem record_of_unchecked (hk : c.buildConfiguration = .ok k)
    (hf : checked s.target c.limits.validate
      (s.checkAnswer w (t.lasts c.limits.validate)) = .error f) :
    s.record t c now w = ⟨.error f, [.check], Moves.failedEarly, c.metadata⟩ := by
  have hperform := perform_of_unchecked (s := s.recording) (p := ⟨c, (w, []), now⟩) hk hf
  rw [record_of_error hperform, Progress.await_context, hc.moves_markFailed]
  rfl

theorem record_of_uninstalled (hk : c.buildConfiguration = .ok k)
    (hp : checked s.target c.limits.validate
      (s.checkAnswer w (t.lasts c.limits.validate)) = .ok ())
    (hf : installed c.limits.install
      (s.installAnswer w (t.lasts c.limits.install) k) = .error f) :
    s.record t c now w =
      ⟨.error f, [.check, .install (s.request k)], Moves.failedLate, c.metadata⟩ := by
  have hperform := perform_of_checked (s := s.recording) (p := ⟨c, (w, []), now⟩) hk hp
  have hinstalled : installed c.limits.install
      (s.recording.installAnswer (w, []) (t.lasts c.limits.install) k) = .error f := hf
  simp only [hinstalled] at hperform
  rw [record_of_error hperform, installing, Progress.await_context, ready_metadata]
  simp only [ready, Progress.move, Progress.await_context, hc.executing]
  rw [StepContext.markFailed, StepContext.moves_advance _ (by rfl), hc.moves_executing]
  rfl

theorem record_of_installed {report : InstallReport} (hk : c.buildConfiguration = .ok k)
    (hp : checked s.target c.limits.validate
      (s.checkAnswer w (t.lasts c.limits.validate)) = .ok ())
    (hr : installed c.limits.install
      (s.installAnswer w (t.lasts c.limits.install) k) = .ok report) :
    s.record t c now w =
      ⟨.ok (), [.check, .install (s.request k)], Moves.succeeded, (note k report c).metadata⟩ := by
  have hperform := perform_of_checked (s := s.recording) (p := ⟨c, (w, []), now⟩) hk hp
  have hinstalled : installed c.limits.install
      (s.recording.installAnswer (w, []) (t.lasts c.limits.install) k) = .ok report := hr
  simp only [hinstalled] at hperform
  have hmetadata : (note k report (s.recording.ready t ⟨c, (w, []), now⟩).context).metadata =
      (note k report c).metadata := by
    simp only [note, StepContext.setMetadata, ready_metadata]
  rw [record_of_ok hperform, hmetadata]
  simp only [ready, Progress.move, Progress.await_context, hc.executing]
  rw [StepContext.markSucceeded, StepContext.moves_advance _ (by rfl), note_moves,
    hc.moves_executing]
  rfl

end InstallStep

/-! ## The rules and the run

For each rule the run is computed, with the answers that the rule names. This gives one direction.
The other one needs no second look at the run: some rule always applies, and by the first direction
it can tell nothing but what the run has come to. -/

namespace InstallCourse

variable {t : Timer} {s : InstallStep σ} {c : StepContext} {w : σ} {r : InstallRecord}

theorem exists_record (checkBy installBy : Span) (s : InstallStep σ) (c : StepContext) (w : σ) :
    ∃ r, InstallCourse checkBy installBy s c w r := by
  by_cases hname : ∃ k : BuildConfiguration, k.name = c.params.configuration
  · obtain ⟨k, hk⟩ := hname
    match hcheck : s.checkAnswer w checkBy with
    | none => exact ⟨_, unanswered hk hcheck⟩
    | some (.error f) =>
      by_cases hf : f.kind = .targetUnreachable
      · cases f with
        | targetUnreachable => exact ⟨_, unreachable hk hcheck⟩
        | configuration | installFailure | installTimeout => cases hf
      · exact ⟨_, unfit hk hcheck hf⟩
    | some (.ok ()) =>
      match hinstall : s.installAnswer w installBy k with
      | none => exact ⟨_, overrun hk hcheck hinstall⟩
      | some (.ok report) => exact ⟨_, installed hk hcheck hinstall⟩
      | some (.error f) =>
        by_cases hf : f.kind = .installFailure ∨ f.kind = .installTimeout
        · exact ⟨_, failed hk hcheck hinstall hf⟩
        · exact ⟨_, broken hk hcheck hinstall (not_or.mp hf)⟩
  · exact ⟨_, unrecognized (not_exists.mp hname)⟩

/-- With the deadlines that timers keep, each rule tells what the run comes to. -/
theorem eq_record (hc : c.IsFresh) (now : Instant)
    (h : InstallCourse (t.lasts c.limits.validate) (t.lasts c.limits.install) s c w r) :
    r = s.record t c now w := by
  -- each rule names its configuration, and the step finds it by that name
  have hconfiguration : ∀ {k : BuildConfiguration}, k.name = c.params.configuration →
      c.buildConfiguration = .ok k := by
    intro k hk
    rw [StepContext.buildConfiguration, ← hk, BuildConfiguration.parse_name]
  cases h with
  | unrecognized hk =>
    have hparse : c.buildConfiguration = .error _ := BuildConfiguration.parse_of_forall_name_ne hk
    rw [InstallStep.record_of_unrecognized hc hparse]
  | unanswered hk h =>
    rw [InstallStep.record_of_unchecked hc (hconfiguration hk) (by rw [h]; rfl)]
  | unreachable hk h =>
    rw [InstallStep.record_of_unchecked hc (hconfiguration hk) (by rw [h]; rfl)]
  | unfit hk h hf =>
    rw [InstallStep.record_of_unchecked hc (hconfiguration hk)
      (by rw [h, InstallStep.checked_of_kind_ne hf])]
  | overrun hk hp h =>
    rw [InstallStep.record_of_uninstalled hc (hconfiguration hk) (by rw [hp]; rfl)
      (by rw [h]; rfl)]
    rfl
  | failed hk hp h hf =>
    rw [InstallStep.record_of_uninstalled hc (hconfiguration hk) (by rw [hp]; rfl)
      (by rw [h, InstallStep.installed_of_kind hf])]
    rfl
  | broken hk hp h hf =>
    rw [InstallStep.record_of_uninstalled hc (hconfiguration hk) (by rw [hp]; rfl)
      (by rw [h, InstallStep.installed_of_kind_ne hf])]
    rfl
  | installed hk hp h =>
    rw [InstallStep.record_of_installed hc (hconfiguration hk) (by rw [hp]; rfl)
      (by rw [h]; rfl)]
    rfl

/-- With the deadlines that timers keep, the rules are the run. -/
theorem iff_eq_record (hc : c.IsFresh) (now : Instant) :
    InstallCourse (t.lasts c.limits.validate) (t.lasts c.limits.install) s c w r ↔
      r = s.record t c now w := by
  constructor
  · exact eq_record hc now
  · -- some rule applies, and it can tell nothing but what the run has come to
    intro h
    obtain ⟨r', hr'⟩ := exists_record (t.lasts c.limits.validate) (t.lasts c.limits.install) s c w
    rw [h, ← eq_record hc now hr']
    exact hr'

/-- The rules look at a deadline only through what has come by it, and only at those of calls that
are made. -/
theorem congr {checkBy installBy checkBy' installBy' : Span}
    (hcheck : ∀ k : BuildConfiguration, k.name = c.params.configuration →
      s.checkAnswer w checkBy = s.checkAnswer w checkBy')
    (hinstall : ∀ k : BuildConfiguration, k.name = c.params.configuration →
      s.checkAnswer w checkBy = some (.ok ()) →
        s.installAnswer w installBy k = s.installAnswer w installBy' k)
    (h : InstallCourse checkBy installBy s c w r) : InstallCourse checkBy' installBy' s c w r := by
  cases h with
  | unrecognized hk => exact unrecognized hk
  | unanswered hk h => exact unanswered hk ((hcheck _ hk).symm.trans h)
  | unreachable hk h => exact unreachable hk ((hcheck _ hk).symm.trans h)
  | unfit hk h hf => exact unfit hk ((hcheck _ hk).symm.trans h) hf
  | overrun hk hp h =>
    exact overrun hk ((hcheck _ hk).symm.trans hp) ((hinstall _ hk hp).symm.trans h)
  | failed hk hp h hf =>
    exact failed hk ((hcheck _ hk).symm.trans hp) ((hinstall _ hk hp).symm.trans h) hf
  | broken hk hp h hf =>
    exact broken hk ((hcheck _ hk).symm.trans hp) ((hinstall _ hk hp).symm.trans h) hf
  | installed hk hp h =>
    exact installed hk ((hcheck _ hk).symm.trans hp) ((hinstall _ hk hp).symm.trans h)

end InstallCourse

/-! ## The course of every install -/

namespace InstallStep

/-- The answers of a step come clear of their limits, where these are not whole milliseconds. -/
structure AnswersClearly (l : StepLimits) (s : InstallStep σ) (w : σ) (k : BuildConfiguration) :
    Prop where
  check : l.validate.IsWhole ∨ (s.target.check w).1.IsClearOf l.validate
  /-- The installer is asked if the check has passed. -/
  install : s.checkAnswer w l.validate = some (.ok ()) → l.install.IsWhole ∨
    (s.installer.install (s.request k) (s.target.check w).2).1.IsClearOf l.install

/-- A run from a fresh context is what the rules say of the deadlines that its timers keep. By
reliable timers it is what they say of the limits themselves, unless one of them is not whole and
the answer comes after it by less than a millisecond. -/
theorem course_iff {c : StepContext} (hc : c.IsFresh) (t : Timer) (s : InstallStep σ)
    (now : Instant) (w : σ) (r : InstallRecord) :
    (InstallCourse (t.lasts c.limits.validate) (t.lasts c.limits.install) s c w r ↔
        r = s.record t c now w) ∧
      (t.IsReliable → (∀ k, k.name = c.params.configuration → s.AnswersClearly c.limits w k) →
        (InstallCourse c.limits.validate c.limits.install s c w r ↔ r = s.record t c now w)) := by
  have hcourse : InstallCourse (t.lasts c.limits.validate) (t.lasts c.limits.install) s c w r ↔
      r = s.record t c now w := InstallCourse.iff_eq_record hc now
  refine ⟨hcourse, fun ht hclear ↦ ?_⟩
  have hcheck : ∀ k : BuildConfiguration, k.name = c.params.configuration →
      s.checkAnswer w (t.lasts c.limits.validate) = s.checkAnswer w c.limits.validate :=
    fun k hk ↦ Reply.answerBy_lasts (hclear k hk).check ht
  have hinstall : ∀ k : BuildConfiguration, k.name = c.params.configuration →
      s.checkAnswer w c.limits.validate = some (.ok ()) →
        s.installAnswer w (t.lasts c.limits.install) k = s.installAnswer w c.limits.install k :=
    fun k hk hp ↦ Reply.answerBy_lasts ((hclear k hk).install hp) ht
  rw [← hcourse]
  constructor
  · exact .congr (fun k hk ↦ (hcheck k hk).symm) fun k hk hp ↦ (hinstall k hk hp).symm
  · exact .congr hcheck fun k hk hp ↦ hinstall k hk ((hcheck k hk).symm.trans hp)

/-- The check has used up nearly all of its limit, and the install still has its own. -/
theorem course_iff_of_silent_installer :
    (answering (.after (.ofSeconds 29) (.ok ())) .never).record .ticking (StepContext.stub .usual)
        default () =
      ⟨.error (.installTimeout (.ofSeconds 600)), [.check, .install ⟨"stub-0", .release, false⟩],
        Moves.failedLate, .empty⟩ := by
  have hcourse := fun r ↦ (course_iff (c := StepContext.stub .usual) ⟨rfl, rfl⟩ .ticking
    (answering (.after (.ofSeconds 29) (.ok ())) .never) default () r).2
    Timer.isReliable_ticking fun _ _ ↦ ⟨.inl rfl, fun _ ↦ .inl rfl⟩
  exact ((hcourse _).mp (.overrun (k := .release) rfl rfl rfl)).symm

/-- A timer that ticks keeps limits of a nanosecond up to the next millisecond: an answer that comes
by then is late by the limit, and taken. -/
theorem not_course_of_late_check :
    (StepContext.stub ⟨⟨1⟩, ⟨1⟩⟩).IsFresh ∧ Timer.ticking.IsReliable ∧
      ¬ ∀ r, InstallCourse ⟨1⟩ ⟨1⟩
          (answering (.after (.ofMilliseconds 1) (.ok ())) (.now (.ok ⟨[], ""⟩)))
          (StepContext.stub ⟨⟨1⟩, ⟨1⟩⟩) () r ↔
        r = (answering (.after (.ofMilliseconds 1) (.ok ())) (.now (.ok ⟨[], ""⟩))).record .ticking
          (StepContext.stub ⟨⟨1⟩, ⟨1⟩⟩) default () := by
  refine ⟨⟨rfl, rfl⟩, Timer.isReliable_ticking, ?_⟩
  intro h
  have hlate := (h _).mp (.unanswered (k := .release) rfl rfl)
  have hresult := congrArg InstallRecord.calls hlate
  revert hresult
  decide

end InstallStep

end BuildFleet
