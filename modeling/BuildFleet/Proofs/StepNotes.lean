import BuildFleet.Proofs.InstallCourse

/-!
# What a run of a step leaves in its context

A context is handed to a step and handed on to whatever comes after it, so what the step does not
mean to change has to come out as it went in. Whose run it is, is never touched. Notes are the last
thing that a step makes: there are several ways in which it can fail before it gets there, and after
any of them the notes are those that were there before.

Nothing is asked of the context, which may have been through any number of runs. What an earlier run
has noted under the keys of a step is replaced by a run that goes well, and stays after one that
fails.
-/

namespace BuildFleet

variable {σ : Type}

/-- What the run of a step makes of a context apart from its state: the context after the run
against the one before it, and against the result of the run and the report of the installer. -/
structure StepContext.NotedBy (t : Timer) (s : InstallStep σ) (w : σ) (c d : StepContext)
    (result : Except Failure Unit) : Prop where
  /-- Host, worker, parameters, limits and identifier stay. -/
  sameRun : c.SameRun d
  /-- A run that fails notes nothing. -/
  failed : ∀ f, result = .error f → d.metadata = c.metadata
  /-- A run that goes well notes what its installer has reported in time and for which
  configuration, and leaves what is noted under any other key. -/
  succeeded : result = .ok () → ∃ (k : BuildConfiguration) (report : InstallReport),
    k.name = c.params.configuration ∧
      s.installAnswer w (t.lasts c.limits.install) k = some (.ok report) ∧
      ∀ key, d.getMetadata? key =
        if key = "configuration" then some k.name
        else if key = "installed_packages" then some (",".intercalate report.packages)
        else c.getMetadata? key

namespace InstallStep

theorem eq_ok_of_installed {limit : Span} {answer : Option (Except Failure InstallReport)}
    {report : InstallReport} (h : installed limit answer = .ok report) :
    answer = some (.ok report) := by
  match answer with
  | none => cases h
  | some (.ok _) =>
    cases h
    rfl
  | some (.error f) => cases f <;> cases h

theorem getMetadata?_note (k : BuildConfiguration) (report : InstallReport) (c : StepContext)
    (key : String) :
    (note k report c).getMetadata? key =
      if key = "configuration" then some k.name
      else if key = "installed_packages" then some (",".intercalate report.packages)
      else c.getMetadata? key := by
  simp only [note, StepContext.getMetadata?, StepContext.setMetadata, Dictionary.get?_insert]

/-- Up to its end, a step notes nothing unless it goes well. -/
theorem perform_metadata (t : Timer) (s : InstallStep σ) (p : Progress σ) :
    match s.perform t p with
    | (.error _, q) => q.context.metadata = p.context.metadata
    | (.ok (), q) => ∃ (k : BuildConfiguration) (report : InstallReport),
      k.name = p.context.params.configuration ∧
        s.installAnswer p.world (t.lasts p.context.limits.install) k = some (.ok report) ∧
        q.context.metadata = (note k report p.context).metadata := by
  cases hk : p.context.buildConfiguration with
  | error f => rw [perform_eq, hk]
  | ok k =>
    cases hc : checked s.target p.context.limits.validate
        (s.checkAnswer p.world (t.lasts p.context.limits.validate)) with
    | error f =>
      rw [perform_of_unchecked hk hc]
      exact congrArg StepContext.metadata (Progress.await_context _ _ _ _)
    | ok _ =>
      rw [perform_of_checked hk hc]
      cases hi : installed p.context.limits.install
          (s.installAnswer p.world (t.lasts p.context.limits.install) k) with
      | error f =>
        dsimp only
        rw [installing, Progress.await_context, ready_metadata]
      | ok report =>
        refine ⟨k, report, BuildConfiguration.name_of_parse hk, eq_ok_of_installed hi, ?_⟩
        simp only [note, StepContext.setMetadata, ready_metadata]

/-- Whatever context a step is run on and however target and installer behave, the run changes what
it has to and leaves the rest. -/
theorem notedBy_runToCompletion (t : Timer) (s : InstallStep σ) (c : StepContext) (w : σ)
    (now : Instant) :
    c.NotedBy t s w (s.runToCompletion t ⟨c, w, now⟩).2.context
      (s.runToCompletion t ⟨c, w, now⟩).1 := by
  have hsame : c.SameRun (s.runToCompletion t ⟨c, w, now⟩).2.context :=
    StepContext.sameRun_of_reaches (s.runToCompletion_reaches t ⟨c, w, now⟩)
  have hperform := s.perform_metadata t ⟨c, w, now⟩
  refine ⟨hsame, ?failed, ?succeeded⟩ <;> rw [runToCompletion]
  case failed =>
    intro f hf
    split at hf <;> rename_i h
    · cases hf
    · rw [h] at hperform
      exact (StepContext.advance_metadata _ _ _).trans hperform
  case succeeded =>
    intro hok
    split at hok <;> rename_i h
    · rw [h] at hperform
      obtain ⟨k, report, hname, hanswer, hmetadata⟩ := hperform
      refine ⟨k, report, hname, hanswer, fun key ↦ ?_⟩
      rw [← getMetadata?_note, StepContext.getMetadata?, StepContext.getMetadata?, ← hmetadata]
      exact congrArg (·.get? key) (StepContext.advance_metadata _ _ _)
    · cases hok

-- a second run that goes well replaces what the first one has noted
example :
    let first := answering (.now (.ok ())) (.now (.ok ⟨["a.apk", "b.apk"], ""⟩))
    let second := answering (.now (.ok ())) (.now (.ok ⟨["c.apk"], ""⟩))
    let c := (first.runToCompletion .ticking ⟨StepContext.stub .usual, (), default⟩).2.context
    (c.getMetadata? "installed_packages",
      (second.runToCompletion .ticking ⟨c, (), default⟩).2.context.getMetadata?
        "installed_packages") = (some "a.apk,b.apk", some "c.apk") := by
  decide

end InstallStep

end BuildFleet
