import BuildFleet.Proofs.RunRefusal

/-!
# Runs apart from their times

No two runs of a request have the same identifier or the same times, and they may have been given
other limits. What is left when these are put aside is compared by a relation, first of contexts and
then of runs in progress and of reports. All moves of a context keep it, whenever they are made, and
so does every wait.

The times stand inside of states, so two contexts that are alike have states which agree when their
times are taken out. Whether a move is accepted is a question of the names of states alone, and this
is why it is accepted from both of them or from neither. Limits are not part of the likeness at all:
where a limit shows, in the text of a failure, it shows because a call was late, and whether it was
is for the callers of these lemmas to say.
-/

namespace BuildFleet

variable {σ τ : Type}

/-! ## Contexts -/

namespace StepState

theorem name_undated (s : StepState) : s.undated.name = s.name := by
  cases s <;> rfl

theorem canAdvanceTo_undated (s next : StepState) :
    s.undated.canAdvanceTo next.undated = s.canAdvanceTo next := by
  cases s <;> cases next <;> rfl

end StepState

/-- Two contexts of one request that are at the same point: they may differ in their identifiers,
limits, notes and times. -/
structure StepContext.Resembles (c d : StepContext) : Prop where
  host : c.host = d.host
  worker : c.worker = d.worker
  params : c.params = d.params
  state : c.state.undated = d.state.undated
  moves : c.moves = d.moves

namespace StepContext.Resembles

variable {c d : StepContext}

theorem advance (h : c.Resembles d) {next next' : StepState} (hnext : next.undated = next'.undated)
    (now now' : Instant) : (c.advance next now).2.Resembles (d.advance next' now').2 := by
  have hname : c.state.name = d.state.name := by
    rw [← StepState.name_undated, h.state, StepState.name_undated]
  have hname' : next.name = next'.name := by
    rw [← StepState.name_undated, hnext, StepState.name_undated]
  have hcan : c.state.canAdvanceTo next = d.state.canAdvanceTo next' := by
    rw [← StepState.canAdvanceTo_undated, h.state, hnext, StepState.canAdvanceTo_undated]
  by_cases hc : c.state.canAdvanceTo next = true
  · have hd : d.state.canAdvanceTo next' = true := by rw [← hcan, hc]
    have hmoves : (c.advance next now).2.moves = (d.advance next' now').2.moves := by
      rw [moves_advance now hc, moves_advance now' hd, h.moves, hname, hname']
    rw [advance_of_canAdvanceTo now hc, advance_of_canAdvanceTo now' hd] at hmoves ⊢
    exact ⟨h.host, h.worker, h.params, hnext, hmoves⟩
  · have hd : ¬ d.state.canAdvanceTo next' = true := by rwa [← hcan]
    rw [StepContext.advance, if_neg hc, StepContext.advance, if_neg hd]
    exact h

theorem markValidated (h : c.Resembles d) (now now' : Instant) :
    (c.markValidated now).2.Resembles (d.markValidated now').2 := by
  rw [StepContext.markValidated, StepContext.markValidated]
  exact h.advance (by rfl) now now'

theorem markExecuting (h : c.Resembles d) (now now' : Instant) :
    (c.markExecuting now).2.Resembles (d.markExecuting now').2 := by
  rw [StepContext.markExecuting, StepContext.markExecuting]
  exact h.advance (by rfl) now now'

theorem markSucceeded (h : c.Resembles d) (now now' : Instant) :
    (c.markSucceeded now).2.Resembles (d.markSucceeded now').2 := by
  rw [StepContext.markSucceeded, StepContext.markSucceeded]
  exact h.advance (by rfl) now now'

theorem markFailed (h : c.Resembles d) (f : Failure) (now now' : Instant) :
    (c.markFailed f now).2.Resembles (d.markFailed f now').2 := by
  rw [StepContext.markFailed, StepContext.markFailed]
  exact h.advance (by rfl) now now'

theorem buildConfiguration (h : c.Resembles d) : d.buildConfiguration = c.buildConfiguration := by
  rw [StepContext.buildConfiguration, StepContext.buildConfiguration, h.params]

theorem deviceSerial (h : c.Resembles d) : d.deviceSerial = c.deviceSerial := by
  rw [StepContext.deviceSerial, StepContext.deviceSerial, h.params]

theorem undated_toOutcome (h : c.Resembles d) (step : String) :
    (c.toOutcome step).undated = (d.toOutcome step).undated := by
  have htransitions : ∀ e : StepContext, e.transitions.map (fun t ↦ { t with moment := default }) =
      e.moves.map fun names ↦ (⟨names.1, names.2, default⟩ : StateTransition) := by
    intro e
    rw [StepContext.moves, List.map_map]
    rfl
  rw [StepOutcome.undated, StepOutcome.undated]
  simp only [toOutcome, htransitions, h.host, h.worker, h.state, h.moves]

end StepContext.Resembles

structure Progress.Resembles (p q : Progress τ) : Prop where
  context : p.context.Resembles q.context
  world : p.world = q.world

theorem Progress.Resembles.await {p q : Progress τ} (h : p.Resembles q) (t : Timer)
    (limit limit' : Span) {α : Type} (call : Call τ α) :
    (p.await t limit call).2.Resembles (q.await t limit' call).2 where
  context := h.context
  world := congrArg (fun w ↦ (call w).2) h.world

/-! ## Reports -/

/-- An event without the identifier of its run. -/
def RunEvent.anonymous : RunEvent → RunEvent
  | hostResolved hostname known workers => hostResolved hostname known workers
  | stepStarted _ step worker => stepStarted default step worker
  | stepSucceeded _ step => stepSucceeded default step
  | stepFailed _ step kind error => stepFailed default step kind error

/-- Two reports that tell the same apart from identifiers and times. -/
structure RunReport.Resembles (a b : RunReport τ) : Prop where
  outcome : a.outcome.undated = b.outcome.undated
  events : a.events.map RunEvent.anonymous = b.events.map RunEvent.anonymous
  world : a.world = b.world

namespace Runner

theorem reject_resembles (k k' : Runner τ) (r : RunRequest) (runId runId' : RunId)
    (now now' : Instant) (w : τ) (f : Failure) (events : List RunEvent) :
    (k.reject r runId now w f events).Resembles (k'.reject r runId' now' w f events) where
  outcome := rfl
  events := by simp [reject, RunReport.delivered, RunEvent.ofFailure, RunEvent.anonymous]
  world := rfl

variable {k : Runner σ} {r : RunRequest} {runId : RunId}

/-- Contexts that are opened for one request over one registry are alike. -/
theorem resembles_of_opens {k' : Runner σ} {runId' : RunId} {c c' : StepContext}
    (h : k.Opens r runId c) (h' : k'.Opens r runId' c') (hregistry : k'.registry = k.registry) :
    c.Resembles c' := by
  have hhost : c.host = c'.host := by rw [h.host, h'.host, hregistry]
  refine ⟨hhost, ?_, ?_, ?_, ?_⟩
  · have hworker := h.worker
    rw [hhost, h'.worker] at hworker
    exact (Except.ok.inj hworker).symm
  · rw [h.params, h'.params]
  · rw [h.fresh.created, h'.fresh.created]
  · rw [h.fresh.moves_eq, h'.fresh.moves_eq]

/-- Under other limits a request gets a context that is like its own, or fails in the same way to
get any. -/
theorem contextFor_both (k : Runner σ) (limits' : StepLimits) (r : RunRequest)
    (runId runId' : RunId) :
    (∃ c c', contextFor k.limits r runId (k.registry.resolve r.hostname) = .ok c ∧
        contextFor limits' r runId' (k.registry.resolve r.hostname) = .ok c' ∧
          k.Opens r runId c ∧ c'.limits = limits' ∧ c.Resembles c') ∨
      ∃ f, contextFor k.limits r runId (k.registry.resolve r.hostname) = .error f ∧
        contextFor limits' r runId' (k.registry.resolve r.hostname) = .error f := by
  rcases k.contextFor_cases r runId with ⟨c, hctx, hc⟩ | ⟨f, hctx, hw⟩ <;>
    rcases { k with limits := limits' : Runner σ }.contextFor_cases r runId' with
      ⟨c', hctx', hc'⟩ | ⟨f', hctx', hw'⟩
  · exact .inl ⟨c, c', hctx, hctx', hc, hc'.limits, resembles_of_opens hc hc' rfl⟩
  · cases (selectWorker_of_opens hc).symm.trans hw'
  · cases (selectWorker_of_opens hc').symm.trans hw
  · cases hw.symm.trans hw'
    exact .inr ⟨f, hctx, hctx'⟩

end Runner

end BuildFleet
