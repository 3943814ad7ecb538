import BuildFleet.Proofs.Lifecycle
import BuildFleet.Proofs.SpanText

/-!
# How a run is settled

A step is run on whatever context it is given, and none of its moves is looked at for whether it was
accepted. From a context in which something has happened before, some of them are refused: the check
may have been noted already, the install may be in progress, or the run may be over. It is settled
all the same. A run that was open ends in the state that its result stands for, and since a failure
can be told from its kind and its text, the result can be read off the state; a run that was over is
left alone.

Nothing is asked of the context, so it does not matter how it came about.
-/

namespace BuildFleet

open Relation (ReflTransGen)

variable {σ : Type}

/-! ## Reading a result off a state -/

/-- Failures are told apart by their kinds and texts. -/
theorem Failure.eq_of_message {f g : Failure} (hkind : f.kind = g.kind)
    (h : f.message = g.message) : f = g := by
  cases f <;> cases g <;> cases hkind
  case configuration.configuration | targetUnreachable.targetUnreachable |
      installFailure.installFailure =>
    rw [String.append_right_inj _ |>.mp h]
  case installTimeout.installTimeout =>
    rw [Span.text_inj.mp (String.append_right_inj _ |>.mp h)]

namespace StepState.Settles

variable {result : Except Failure Unit} {s : StepState}

theorem isTerminal (h : s.Settles result) : s.isTerminal = true := by
  cases result with
  | ok _ =>
    obtain ⟨t, u, rfl⟩ := h
    rfl
  | error f =>
    obtain ⟨t, rfl⟩ := h
    rfl

theorem ok_iff (h : s.Settles result) : result = .ok () ↔ ∃ t u, s = .succeeded t u := by
  cases result with
  | ok _ => exact ⟨fun _ ↦ h, fun _ ↦ rfl⟩
  | error f =>
    obtain ⟨t, rfl⟩ := h
    constructor
    · intro hf
      cases hf
    · rintro ⟨t', u', hs⟩
      cases hs

theorem error_iff (h : s.Settles result) (f : Failure) :
    result = .error f ↔ ∃ t, s = .failed f.kind f.message t := by
  constructor
  · rintro rfl
    exact h
  · rintro ⟨t, rfl⟩
    cases result with
    | ok _ =>
      obtain ⟨t', u', hs⟩ := h
      cases hs
    | error g =>
      obtain ⟨t', hs⟩ := h
      rw [StepState.ofFailure, StepState.failed.injEq] at hs
      rw [Failure.eq_of_message hs.1 hs.2.1]

end StepState.Settles

/-! ## What is kept of the moves -/

namespace StepContext

theorem Touches.isPrefix_moves {c d : StepContext} (h : c.Touches d) :
    c.transitions <+: d.transitions := by
  cases h with
  | advance next now =>
    rcases advance_cases c next now with ⟨-, ha⟩ | ⟨-, ha⟩
    · rw [ha]
      exact List.prefix_append _ _
    · exact ha.symm ▸ List.prefix_rfl
  | setMetadata key value => exact List.prefix_rfl

theorem isPrefix_of_reaches {c d : StepContext} (h : ReflTransGen Touches c d) :
    c.transitions <+: d.transitions := by
  induction h with
  | refl => exact List.prefix_rfl
  | tail _ step ih => exact ih.trans step.isPrefix_moves

/-- What the run of a step makes of a context: the one after the run against the one before it, and
against the result of the run. -/
structure SettledAs (c d : StepContext) (result : Except Failure Unit) : Prop where
  /-- The run is over. -/
  isTerminal : d.state.isTerminal = true
  /-- No move that was made before is lost. -/
  moves : c.transitions <+: d.transitions
  /-- A run that was open has succeeded if it went well. -/
  ok_iff : c.state.isTerminal = false → (result = .ok () ↔ ∃ t u, d.state = .succeeded t u)
  /-- A run that was open has failed as the result says. -/
  error_iff : c.state.isTerminal = false →
    ∀ f, result = .error f ↔ ∃ t, d.state = .failed f.kind f.message t
  /-- A run that was over is as it was, whatever the result. -/
  unchanged : c.state.isTerminal = true → d.state = c.state ∧ d.transitions = c.transitions

end StepContext

/-- Every run of a step settles its context, whatever has been done to the context before and
however target and installer behave. -/
theorem InstallStep.settledAs_runToCompletion (t : Timer) (s : InstallStep σ) (c : StepContext)
    (w : σ) (now : Instant) :
    c.SettledAs (s.runToCompletion t ⟨c, w, now⟩).2.context
      (s.runToCompletion t ⟨c, w, now⟩).1 := by
  have hreaches := s.runToCompletion_reaches t ⟨c, w, now⟩
  have hsettles : c.state.isTerminal = false → _ := fun hopen ↦
    s.runToCompletion_settles t (p := ⟨c, w, now⟩) hopen
  have hclosed : c.state.isTerminal = true → _ := StepContext.terminal_of_reaches hreaches
  constructor
  case isTerminal =>
    cases hc : c.state.isTerminal with
    | true =>
      rw [(hclosed hc).1]
      exact hc
    | false => exact (hsettles hc).isTerminal
  case moves => exact StepContext.isPrefix_of_reaches hreaches
  case ok_iff => exact fun hopen ↦ (hsettles hopen).ok_iff
  case error_iff => exact fun hopen ↦ (hsettles hopen).error_iff
  case unchanged => exact hclosed

-- a step that goes well on a run that has failed
example :
    let failed := ((StepContext.stub .usual).markFailed (.configuration "x") default).2
    let step := InstallStep.answering (.now (.ok ())) (.now (.ok ⟨[], ""⟩))
    (step.runToCompletion .ticking ⟨failed, (), default⟩).2.context =
      InstallStep.note .release ⟨[], ""⟩ failed := by
  decide

end BuildFleet
