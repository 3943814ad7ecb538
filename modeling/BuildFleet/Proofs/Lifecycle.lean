import BuildFleet.Proofs.Waiting
import Mathlib.Data.List.Chain
import Mathlib.Logic.Relation

/-!
# The life of a run

A context keeps its state and the list of its moves side by side. They cannot drift apart: whatever
is done to a context, in whatever order, the list leads from the first state to the present one
along moves that the life of a run has.

## Calls and touches

A caller may ask for any move with any target state, and may run whole steps in between. Down at the
context, all of this comes to two kinds of *touch*: a request to move, and a note. A run of a step
is a sequence of touches, so what every touch keeps is kept by every sequence of calls.

## The invariant

That there are at most three moves is no induction hypothesis. What is carried instead is that the
list is no longer than the *depth* of the state, and each accepted move goes deeper. Depth is a
number for each state, and there is no need to look at the ways in which a state can be reached. The
other parts of the invariant are about neighbours in the list: each move enters the state that the
next one leaves, the first one leaves the state in which a context is made, and the last one enters
the state of the context.

What is to be relied on in the end, `WellKept`, follows from the invariant and is not carried along
itself. It speaks of all calls that may still come, and so it could not be shown step by step.
-/

namespace BuildFleet

open Relation (ReflTransGen)

variable {σ : Type}

/-! ## States -/

namespace StepState

/-- How many moves may lead to a state. -/
def depth : StepState → Nat
  | created => 0
  | validated _ => 1
  | executing _ => 2
  | succeeded .. | failed .. => 3

theorem depth_le_three (s : StepState) : s.depth ≤ 3 := by
  cases s <;> simp [depth]

theorem depth_lt_of_canAdvanceTo {s t : StepState} (h : s.canAdvanceTo t = true) :
    s.depth < t.depth := by
  cases s <;> cases t <;> simp_all [canAdvanceTo, depth]

theorem canAdvanceTo_of_isTerminal {s : StepState} (h : s.isTerminal = true) (t : StepState) :
    s.canAdvanceTo t = false := by
  cases s <;> simp_all [isTerminal, canAdvanceTo]

theorem canAdvanceTo_ofFailure {s : StepState} (h : s.isTerminal = false) (f : Failure)
    (now : Instant) : s.canAdvanceTo (.ofFailure f now) = true := by
  cases s <;> simp_all [isTerminal, canAdvanceTo, ofFailure]

/-- Success is entered from an execution, and from nowhere else. -/
theorem canAdvanceTo_succeeded_iff {s : StepState} {t u : Instant} :
    s.canAdvanceTo (.succeeded t u) = true ↔ ∃ start, s = .executing start := by
  cases s <;> simp [canAdvanceTo]

end StepState

/-- Some run has this move in its life: the two names belong to states with a move between them. -/
def StateTransition.IsLegal (t : StateTransition) : Prop :=
  ∃ s s' : StepState, s.name = t.source ∧ s'.name = t.target ∧ s.canAdvanceTo s' = true

/-- The end that a result stands for. -/
def StepState.Settles (result : Except Failure Unit) (s : StepState) : Prop :=
  match result with
  | .ok () => ∃ startedAt completedAt, s = .succeeded startedAt completedAt
  | .error f => ∃ failedAt, s = .ofFailure f failedAt

/-! ## Moves of a context

A request is granted as a whole or refused without a trace, so there are just two cases wherever a
context has been asked to move. The named moves are requests for a state that carries some time of
its own: success takes over the start of the execution that it ends, and is refused to a run that is
not executing. -/

namespace StepContext

def moved (c : StepContext) (next : StepState) (now : Instant) : StepContext :=
  { c with
    state := next
    transitions := c.transitions ++ [⟨c.state.name, next.name, now⟩] }

theorem advance_of_canAdvanceTo {c : StepContext} {next : StepState} (now : Instant)
    (h : c.state.canAdvanceTo next = true) : c.advance next now = (true, c.moved next now) := by
  rw [advance, if_pos h, moved]

theorem advance_of_not_canAdvanceTo {c : StepContext} {next : StepState} (now : Instant)
    (h : c.state.canAdvanceTo next = false) : c.advance next now = (false, c) := by
  rw [advance, if_neg (by rw [h]; exact Bool.false_ne_true)]

theorem advance_cases (c : StepContext) (next : StepState) (now : Instant) :
    (c.state.canAdvanceTo next = true ∧ c.advance next now = (true, c.moved next now)) ∨
      (c.state.canAdvanceTo next = false ∧ c.advance next now = (false, c)) := by
  cases h : c.state.canAdvanceTo next with
  | true => exact .inl ⟨rfl, advance_of_canAdvanceTo now h⟩
  | false => exact .inr ⟨rfl, advance_of_not_canAdvanceTo now h⟩

theorem advance_fst_iff {c : StepContext} {next : StepState} {now : Instant} :
    (c.advance next now).1 = true ↔
      ∃ t, (c.advance next now).2.transitions = c.transitions ++ [t] := by
  rcases advance_cases c next now with ⟨-, h⟩ | ⟨-, h⟩
  · rw [h]
    exact ⟨fun _ ↦ ⟨_, rfl⟩, fun _ ↦ rfl⟩
  · rw [h]
    constructor
    · intro hf
      cases hf
    · rintro ⟨t, ht⟩
      exact absurd (congrArg List.length ht) (by simp)

theorem eq_of_advance_fst {c : StepContext} {next : StepState} {now : Instant}
    (h : (c.advance next now).1 = false) : (c.advance next now).2 = c := by
  rcases advance_cases c next now with ⟨-, ha⟩ | ⟨-, ha⟩
  · rw [ha] at h
    cases h
  · rw [ha]

theorem markSucceeded_state {c : StepContext} {now : Instant}
    (h : (c.markSucceeded now).1 = true) :
    ∃ start, c.state = .executing start ∧
      (c.markSucceeded now).2.state = .succeeded start now := by
  rw [markSucceeded] at h ⊢
  rcases advance_cases c (.succeeded (c.executionStart now) now) now with ⟨hc, ha⟩ | ⟨-, ha⟩
  · obtain ⟨start, hs⟩ := StepState.canAdvanceTo_succeeded_iff.mp hc
    have hstart : c.executionStart now = start := by rw [executionStart, hs]
    exact ⟨start, hs, by rw [ha, moved, hstart]⟩
  · rw [ha] at h
    cases h

theorem markFailed_state {c : StepContext} (h : c.state.isTerminal = false) (f : Failure)
    (now : Instant) : (c.markFailed f now).2.state = .ofFailure f now := by
  rw [markFailed, advance_of_canAdvanceTo now (StepState.canAdvanceTo_ofFailure h f now), moved]

/-- A run that is not over is executing after these two, whether the first is accepted or not. -/
theorem executing_of_not_terminal {c : StepContext} (h : c.state.isTerminal = false)
    (t u : Instant) :
    ∃ start, ((c.markValidated t).2.markExecuting u).2.state = .executing start := by
  rw [markValidated, markExecuting]
  cases hs : c.state with
  | created =>
    rw [advance_of_canAdvanceTo t (by rw [hs]; rfl), advance_of_canAdvanceTo u (by rfl)]
    exact ⟨u, rfl⟩
  | validated validatedAt =>
    rw [advance_of_not_canAdvanceTo t (by rw [hs]; rfl),
      advance_of_canAdvanceTo u (by rw [hs]; rfl)]
    exact ⟨u, rfl⟩
  | executing start =>
    rw [advance_of_not_canAdvanceTo t (by rw [hs]; rfl),
      advance_of_not_canAdvanceTo u (by rw [hs]; rfl)]
    exact ⟨start, hs⟩
  | succeeded | failed =>
    rw [hs] at h
    cases h

/-! ## The invariant -/

/-- The list of moves tells how the state came about. -/
structure Coherent (c : StepContext) : Prop where
  /-- The first move leaves the first state. -/
  starts : ∀ t ∈ c.transitions.head?, t.source = StepState.created.name
  /-- Each move starts where the one before it ended. -/
  contiguous : c.transitions.IsChain fun t u ↦ t.target = u.source
  legal : ∀ t ∈ c.transitions, t.IsLegal
  /-- The last move entered the present state. -/
  ends : (c.transitions.getLast?.map StateTransition.target).getD StepState.created.name =
    c.state.name
  bounded : c.transitions.length ≤ c.state.depth

theorem coherent_create (runId : RunId) (host : Host) (worker : Worker) (params : StepParams)
    (limits : StepLimits) : (create runId host worker params limits).Coherent where
  starts := by simp [create]
  contiguous := List.isChain_nil
  legal := by simp [create]
  ends := rfl
  bounded := Nat.le_refl 0

theorem Coherent.moved {c : StepContext} {next : StepState} {now : Instant} (hc : c.Coherent)
    (h : c.state.canAdvanceTo next = true) : (c.moved next now).Coherent where
  starts := by
    intro t ht
    rw [StepContext.moved, List.head?_append] at ht
    cases hts : c.transitions with
    | nil =>
      -- the new move is the first one, and an empty list is that of the first state
      have hends := hc.ends
      rw [hts] at ht hends
      cases ht
      exact hends.symm
    | cons u us =>
      rw [hts] at ht
      exact hc.starts t (by rw [hts]; exact ht)
  contiguous := by
    -- only the seam is new, and there the old list ends in the present state
    refine List.IsChain.append hc.contiguous (List.isChain_singleton _) ?_
    intro t ht u hu
    have hends := hc.ends
    rw [ht] at hends
    cases hu
    exact hends
  legal := by
    intro t ht
    rcases List.mem_append.mp ht with ht | ht
    · exact hc.legal t ht
    · rw [List.mem_singleton.mp ht]
      exact ⟨c.state, next, rfl, rfl, h⟩
  ends := by simp [StepContext.moved]
  bounded := by
    -- one entry more, and at least one level deeper
    have hlt := StepState.depth_lt_of_canAdvanceTo h
    have hle := hc.bounded
    simp only [StepContext.moved, List.length_append, List.length_singleton]
    omega

/-! ## Touches -/

/-- What can be done to a context at once: it is asked to move, or something is noted in it. -/
inductive Touches (c : StepContext) : StepContext → Prop
  | advance (next : StepState) (now : Instant) : Touches c (c.advance next now).2
  | setMetadata (key value : String) : Touches c (c.setMetadata key value)

theorem Coherent.touches {c d : StepContext} (hc : c.Coherent) (h : c.Touches d) :
    d.Coherent := by
  cases h with
  | advance next now =>
    rcases advance_cases c next now with ⟨hn, ha⟩ | ⟨-, ha⟩
    · rw [ha]
      exact hc.moved hn
    · rw [ha]
      exact hc
  | setMetadata key value =>
    exact ⟨hc.starts, hc.contiguous, hc.legal, hc.ends, hc.bounded⟩

theorem Coherent.reaches {c d : StepContext} (hc : c.Coherent) (h : ReflTransGen Touches c d) :
    d.Coherent := by
  induction h with
  | refl => exact hc
  | tail _ step ih => exact ih.touches step

theorem Touches.terminal {c d : StepContext} (h : c.Touches d) (hc : c.state.isTerminal = true) :
    d.state = c.state ∧ d.transitions = c.transitions := by
  cases h with
  | advance next now =>
    rw [advance_of_not_canAdvanceTo now (StepState.canAdvanceTo_of_isTerminal hc next)]
    exact ⟨rfl, rfl⟩
  | setMetadata key value => exact ⟨rfl, rfl⟩

/-- A run that is over stays as it is. -/
theorem terminal_of_reaches {c d : StepContext} (h : ReflTransGen Touches c d)
    (hc : c.state.isTerminal = true) : d.state = c.state ∧ d.transitions = c.transitions := by
  induction h with
  | refl => exact ⟨rfl, rfl⟩
  | tail _ step ih =>
    have hstep := step.terminal (by rw [ih.1]; exact hc)
    exact ⟨hstep.1.trans ih.1, hstep.2.trans ih.2⟩

/-! ### What touches leave alone -/

/-- Two contexts of one run: only state, moves and notes may differ. -/
structure SameRun (c d : StepContext) : Prop where
  runId : d.runId = c.runId
  host : d.host = c.host
  worker : d.worker = c.worker
  params : d.params = c.params
  limits : d.limits = c.limits

theorem Touches.sameRun {c d : StepContext} (h : c.Touches d) : c.SameRun d := by
  cases h with
  | advance next now =>
    rcases advance_cases c next now with ⟨-, ha⟩ | ⟨-, ha⟩
    · rw [ha]
      exact ⟨rfl, rfl, rfl, rfl, rfl⟩
    · rw [ha]
      exact ⟨rfl, rfl, rfl, rfl, rfl⟩
  | setMetadata key value => exact ⟨rfl, rfl, rfl, rfl, rfl⟩

theorem sameRun_of_reaches {c d : StepContext} (h : ReflTransGen Touches c d) : c.SameRun d := by
  induction h with
  | refl => exact ⟨rfl, rfl, rfl, rfl, rfl⟩
  | tail _ step ih =>
    have hstep := step.sameRun
    exact ⟨hstep.runId.trans ih.runId, hstep.host.trans ih.host, hstep.worker.trans ih.worker,
      hstep.params.trans ih.params, hstep.limits.trans ih.limits⟩

theorem advance_metadata (c : StepContext) (next : StepState) (now : Instant) :
    (c.advance next now).2.metadata = c.metadata := by
  rcases advance_cases c next now with ⟨-, h⟩ | ⟨-, h⟩
  · rw [h, moved]
  · rw [h]

end StepContext

/-! ## Runs of steps

How a step treats its context is all that is needed of it here, and not what it does. It touches the
context and nothing else, and a run that was open when the step began is settled by it at the end.
-/

namespace InstallStep

open StepContext (Touches)

theorem note_reaches (configuration : BuildConfiguration) (report : InstallReport)
    (c : StepContext) : ReflTransGen Touches c (note configuration report c) :=
  (ReflTransGen.single (.setMetadata _ _)).tail (.setMetadata _ _)

/-- A step does nothing to its context but touch it. -/
theorem perform_reaches (t : Timer) (s : InstallStep σ) (p : Progress σ) :
    ReflTransGen Touches p.context (s.perform t p).2.context := by
  let checking := p.await t p.context.limits.validate s.target.check
  have hready : ReflTransGen Touches p.context
      ((checking.2.move StepContext.markValidated).move StepContext.markExecuting).context :=
    (ReflTransGen.single (.advance _ _)).tail (.advance _ _)
  rw [perform_eq]
  split
  · exact .refl
  · dsimp only
    split
    · exact .refl
    · split
      · exact hready
      · exact hready.trans (note_reaches _ _ _)

theorem runToCompletion_reaches (t : Timer) (s : InstallStep σ) (p : Progress σ) :
    ReflTransGen Touches p.context (s.runToCompletion t p).2.context := by
  have hperform := perform_reaches t s p
  rw [runToCompletion]
  split <;> rename_i h
  · rw [h] at hperform
    exact hperform.tail (.advance _ _)
  · rw [h] at hperform
    exact hperform.tail (.advance _ _)

/-- Until it is settled, a run that was not over is not over; and it is executing if it went well.
-/
theorem perform_state (t : Timer) (s : InstallStep σ) {p : Progress σ}
    (h : p.context.state.isTerminal = false) :
    match s.perform t p with
    | (.ok (), q) => ∃ start, q.context.state = .executing start
    | (.error _, q) => q.context.state.isTerminal = false := by
  -- the state is that of the start before the check has passed, and an execution after it
  let checking := p.await t p.context.limits.validate s.target.check
  obtain ⟨start, hready⟩ : ∃ start,
      ((checking.2.move StepContext.markValidated).move
        StepContext.markExecuting).context.state = .executing start :=
    StepContext.executing_of_not_terminal h _ _
  rw [perform_eq]
  cases p.context.buildConfiguration with
  | error f => exact h
  | ok k =>
    dsimp only
    cases checked s.target p.context.limits.validate checking.1 with
    | error f => exact h
    | ok _ =>
      dsimp only
      generalize installed _ _ = outcome
      cases outcome with
      | error f =>
        dsimp only
        rw [Progress.await_context, hready]
        rfl
      | ok report => exact ⟨start, hready⟩

/-- A run that was not over ends in the state that its result stands for. -/
theorem runToCompletion_settles (t : Timer) (s : InstallStep σ) {p : Progress σ}
    (h : p.context.state.isTerminal = false) :
    (s.runToCompletion t p).2.context.state.Settles (s.runToCompletion t p).1 := by
  have hperform := s.perform_state t h
  rw [runToCompletion]
  split <;> rename_i hp
  · rw [hp] at hperform
    obtain ⟨start, hstart⟩ := hperform
    exact ⟨_, _, by
      rw [Progress.move, StepContext.markSucceeded,
        StepContext.advance_of_canAdvanceTo _ (by rw [hstart]; rfl), StepContext.moved]⟩
  · rw [hp] at hperform
    exact ⟨_, StepContext.markFailed_state hperform _ _⟩

end InstallStep

/-! ## Sequences of calls -/

/-- What a caller can do with a context: the moves under their names, any move by its target state,
a note, and the run of a step on any target with any installer, by any timer. -/
inductive ContextCall : Type 1 where
  | markValidated
  | markExecuting
  | markSucceeded
  | markFailed (f : Failure)
  | advance (next : StepState)
  | setMetadata (key value : String)
  | run {σ : Type} (t : Timer) (s : InstallStep σ) (world : σ)

namespace ContextCall

/-- What a move answers, and the context after the call. -/
def apply (c : StepContext) (now : Instant) : ContextCall → Option Bool × StepContext
  | markValidated => (some (c.markValidated now).1, (c.markValidated now).2)
  | markExecuting => (some (c.markExecuting now).1, (c.markExecuting now).2)
  | markSucceeded => (some (c.markSucceeded now).1, (c.markSucceeded now).2)
  | markFailed f => (some (c.markFailed f now).1, (c.markFailed f now).2)
  | advance next => (some (c.advance next now).1, (c.advance next now).2)
  | setMetadata key value => (none, c.setMetadata key value)
  | run t s world => (none, (s.runToCompletion t ⟨c, world, now⟩).2.context)

theorem apply_of_answer {call : ContextCall} {c : StepContext} {now : Instant} {answer : Bool}
    (h : (call.apply c now).1 = some answer) :
    ∃ next, call.apply c now = (some answer, (c.advance next now).2) ∧
      (c.advance next now).1 = answer := by
  cases call with
  | markValidated => exact ⟨_, Prod.ext h rfl, Option.some.inj h⟩
  | markExecuting => exact ⟨_, Prod.ext h rfl, Option.some.inj h⟩
  | markSucceeded => exact ⟨_, Prod.ext h rfl, Option.some.inj h⟩
  | markFailed f => exact ⟨_, Prod.ext h rfl, Option.some.inj h⟩
  | advance next => exact ⟨_, Prod.ext h rfl, Option.some.inj h⟩
  | setMetadata key value => cases h
  | run t s world => cases h

theorem apply_reaches (call : ContextCall) (c : StepContext) (now : Instant) :
    ReflTransGen StepContext.Touches c (call.apply c now).2 := by
  -- every call is one touch, except for the run of a step
  cases call with
  | setMetadata key value => exact .single (.setMetadata key value)
  | run t s world => exact s.runToCompletion_reaches t ⟨c, world, now⟩
  | _ => exact .single (.advance _ _)

end ContextCall

namespace StepContext

/-- The context after a sequence of calls, each at its own moment. -/
def after (c : StepContext) (calls : List (Instant × ContextCall)) : StepContext :=
  calls.foldl (fun c call ↦ (call.2.apply c call.1).2) c

theorem after_reaches (calls : List (Instant × ContextCall)) (c : StepContext) :
    ReflTransGen Touches c (c.after calls) := by
  induction calls generalizing c with
  | nil => exact .refl
  | cons call calls ih => exact (call.2.apply_reaches c call.1).trans (ih _)

/-- What can be relied on at every point of the life of a context. -/
structure WellKept (c : StepContext) : Prop where
  coherent : c.Coherent
  atMostThree : c.transitions.length ≤ 3
  /-- A move that answers yes has added one entry to the list. -/
  accepted : ∀ (call : ContextCall) (now : Instant) (answer : Bool),
    (call.apply c now).1 = some answer →
      (answer = true ↔ ∃ t, (call.apply c now).2.transitions = c.transitions ++ [t])
  /-- A move that answers no has left state and list as they were. -/
  refused : ∀ (call : ContextCall) (now : Instant), (call.apply c now).1 = some false →
    (call.apply c now).2.state = c.state ∧ (call.apply c now).2.transitions = c.transitions
  /-- Once the run is over, no later move is accepted. -/
  closed : c.state.isTerminal = true → ∀ (later : List (Instant × ContextCall)) (call : ContextCall)
    (now : Instant) (answer : Bool), (call.apply (c.after later) now).1 = some answer →
      answer = false
  /-- Success takes over the start of the execution. -/
  start : ∀ now, (c.markSucceeded now).1 = true → ∃ startedAt, c.state = .executing startedAt ∧
    (c.markSucceeded now).2.state = .succeeded startedAt now

theorem Coherent.wellKept {c : StepContext} (hc : c.Coherent) : c.WellKept where
  coherent := hc
  atMostThree := hc.bounded.trans c.state.depth_le_three
  accepted := by
    intro call now answer h
    obtain ⟨next, happly, hnext⟩ := ContextCall.apply_of_answer h
    rw [happly, ← hnext]
    exact advance_fst_iff
  refused := by
    intro call now h
    obtain ⟨next, happly, hnext⟩ := ContextCall.apply_of_answer h
    rw [happly, eq_of_advance_fst hnext]
    exact ⟨rfl, rfl⟩
  closed := by
    intro hterminal later call now answer h
    obtain ⟨next, -, hnext⟩ := ContextCall.apply_of_answer h
    have hstate := (terminal_of_reaches (after_reaches later c) hterminal).1
    rw [← hnext, advance_of_not_canAdvanceTo]
    exact StepState.canAdvanceTo_of_isTerminal (by rw [hstate]; exact hterminal) next
  start := fun _ h ↦ markSucceeded_state h

/-- Every context that is made for a host is well kept after any sequence of calls. -/
theorem wellKept_after {runId : RunId} {host : Host} {params : StepParams} {limits : StepLimits}
    {c : StepContext} (h : forHost runId host params limits = .ok c)
    (calls : List (Instant × ContextCall)) : (c.after calls).WellKept := by
  have hcreated : c.Coherent := by
    rw [forHost] at h
    cases hw : host.selectWorker params.worker with
    | error f =>
      rw [hw] at h
      cases h
    | ok worker =>
      rw [hw] at h
      cases h
      exact coherent_create runId host worker params limits
  exact (hcreated.reaches (after_reaches calls c)).wellKept

def stub (limits : StepLimits) : StepContext :=
  .create default { (default : Host) with hostname := "stub", workers := [⟨"stub", "0", true⟩] }
    ⟨"stub", "0", true⟩ ⟨"Release", some "stub-0", none, none, none⟩ limits

/-- A run that has failed late stays failed, whatever else is asked for. -/
theorem wellKept_after_overrun :
    forHost default (stub .usual).host (stub .usual).params .usual = .ok (stub .usual) ∧
      ((stub .usual).after
        [(default, .run .ticking (InstallStep.answering (.now (.ok ())) .never) ()),
          (default, .markSucceeded), (default, .advance .created)]).WellKept ∧
      ((stub .usual).after
        [(default, .run .ticking (InstallStep.answering (.now (.ok ())) .never) ()),
          (default, .markSucceeded), (default, .advance .created)]).transitions.map
            StateTransition.target = ["Validated", "Executing", "Failed"] := by
  have hmade : forHost default (stub .usual).host (stub .usual).params .usual =
      .ok (stub .usual) := rfl
  exact ⟨hmade, wellKept_after hmade _, rfl⟩

end StepContext

end BuildFleet
