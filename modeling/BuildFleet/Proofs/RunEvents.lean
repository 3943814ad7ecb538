import BuildFleet.Proofs.RunCourse
import Mathlib.Data.List.Nodup

/-!
# The events of a run

Those who follow a run by its events learn what its outcome says, and learn it in one of three
sequences. Which of them it is depends on the request and the registry alone. A run can be left in
five places, and each writes down its last event from what it has at hand; that this is always the
end that the outcome tells is what has to be shown.

Events are made in the order of time, and delivered one after another to all who listen. So nobody
sees less than anybody else, and nobody sees an event before the others have seen the one before it.

## Deliveries of a run

A report carries the deliveries that have been made, and not only the events. `DeliveredTo` says of
any list of deliveries what it is to be those of some events to so many handlers, from outside: the
list has the right length, what stands at a place is the event and the handler that belong there,
and each handler sees the events as they are. It is shown for the loop that delivers by an induction
on the events, and for a run by the fact that every exit has delivered just its own events.
-/

namespace BuildFleet

variable {σ : Type}

/-! ## Deliveries -/

namespace RunEvent

/-- The events that one handler sees, out of what is delivered to all of them. -/
def seenBy (handler : Nat) (deliveries : List (Nat × RunEvent)) : List RunEvent :=
  (deliveries.filter fun d ↦ d.1 == handler).map Prod.snd

theorem deliveries_cons (handlers : Nat) (e : RunEvent) (es : List RunEvent) :
    deliveries handlers (e :: es) = (List.range handlers).map (·, e) ++ deliveries handlers es :=
  List.flatMap_cons

theorem length_deliveries (handlers : Nat) (es : List RunEvent) :
    (deliveries handlers es).length = es.length * handlers := by
  induction es with
  | nil => simp [deliveries]
  | cons e es ih =>
    rw [deliveries_cons, List.length_append, List.length_map, List.length_range, ih,
      List.length_cons, Nat.succ_mul, Nat.add_comm]

/-- The deliveries of an event stand together, in the order of the handlers, and those of earlier
events stand before them. -/
theorem getElem?_deliveries {handlers i : Nat} (hi : i < handlers) (es : List RunEvent) (j : Nat) :
    (deliveries handlers es)[j * handlers + i]? = es[j]?.map (i, ·) := by
  have hlength : ∀ e : RunEvent, ((List.range handlers).map (·, e)).length = handlers := by
    intro e
    rw [List.length_map, List.length_range]
  induction es generalizing j with
  | nil => simp [deliveries]
  | cons e es ih =>
    -- the first event takes up one round, by which all later places are shifted
    rw [deliveries_cons]
    cases j with
    | zero =>
      rw [Nat.zero_mul, Nat.zero_add, List.getElem?_append_left (by rw [hlength]; exact hi),
        List.getElem?_map, List.getElem?_range hi]
      rfl
    | succ j =>
      have hafter : (j + 1) * handlers + i = handlers + (j * handlers + i) := by
        rw [Nat.succ_mul]
        omega
      rw [hafter, List.getElem?_append_right (by rw [hlength]; exact Nat.le_add_right _ _), hlength,
        Nat.add_sub_cancel_left, ih, List.getElem?_cons_succ]

theorem seenBy_append (handler : Nat) (ds ds' : List (Nat × RunEvent)) :
    seenBy handler (ds ++ ds') = seenBy handler ds ++ seenBy handler ds' := by
  rw [seenBy, List.filter_append, List.map_append, seenBy, seenBy]

theorem seenBy_deliveries {handlers i : Nat} (hi : i < handlers) (es : List RunEvent) :
    seenBy i (deliveries handlers es) = es := by
  induction es with
  | nil => rfl
  | cons e es ih =>
    have hfirst : seenBy i ((List.range handlers).map (·, e)) = [e] := by
      have honce : (List.range handlers).filter (fun j ↦ j == i) = [i] := by
        rw [List.filter_beq,
          List.count_eq_one_of_mem List.nodup_range (List.mem_range.mpr hi), List.replicate_one]
      rw [seenBy, List.filter_map, List.map_map]
      change ((List.range handlers).filter fun j ↦ j == i).map _ = [e]
      rw [honce]
      rfl
    rw [deliveries_cons, seenBy_append, hfirst, ih, List.singleton_append]

/-- What is delivered to so many handlers is these events, and each of them to all. -/
structure DeliveredTo (handlers : Nat) (es : List RunEvent) (deliveries : List (Nat × RunEvent)) :
    Prop where
  /-- Each handler sees all events. -/
  seen : ∀ i < handlers, seenBy i deliveries = es
  /-- The handlers are called in turn, and all of them for one event before any for the next. -/
  inTurn : ∀ j, ∀ i < handlers, deliveries[j * handlers + i]? = es[j]?.map (i, ·)
  /-- Nothing else is delivered. -/
  total : deliveries.length = es.length * handlers

theorem deliveredTo_deliveries (handlers : Nat) (es : List RunEvent) :
    DeliveredTo handlers es (deliveries handlers es) where
  seen := fun _ hi ↦ seenBy_deliveries hi es
  inTurn := fun j _ hi ↦ getElem?_deliveries hi es j
  total := length_deliveries handlers es

end RunEvent

/-! ## Ends -/

/-- The event that a run ends with, by its outcome. -/
def StepOutcome.ending (o : StepOutcome) : Option RunEvent :=
  match o.state with
  | .succeeded .. => some (.stepSucceeded o.runId o.step)
  | .failed kind error _ => some (.stepFailed o.runId o.step kind error)
  | _ => none

theorem StepOutcome.ending_of_settles {o : StepOutcome} {r : RunRequest}
    (result : Except Failure Unit) (h : o.state.Settles result) (hstep : o.step = r.step) :
    o.ending = some (Runner.ended r o.runId result) := by
  rw [ending]
  cases result with
  | ok _ =>
    obtain ⟨t, u, ht⟩ := h
    rw [ht, hstep]
    rfl
  | error f =>
    obtain ⟨t, ht⟩ := h
    rw [ht, hstep]
    rfl

namespace Runner

variable {k : Runner σ} {r : RunRequest} {runId : RunId} {c : StepContext}

def Refuses (k : Runner σ) (r : RunRequest) : Prop :=
  (∀ kind : StepKind, kind.name ≠ r.step) ∨
    (∀ worker, (k.registry.resolve r.hostname).selectWorker r.params.worker ≠ .ok worker) ∨
      r.params.deviceSerial = none ∨ r.params.deviceSerial = some ""

theorem refuses_of_parse {f : Failure} (h : StepKind.parse r.step = .error f) : k.Refuses r := by
  refine .inl fun kind hk ↦ ?_
  rw [← hk, StepKind.parse_name] at h
  cases h

theorem refuses_of_selectWorker {f : Failure}
    (h : (k.registry.resolve r.hostname).selectWorker r.params.worker = .error f) :
    k.Refuses r := by
  refine .inr (.inl fun worker hw ↦ ?_)
  rw [h] at hw
  cases hw

theorem refuses_of_deviceSerial {f : Failure} (hc : k.Opens r runId c)
    (h : c.deviceSerial = .error f) : k.Refuses r := by
  rcases c.deviceSerial_cases with ⟨serial, -, -, hok⟩ | ⟨hnone, -⟩
  · rw [hok] at h
    cases h
  · rw [hc.params] at hnone
    exact .inr (.inr hnone)

theorem not_refuses {kind : StepKind} {serial : String} (hk : kind.name = r.step)
    (hc : k.Opens r runId c) (h : c.deviceSerial = .ok serial) : ¬ k.Refuses r := by
  rintro (hstep | hworker | hnone)
  · exact hstep kind hk
  · exact hworker c.worker (selectWorker_of_opens hc)
  · rcases c.deviceSerial_cases with ⟨serial', hs, hne, -⟩ | ⟨-, herror⟩
    · rw [← hc.params, hs] at hnone
      rcases hnone with hnone | hnone
      · cases hnone
      · exact hne (Option.some.inj hnone)
    · rw [herror] at h
      cases h

/-! ## The sequences -/

/-- What those who follow a run by its events learn. -/
structure Announces (k : Runner σ) (r : RunRequest) (report : RunReport σ) : Prop where
  step : report.outcome.step = r.step
  hostname : report.outcome.hostname = r.hostname
  /-- Without a host name, there is nothing but the refusal. -/
  nameless : Text.allBlank r.hostname = true → ∃ kind error,
    report.outcome.ending = some (.stepFailed report.outcome.runId r.step kind error) ∧
      report.events = [.stepFailed report.outcome.runId r.step kind error]
  /-- A request that is refused later has its host resolved. -/
  refused : Text.allBlank r.hostname = false → k.Refuses r → ∃ kind error,
    report.outcome.ending = some (.stepFailed report.outcome.runId r.step kind error) ∧
      report.events =
        [.hostResolved r.hostname (k.registry.isKnown r.hostname)
            (k.registry.resolve r.hostname).workers.length,
          .stepFailed report.outcome.runId r.step kind error]
  /-- Any other request is run as a worker to its end. -/
  complete : Text.allBlank r.hostname = false → ¬ k.Refuses r → ∃ worker ending,
    report.outcome.worker = some worker ∧ report.outcome.ending = some ending ∧
      report.events =
        [.hostResolved r.hostname (k.registry.isKnown r.hostname)
            (k.registry.resolve r.hostname).workers.length,
          .stepStarted report.outcome.runId r.step worker, ending]

theorem announces_of_refusal {report : RunReport σ} {f : Failure}
    (hn : Text.allBlank r.hostname = false) (hr : k.Refuses r)
    (hstep : report.outcome.step = r.step) (hhost : report.outcome.hostname = r.hostname)
    (hending : report.outcome.ending = some (.ofFailure report.outcome.runId r.step f))
    (hevents : report.events = [k.resolved r, .ofFailure report.outcome.runId r.step f]) :
    k.Announces r report where
  step := hstep
  hostname := hhost
  nameless := by
    intro h
    rw [hn] at h
    cases h
  refused := fun _ _ ↦ ⟨f.kind, f.message, hending, hevents⟩
  complete := fun _ h ↦ absurd hr h

theorem Exit.announces {now : Instant} {w : σ} {report : RunReport σ}
    (h : k.Exit r runId now w report) : k.Announces r report := by
  cases h with
  | nameless hn =>
    refine ⟨rfl, rfl, fun _ ↦ ⟨_, _, rfl, rfl⟩, ?_, ?_⟩
    · intro h
      rw [hn] at h
      cases h
    · intro h
      rw [hn] at h
      cases h
  | unknown hn h => exact announces_of_refusal hn (refuses_of_parse h) rfl rfl rfl rfl
  | workerless hn _ h =>
    exact announces_of_refusal hn (refuses_of_selectWorker h) rfl rfl rfl rfl
  | @deviceless hn _ _ c hc f h =>
    have hsame := (StepContext.Touches.advance (c := c) (.ofFailure f now) now).sameRun
    have hopen : c.state.isTerminal = false := congrArg StepState.isTerminal hc.fresh.created
    have hrunId : ((c.markFailed f now).2.toOutcome r.step).runId = runId :=
      hsame.runId.trans hc.runId
    have hhost : ((c.markFailed f now).2.toOutcome r.step).hostname = r.hostname :=
      (congrArg Host.hostname hsame.host).trans (hostname_of_opens hc)
    have hending : ((c.markFailed f now).2.toOutcome r.step).ending = _ :=
      StepOutcome.ending_of_settles (r := r) (.error f)
        ⟨now, StepContext.markFailed_state hopen f now⟩ rfl
    refine announces_of_refusal hn (refuses_of_deviceSerial hc h) rfl hhost hending ?_
    rw [RunReport.delivered, hrunId]
  | @complete hn _ hk c hc serial h result p hrun =>
    let s := Android.stepOn k.bridge serial c.requiresElevatedInstall
    have hopen : c.state.isTerminal = false := congrArg StepState.isTerminal hc.fresh.created
    have hsame := StepContext.sameRun_of_reaches (s.runToCompletion_reaches k.timer ⟨c, w, now⟩)
    have hsettles := s.runToCompletion_settles k.timer (p := ⟨c, w, now⟩) hopen
    rw [hrun] at hsame hsettles
    have hrunId : (p.context.toOutcome r.step).runId = runId := hsame.runId.trans hc.runId
    have hending : (p.context.toOutcome r.step).ending = _ :=
      StepOutcome.ending_of_settles (r := r) result hsettles rfl
    refine ⟨rfl, (congrArg Host.hostname hsame.host).trans (hostname_of_opens hc), ?_, ?_, ?_⟩
    · intro h
      rw [hn] at h
      cases h
    · exact fun _ hr ↦ absurd hr (not_refuses hk hc h)
    · refine fun _ _ ↦ ⟨_, _, congrArg (fun w : Worker ↦ some w.name) hsame.worker, hending, ?_⟩
      rw [RunReport.delivered, hrunId]
      rfl

theorem Exit.deliveries_eq {now : Instant} {w : σ} {report : RunReport σ}
    (h : k.Exit r runId now w report) :
    report.deliveries = RunEvent.deliveries k.handlers report.events := by
  cases h <;> rfl

/-- Whatever is asked for and however the device behaves, all handlers hear the same of a run, in
the same order: that the host has been resolved, that the step has started, and how it has ended, as
far as it gets. -/
theorem run_announces (k : Runner σ) (r : RunRequest) (runId : RunId) (now : Instant) (w : σ) :
    k.Announces r (k.run r runId now w) ∧
      RunEvent.DeliveredTo k.handlers (k.run r runId now w).events
        (k.run r runId now w).deliveries := by
  have hexit := k.exit_run r runId now w
  refine ⟨hexit.announces, ?_⟩
  rw [hexit.deliveries_eq]
  exact RunEvent.deliveredTo_deliveries _ _

end Runner

end BuildFleet
