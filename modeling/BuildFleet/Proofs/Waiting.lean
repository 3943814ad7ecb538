import BuildFleet.Step.Install

/-!
# Waiting for replies

What a wait comes to is said by one function of the reply and of a deadline: the answer, if it has
come by then. The deadline of a wait is not its limit but the moment at which a timer that has been
set to the limit goes off. Nothing else of the time counts, neither when the wait began nor what was
waited for before, and so the run of a step can be written down in terms of the answers that come by
its two deadlines. All that is said below about steps and runs starts from `perform_eq`, and from
`Progress.await_fst` for the two waits in it.

## Deadlines and limits

A deadline may be moved as long as no reply comes between its old place and the new one
(`answerBy_congr`). For timers that can be relied on, a limit and its deadline are less than a
millisecond apart, so the two are the same to every reply that comes clear of the limit: by the
limit, or a millisecond after it at least.
-/

namespace BuildFleet

variable {σ α : Type}

/-! ## Answers by a deadline -/

namespace Reply

/-- The answer of a reply, if it has come by a deadline. -/
def answerBy (deadline : Span) : Reply α → Option α
  | never => none
  | after delay a => if delay.nanoseconds ≤ deadline.nanoseconds then some a else none

/-- How long a reply takes, if it comes at all. -/
def delay? : Reply α → Option Span
  | never => none
  | after delay _ => some delay

theorem awaited_fst (deadline : Span) (r : Reply α) :
    (r.awaited deadline).1 = r.answerBy deadline := by
  cases r with
  | never => rfl
  | after delay a =>
    rw [awaited, answerBy]
    split <;> rfl

theorem delay?_map {β : Type} (f : α → β) (r : Reply α) : (r.map f).delay? = r.delay? := by
  cases r <;> rfl

theorem answerBy_mono {deadline later : Span} (h : deadline.nanoseconds ≤ later.nanoseconds)
    {r : Reply α} {a : α} (hr : r.answerBy deadline = some a) : r.answerBy later = some a := by
  cases r with
  | never => cases hr
  | after delay b =>
    rw [answerBy] at hr
    split at hr
    · rename_i hle
      rw [answerBy, if_pos (Nat.le_trans hle h), hr]
    · cases hr

theorem exists_answerBy {deadline delay : Span} {r : Reply α} (h : r.delay? = some delay)
    (hle : delay.nanoseconds ≤ deadline.nanoseconds) : ∃ a, r.answerBy deadline = some a := by
  cases r with
  | never => cases h
  | after _ a =>
    cases h
    exact ⟨a, by rw [answerBy, if_pos hle]⟩

/-- Two deadlines are the same to a reply that meets both or neither. -/
theorem answerBy_congr {deadline deadline' : Span} {r : Reply α}
    (h : ∀ delay ∈ r.delay?, delay.nanoseconds ≤ deadline.nanoseconds ↔
      delay.nanoseconds ≤ deadline'.nanoseconds) :
    r.answerBy deadline = r.answerBy deadline' := by
  cases r with
  | never => rfl
  | after delay a => simp only [answerBy, h delay rfl]

/-- A reply that comes by a limit, or a millisecond after it at least. -/
def IsClearOf (limit : Span) (r : Reply α) : Prop :=
  ∀ delay ∈ r.delay?, delay.nanoseconds ≤ limit.nanoseconds ∨
    limit.nanoseconds + Span.perMillisecond ≤ delay.nanoseconds

theorem IsClearOf.answerBy_lasts {limit : Span} {r : Reply α} (h : r.IsClearOf limit) {t : Timer}
    (ht : t.IsReliable) : r.answerBy (t.lasts limit) = r.answerBy limit := by
  refine answerBy_congr fun delay hdelay ↦ ?_
  have hearly := ht.neverEarly limit
  have hlate := ht.lasts_lt limit
  rcases h delay hdelay with hin | hout
  · exact ⟨fun _ ↦ hin, fun _ ↦ Nat.le_trans hin hearly⟩
  · constructor <;> intro hle <;> omega

theorem answerBy_lasts {limit : Span} {r : Reply α} (h : limit.IsWhole ∨ r.IsClearOf limit)
    {t : Timer} (ht : t.IsReliable) : r.answerBy (t.lasts limit) = r.answerBy limit := by
  rcases h with hwhole | hclear
  · have hkept : t.lasts limit = limit := ht.whole hwhole
    rw [hkept]
  · exact hclear.answerBy_lasts ht

end Reply

/-! ## Waits of a run -/

/-- The deadlines that a timer makes of limits. -/
def Timer.deadlines (t : Timer) (l : StepLimits) : StepLimits :=
  ⟨t.lasts l.validate, t.lasts l.install⟩

@[simp] theorem Timer.deadlines_validate (t : Timer) (l : StepLimits) :
    (t.deadlines l).validate = t.lasts l.validate := rfl

@[simp] theorem Timer.deadlines_install (t : Timer) (l : StepLimits) :
    (t.deadlines l).install = t.lasts l.install := rfl

namespace Progress

@[simp] theorem await_fst (t : Timer) (p : Progress σ) (limit : Span) (c : Call σ α) :
    (p.await t limit c).1 = (c p.world).1.answerBy (t.lasts limit) := by
  rw [← t.runs_eq_lasts p.now]
  exact Reply.awaited_fst _ _

@[simp] theorem await_context (t : Timer) (p : Progress σ) (limit : Span) (c : Call σ α) :
    (p.await t limit c).2.context = p.context := rfl

end Progress

/-! ## Steps -/

namespace InstallStep

/-- A step up to its end, in terms of the answers that come in time. -/
theorem perform_eq (t : Timer) (s : InstallStep σ) (p : Progress σ) :
    s.perform t p =
      match p.context.buildConfiguration with
      | .error f => (.error f, p)
      | .ok configuration =>
        let checking := p.await t p.context.limits.validate s.target.check
        match checked s.target p.context.limits.validate checking.1 with
        | .error f => (.error f, checking.2)
        | .ok () =>
          let ready := (checking.2.move StepContext.markValidated).move StepContext.markExecuting
          let installing := ready.await t ready.context.limits.install
            (s.installer.install (s.request configuration))
          match installed ready.context.limits.install installing.1 with
          | .error f => (.error f, installing.2)
          | .ok report =>
            (.ok (), { installing.2 with context := note configuration report ready.context }) :=
  rfl

/-- The step on a stub whose target and installer always give the same replies. -/
def answering (check : Reply (Except Failure Unit))
    (install : Reply (Except Failure InstallReport)) : InstallStep Unit where
  name := "stub_install"
  target := ⟨"stub", "stub-0", false, fun w ↦ (check, w)⟩
  installer := ⟨fun _ w ↦ (install, w)⟩

end InstallStep

end BuildFleet
