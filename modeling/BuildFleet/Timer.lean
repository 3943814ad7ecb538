import BuildFleet.Instant

/-!
# Timers

A wait that is limited ends when a timer goes off. Timers belong to the machine that a run is made
on, so how long one runs is not laid down here: the timer is a parameter of everything that waits,
and whatever is said of a run without a word about timers holds on every machine. Only one thing is
built in, that a timer keeps no calendar and runs for as long on one day as on another.

## What can be assumed of timers

A limit is what is asked for and the run of its timer is what one gets, and the two can differ.
Where that matters, what is needed is a hypothesis with a name. A timer *keeps* a limit if it goes
off exactly then. It is *reliable* if it never goes off before its limit, if it does not go off
earlier for being set to a longer one, and if it keeps the limits that are whole milliseconds. From
these three it follows that it is late by less than a millisecond, since it goes off no later than
it would for the next whole one.

Reliable timers are what systems with a tick of a millisecond have, and `Timer.ticking` is one that
waits for the first tick that is not early. A timer that keeps all limits is the ideal one.
-/

namespace BuildFleet

/-- The timers of a machine. -/
structure Timer where
  /-- How long a timer runs that is set at some point in time to a limit. -/
  runs : (start : Instant) → (limit : Span) → Span
  /-- It does not matter when it is set. -/
  steady : ∀ start start' limit, runs start limit = runs start' limit

/-- Whether a span is one of whole milliseconds. -/
def Span.IsWhole (s : Span) : Prop := s.nanoseconds % Span.perMillisecond = 0

namespace Timer

/-- How long a timer runs that is set to a limit. -/
def lasts (t : Timer) (limit : Span) : Span := t.runs default limit

theorem runs_eq_lasts (t : Timer) (start : Instant) (limit : Span) :
    t.runs start limit = t.lasts limit :=
  t.steady start default limit

/-- A timer that is set to this limit goes off exactly then. -/
def Keeps (t : Timer) (limit : Span) : Prop := t.lasts limit = limit

/-- What can be assumed of timers that tick once in a millisecond. -/
structure IsReliable (t : Timer) : Prop where
  neverEarly : ∀ limit, limit.nanoseconds ≤ (t.lasts limit).nanoseconds
  inOrder : ∀ {limit limit' : Span}, limit.nanoseconds ≤ limit'.nanoseconds →
    (t.lasts limit).nanoseconds ≤ (t.lasts limit').nanoseconds
  whole : ∀ {limit : Span}, limit.IsWhole → t.Keeps limit

variable {t : Timer}

theorem IsReliable.lasts_lt (h : t.IsReliable) (limit : Span) :
    (t.lasts limit).nanoseconds < limit.nanoseconds + Span.perMillisecond := by
  -- the next whole number of milliseconds is kept, and a timer for the limit is no later
  let ticks := (limit.nanoseconds + (Span.perMillisecond - 1)) / Span.perMillisecond
  have hkept : t.lasts (.ofMilliseconds ticks) = .ofMilliseconds ticks :=
    h.whole (Nat.mul_mod_left _ _)
  have hle : limit.nanoseconds ≤ (Span.ofMilliseconds ticks).nanoseconds := by
    simp only [Span.ofMilliseconds, ticks, Span.perMillisecond]
    omega
  have hlasts := h.inOrder hle
  rw [hkept] at hlasts
  simp only [Span.ofMilliseconds, ticks, Span.perMillisecond] at hlasts ⊢
  omega

/-- Limits of whole seconds, as they are given on the command line, are kept. -/
def KeepsSeconds (t : Timer) : Prop := ∀ seconds, t.Keeps (.ofSeconds seconds)

theorem IsReliable.keepsSeconds (h : t.IsReliable) : t.KeepsSeconds := by
  intro seconds
  refine h.whole ?_
  simp only [Span.IsWhole, Span.ofSeconds, Span.ofParts, Span.perSecond, Span.perMillisecond]
  omega

/-! ## A timer with a tick -/

/-- The timer that goes off at the first whole millisecond that is not early. -/
def ticking : Timer where
  runs _ limit :=
    .ofMilliseconds ((limit.nanoseconds + (Span.perMillisecond - 1)) / Span.perMillisecond)
  steady _ _ _ := rfl

theorem isReliable_ticking : ticking.IsReliable where
  neverEarly limit := by
    simp only [lasts, ticking, Span.ofMilliseconds, Span.perMillisecond]
    omega
  inOrder {limit limit'} h := by
    simp only [lasts, ticking, Span.ofMilliseconds, Span.perMillisecond]
    omega
  whole {limit} h := by
    simp only [Span.IsWhole, Span.perMillisecond] at h
    simp only [Keeps, lasts, ticking, Span.ofMilliseconds, Span.perMillisecond]
    congr 1
    omega

end Timer

end BuildFleet
