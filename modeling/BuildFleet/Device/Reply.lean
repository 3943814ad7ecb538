import BuildFleet.Timer

/-!
# Replies and limits on them

A call to a device is answered after some time, or never. Time is counted and not spent: a call is a
function of the world that it acts on, and gives the reply together with the world after it. What
the world is stays open, so it may be a script, a record of calls, or both.

A wait for a reply has a deadline, which is when a timer that has been set to the limit goes off. It
turns a reply that is late or never comes into one that comes at the deadline and says so. A reply
that comes exactly then is in time.
-/

namespace BuildFleet

/-- What comes back from a call. -/
inductive Reply (α : Type) where
  | never
  | after (delay : Span) (answer : α)
  deriving DecidableEq, Repr, Inhabited

namespace Reply

variable {α β : Type}

/-- A reply that comes at once. -/
def now (a : α) : Reply α := .after ⟨0⟩ a

/-- A reply with another answer. -/
def map (f : α → β) : Reply α → Reply β
  | never => never
  | after delay a => after delay (f a)

/-- A reply that comes later than it would. -/
def delayed (wait : Span) : Reply α → Reply α
  | never => never
  | after delay a => after ⟨wait.nanoseconds + delay.nanoseconds⟩ a

/-- What has come when the wait for a reply is over, and how long the wait was. -/
def awaited (deadline : Span) : Reply α → Option α × Span
  | never => (none, deadline)
  | after delay a =>
    if delay.nanoseconds ≤ deadline.nanoseconds then (some a, delay) else (none, deadline)

/-- A reply that is waited for up to a deadline, and so always comes. -/
def within (deadline : Span) (r : Reply α) : Reply (Option α) :=
  .after (r.awaited deadline).2 (r.awaited deadline).1

end Reply

/-- A call: it acts on a world and is answered some time later. -/
abbrev Call (σ α : Type) := σ → Reply α × σ

namespace Call

variable {σ α β : Type}

/-- The call that does nothing and is answered at once. -/
def pure (a : α) : Call σ α := fun w ↦ (.now a, w)

/-- The call with another answer. -/
def map (f : α → β) (c : Call σ α) : Call σ β := fun w ↦ ((c w).1.map f, (c w).2)

/-- A call, and when it has been answered, a second one that depends on the answer. -/
def andThen (c : Call σ α) (next : α → Call σ β) : Call σ β := fun w ↦
  match c w with
  | (.never, w) => (.never, w)
  | (.after delay a, w) => ((next a w).1.delayed delay, (next a w).2)

/-- A call under a limit, by a timer. -/
def within (t : Timer) (limit : Span) (c : Call σ α) : Call σ (Option α) := fun w ↦
  ((c w).1.within (t.lasts limit), (c w).2)

end Call

end BuildFleet
