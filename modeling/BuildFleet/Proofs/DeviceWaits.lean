import BuildFleet.Proofs.Recording

/-!
# Waits for a device

Beside what a device has been asked, a record can hold how long it has taken to answer. With that it
can be said of a run from outside whether the device has been late, by the limits of the run or by
others: a wait is within a limit if the answer comes, and takes no longer than that.

Limits are compared call by call. The deadlines that a timer makes of limits are compared in the
same way, and those of a reliable timer keep the order of the limits and are never in front of them.

The record is kept in the same way as the one of calls, by a bridge over a larger world, and leaving
out the times gives that record back. So both speak of the same run.
-/

namespace BuildFleet

variable {σ : Type}

/-! ## Limits and waits -/

namespace StepLimits

/-- The limit on a call. -/
def on (l : StepLimits) : DeviceCall → Span
  | .isReachable _ => l.validate
  | .install .. => l.install

/-- None of the limits is longer than the other one on the same call. -/
structure AtMost (l l' : StepLimits) : Prop where
  validate : l.validate.nanoseconds ≤ l'.validate.nanoseconds
  install : l.install.nanoseconds ≤ l'.install.nanoseconds

end StepLimits

namespace Timer.IsReliable

variable {t : Timer} {l l' : StepLimits}

theorem atMost_deadlines (ht : t.IsReliable) (l : StepLimits) : l.AtMost (t.deadlines l) where
  validate := ht.neverEarly l.validate
  install := ht.neverEarly l.install

theorem deadlines_atMost (ht : t.IsReliable) (h : l.AtMost l') :
    (t.deadlines l).AtMost (t.deadlines l') where
  validate := ht.inOrder h.validate
  install := ht.inOrder h.install

end Timer.IsReliable

/-- A call that reaches a device, and how long the answer takes, if it ever comes. -/
structure DeviceWait where
  call : DeviceCall
  delay : Option Span
  deriving DecidableEq

/-- The answer comes, and no later than the limit on the call. -/
def DeviceWait.IsWithin (l : StepLimits) (wait : DeviceWait) : Prop :=
  ∃ delay ∈ wait.delay, delay.nanoseconds ≤ (l.on wait.call).nanoseconds

instance (l : StepLimits) (wait : DeviceWait) : Decidable (wait.IsWithin l) :=
  inferInstanceAs (Decidable (∃ delay ∈ wait.delay, _))

theorem DeviceWait.IsWithin.mono {l l' : StepLimits} (h : l.AtMost l') {wait : DeviceWait}
    (hw : wait.IsWithin l) : wait.IsWithin l' := by
  obtain ⟨delay, hdelay, hle⟩ := hw
  refine ⟨delay, hdelay, Nat.le_trans hle ?_⟩
  cases wait.call with
  | isReachable => exact h.validate
  | install => exact h.install

/-! ## Timed devices -/

/-- The bridge that also records how long the device takes for each call, oldest first. -/
def Bridge.timing (b : Bridge σ) : Bridge (σ × List DeviceWait) where
  isReachable serial := fun (w, waits) ↦
    let (r, w) := b.isReachable serial w
    (r, w, waits ++ [⟨.isReachable serial, r.delay?⟩])
  install serial release launcher := fun (w, waits) ↦
    let (r, w) := b.install serial release launcher w
    (r, w, waits ++ [⟨.install serial release launcher, r.delay?⟩])

theorem Bridge.timing_follows (b : Bridge σ) : b.timing.Follows Prod.fst b where
  isReachable := fun _ _ ↦ rfl
  install := fun _ _ _ _ ↦ rfl

/-- The calls of a record of waits are the record of calls. -/
theorem Bridge.timing_follows_recording (b : Bridge σ) :
    b.timing.Follows (Prod.map id (List.map DeviceWait.call)) b.recording where
  isReachable := by
    rintro serial ⟨w, waits⟩
    simp [timing, recording]
  install := by
    rintro serial release launcher ⟨w, waits⟩
    simp [timing, recording]

namespace Runner

/-- The runner that also records the waits for the device. -/
def timing (k : Runner σ) : Runner (σ × List DeviceWait) :=
  k.withBridge k.bridge.timing

def waits (k : Runner σ) (r : RunRequest) (runId : RunId) (now : Instant) (w : σ) :
    List DeviceWait :=
  (k.timing.run r runId now (w, [])).world.2

theorem run_timing (k : Runner σ) (r : RunRequest) (runId : RunId) (now : Instant) (w : σ) :
    k.run r runId now w = (k.timing.run r runId now (w, [])).map Prod.fst :=
  k.bridge.timing_follows.run_eq r runId now (w, [])

theorem calls_eq_map_waits (k : Runner σ) (r : RunRequest) (runId : RunId) (now : Instant)
    (w : σ) : k.calls r runId now w = (k.waits r runId now w).map DeviceWait.call := by
  have h := k.bridge.timing_follows_recording.run_eq (k := k.recording) r runId now (w, [])
  exact congrArg (fun report ↦ report.world.2) h

end Runner

namespace Android

variable (b : Bridge σ) (serial : String) (elevated : Bool) (w : σ) (waits : List DeviceWait)

theorem check_timing :
    ((stepOn b.timing serial elevated).target.check (w, waits)).2.2 =
      waits ++ [⟨.isReachable serial,
        ((stepOn b.timing serial elevated).target.check (w, waits)).1.delay?⟩] := by
  simp [stepOn, target, Call.map, Bridge.timing, Reply.delay?_map]

theorem install_timing (r : InstallRequest) :
    ((stepOn b.timing serial elevated).installer.install r (w, waits)).2.2 =
      waits ++ [⟨.install r.serial r.configuration.isRelease r.launcher,
        ((stepOn b.timing serial elevated).installer.install r (w, waits)).1.delay?⟩] := by
  simp [stepOn, installer, Call.map, Bridge.timing, Reply.delay?_map]

end Android

end BuildFleet
