import BuildFleet.Proofs.Waiting
import BuildFleet.Run

/-!
# Records of calls

What a device, or a step's target and installer, has been asked can be read off a record that is
kept in the world. That is only worth something if keeping a record does not change the run, and if
records at different places tell the same story.

Both are instances of one simulation. A call over a world *follows* a call over another one, along a
map between the worlds, when the two give the same replies and the map carries the one world after
the call to the other. A step and a run are built from calls alone, so they follow as soon as their
calls do. Forgetting a record is such a map, and so is rewriting the record of a step into the
record of its device.

## What it is used for

The program has no record, and what is said of its calls is said of a run in which the world carries
one. `Runner.run_recording` and its companions for steps are what allows it to be said of the run
without a record too. The times of waits and the commands of adb are recorded in the same way, each
with a map of its own.
-/

namespace BuildFleet

variable {σ τ α β : Type}

/-! ## Calls -/

/-- Along a map of worlds, a call has the same replies and the same effects as another one. -/
def Call.Follows (f : τ → σ) (c' : Call τ α) (c : Call σ α) : Prop :=
  ∀ w, ((c' w).1, f (c' w).2) = c (f w)

namespace Call.Follows

variable {f : τ → σ} {c' : Call τ α} {c : Call σ α}

theorem fst (h : c'.Follows f c) (w : τ) : (c' w).1 = (c (f w)).1 :=
  congrArg Prod.fst (h w)

theorem snd (h : c'.Follows f c) (w : τ) : f (c' w).2 = (c (f w)).2 :=
  congrArg Prod.snd (h w)

theorem map (h : c'.Follows f c) (g : α → β) : (c'.map g).Follows f (c.map g) := by
  intro w
  simp only [Call.map]
  rw [h.fst, h.snd]

end Call.Follows

/-! ## Steps -/

def Progress.map (f : τ → σ) (p : Progress τ) : Progress σ := ⟨p.context, f p.world, p.now⟩

/-- Along a map of worlds, the calls of a step follow those of another one. -/
structure InstallStep.Follows (f : τ → σ) (s' : InstallStep τ) (s : InstallStep σ) : Prop where
  platform : s'.target.platform = s.target.platform
  serial : s'.target.serial = s.target.serial
  elevated : s'.target.elevated = s.target.elevated
  check : s'.target.check.Follows f s.target.check
  install : ∀ r, (s'.installer.install r).Follows f (s.installer.install r)

namespace Progress

@[simp] theorem map_context (f : τ → σ) (p : Progress τ) : (p.map f).context = p.context := rfl

theorem map_move (f : τ → σ) (p : Progress τ) (m : StepContext → Instant → Bool × StepContext) :
    (p.move m).map f = (p.map f).move m := rfl

theorem await_follows {f : τ → σ} {c' : Call τ α} {c : Call σ α} (h : c'.Follows f c)
    (t : Timer) (p : Progress τ) (limit : Span) :
    (p.map f).await t limit c = ((p.await t limit c').1, (p.await t limit c').2.map f) := by
  simp only [await, map]
  rw [← h.fst, ← h.snd]

end Progress

namespace InstallStep.Follows

variable {f : τ → σ} {s' : InstallStep τ} {s : InstallStep σ}

theorem checked_eq (h : s'.Follows f s) (limit : Span) (answer : Option (Except Failure Unit)) :
    checked s.target limit answer = checked s'.target limit answer := by
  simp only [checked, h.platform, h.serial]

theorem request_eq (h : s'.Follows f s) (configuration : BuildConfiguration) :
    s.request configuration = s'.request configuration := by
  simp only [request, h.serial, h.elevated]

theorem perform_eq (h : s'.Follows f s) (t : Timer) (p : Progress τ) :
    s.perform t (p.map f) = ((s'.perform t p).1, (s'.perform t p).2.map f) := by
  rw [InstallStep.perform_eq, InstallStep.perform_eq]
  -- both sides branch on the same answers, so one case analysis serves for the two
  simp only [Progress.map_context, Progress.await_follows h.check, h.checked_eq]
  split
  · rfl
  · split
    · rfl
    · simp only [← Progress.map_move, Progress.map_context, h.request_eq,
        Progress.await_follows (h.install _)]
      split <;> rfl

theorem runToCompletion_eq (h : s'.Follows f s) (t : Timer) (p : Progress τ) :
    s.runToCompletion t (p.map f) =
      ((s'.runToCompletion t p).1, (s'.runToCompletion t p).2.map f) := by
  rw [runToCompletion, runToCompletion, h.perform_eq]
  rcases s'.perform t p with ⟨_ | _, _⟩ <;> rfl

end InstallStep.Follows

/-! ## Runs -/

structure Bridge.Follows (f : τ → σ) (b' : Bridge τ) (b : Bridge σ) : Prop where
  isReachable : ∀ serial, (b'.isReachable serial).Follows f (b.isReachable serial)
  install : ∀ serial release launcher,
    (b'.install serial release launcher).Follows f (b.install serial release launcher)

def RunReport.map (f : τ → σ) (r : RunReport τ) : RunReport σ :=
  ⟨r.outcome, r.events, r.deliveries, f r.world, r.now⟩

/-- The runner that differs only in its bridge. -/
def Runner.withBridge (k : Runner σ) (b : Bridge τ) : Runner τ :=
  ⟨k.registry, k.limits, b, k.timer, k.handlers⟩

@[simp] theorem Runner.withBridge_registry (k : Runner σ) (b : Bridge τ) :
    (k.withBridge b).registry = k.registry := rfl

@[simp] theorem Runner.withBridge_limits (k : Runner σ) (b : Bridge τ) :
    (k.withBridge b).limits = k.limits := rfl

namespace Bridge.Follows

variable {f : τ → σ} {b' : Bridge τ} {b : Bridge σ}

theorem androidStep (h : b'.Follows f b) (serial : String) (elevated : Bool) :
    InstallStep.Follows f (Android.stepOn b' serial elevated)
      (Android.stepOn b serial elevated) where
  platform := rfl
  serial := rfl
  elevated := rfl
  check := (h.isReachable serial).map _
  install := fun r ↦ (h.install r.serial r.configuration.isRelease r.launcher).map _

theorem perform_eq {k : Runner σ} (h : b'.Follows f k.bridge) (kind : StepKind)
    (c : StepContext) (now : Instant) (w : τ) (events : List RunEvent) :
    k.perform kind c now (f w) events = ((k.withBridge b').perform kind c now w events).map f := by
  cases kind with
  | androidInstall =>
    rw [Runner.perform, Runner.perform]
    simp only [StepKind.instantiate, Android.step, Runner.withBridge]
    cases c.deviceSerial with
    | error e => rfl
    | ok serial =>
      have hrun := (h.androidStep serial c.requiresElevatedInstall).runToCompletion_eq k.timer
        ⟨c, w, now⟩
      simp only [Progress.map] at hrun
      simp only [Except.map, hrun]
      rfl

theorem run_eq {k : Runner σ} (h : b'.Follows f k.bridge) (r : RunRequest) (runId : RunId)
    (now : Instant) (w : τ) :
    k.run r runId now (f w) = ((k.withBridge b').run r runId now w).map f := by
  rw [Runner.run, Runner.run]
  simp only [Runner.withBridge_registry, Runner.withBridge_limits]
  split
  · rfl
  · split
    · rfl
    · split
      · rfl
      · exact h.perform_eq _ _ _ _ _

end Bridge.Follows

/-! ## Records of a device -/

theorem Bridge.recording_follows (b : Bridge σ) : b.recording.Follows Prod.fst b where
  isReachable := fun _ _ ↦ rfl
  install := fun _ _ _ _ ↦ rfl

namespace Runner

def recording (k : Runner σ) : Runner (σ × List DeviceCall) :=
  k.withBridge k.bridge.recording

/-- The calls that reach the device in a run, oldest first. -/
def calls (k : Runner σ) (r : RunRequest) (runId : RunId) (now : Instant) (w : σ) :
    List DeviceCall :=
  (k.recording.run r runId now (w, [])).world.2

/-- Keeping a record of the device does not change a run. -/
theorem run_recording (k : Runner σ) (r : RunRequest) (runId : RunId) (now : Instant) (w : σ)
    (earlier : List DeviceCall) :
    k.run r runId now w = (k.recording.run r runId now (w, earlier)).map Prod.fst :=
  k.bridge.recording_follows.run_eq r runId now (w, earlier)

end Runner

/-! ## Records of a step -/

/-- What the target and the installer of a step can be asked. -/
inductive StepCall where
  | check
  | install (request : InstallRequest)
  deriving DecidableEq, Repr

/-- The step that also records what its target and its installer are asked, oldest first. -/
def InstallStep.recording (s : InstallStep σ) : InstallStep (σ × List StepCall) where
  name := s.name
  target :=
    { platform := s.target.platform
      serial := s.target.serial
      elevated := s.target.elevated
      check := fun (w, calls) ↦
        let (r, w) := s.target.check w
        (r, w, calls ++ [.check]) }
  installer :=
    { install := fun request (w, calls) ↦
        let (r, w) := s.installer.install request w
        (r, w, calls ++ [.install request]) }

theorem InstallStep.recording_follows (s : InstallStep σ) : s.recording.Follows Prod.fst s where
  platform := rfl
  serial := rfl
  elevated := rfl
  check := fun _ ↦ rfl
  install := fun _ _ ↦ rfl

/-- The call of the device that a call of an Android step becomes. -/
def StepCall.toDeviceCall (serial : String) : StepCall → DeviceCall
  | check => .isReachable serial
  | install r => .install r.serial r.configuration.isRelease r.launcher

/-- The record of an Android step, call by call, is the record of its device. -/
theorem Android.recording_follows (b : Bridge σ) (serial : String) (elevated : Bool) :
    InstallStep.Follows (Prod.map id (List.map (StepCall.toDeviceCall serial)))
      (stepOn b serial elevated).recording (stepOn b.recording serial elevated) where
  platform := rfl
  serial := rfl
  elevated := rfl
  check := by
    rintro ⟨w, calls⟩
    simp [InstallStep.recording, stepOn, target, Bridge.recording, Call.map, StepCall.toDeviceCall]
  install := by
    rintro r ⟨w, calls⟩
    simp [InstallStep.recording, stepOn, installer, Bridge.recording, Call.map,
      StepCall.toDeviceCall]

end BuildFleet
