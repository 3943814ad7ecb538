import BuildFleet.Device.Script
import BuildFleet.Proofs.RunCourse
import BuildFleet.Proofs.WorkerSelection

/-!
# What a run may ask of a device

A request names a device, a configuration and perhaps a worker; whether the launcher is installed
along is not for it to say. On its way from the table to the device the launcher flag passes through
the host, the worker of the run, the target and the request to the installer, and at each of these
there are texts at hand that a caller has given. What reaches the device is nevertheless a function
of the row that is picked, so of two runs that pick the same row neither can have a launcher
installed that the other cannot.

That a table has been checked is not needed for any of this: the rule for picking a row is also
total on tables with repeated names and indices.
-/

namespace BuildFleet

variable {σ τ : Type}

/-! ## Permissions

The table is read at one place, the row that a selector picks. For a host that is not in the table
there is no row, and the launcher comes along for every request. -/

/-- What the table says of the launcher in a run: the row that is picked decides, and a host that is
not in the table brings the launcher along. -/
def HostTable.Grants (t : HostTable) (r : RunRequest) (launcher : Bool) : Prop :=
  match t.hosts.get? r.hostname with
  | some e => ∃ row, e.Selects r.hostname r.params.worker row ∧ launcher = row.elevated
  | none => launcher = true

/-- The calls that may reach a device in a run. -/
inductive HostTable.Permits (t : HostTable) (r : RunRequest) : DeviceCall → Prop
  /-- The device that is named may be asked whether it is there. -/
  | isReachable {serial : String} (hs : r.params.deviceSerial = some serial) (hne : serial ≠ "") :
    Permits t r (.isReachable serial)
  /-- It may be asked to install the configuration that is named, with the launcher as the table
  says. -/
  | install {serial : String} {release launcher : Bool} (hs : r.params.deviceSerial = some serial)
    (hne : serial ≠ "") (hrelease : release = true ↔ r.params.configuration = "Release")
    (hlauncher : t.Grants r launcher) : Permits t r (.install serial release launcher)

def HostTable.PickAlike (t : HostTable) (r r' : RunRequest) : Prop :=
  ∀ e, t.hosts.get? r.hostname = some e → ∃ row,
    e.Selects r.hostname r.params.worker row ∧ e.Selects r'.hostname r'.params.worker row

theorem HostTable.Grants.unique {t : HostTable} {r r' : RunRequest} {launcher launcher' : Bool}
    (h : t.Grants r launcher) (h' : t.Grants r' launcher') (hhost : r'.hostname = r.hostname)
    (halike : t.PickAlike r r') : launcher = launcher' := by
  rw [Grants] at h h'
  rw [PickAlike] at halike
  rw [hhost] at h' halike
  cases he : t.hosts.get? r.hostname with
  | none =>
    rw [he] at h h'
    exact h.trans h'.symm
  | some e =>
    rw [he] at h h'
    obtain ⟨row, hrow, hlauncher⟩ := h
    obtain ⟨row', hrow', hlauncher'⟩ := h'
    obtain ⟨common, hcommon, hcommon'⟩ := halike e he
    rw [hlauncher, hlauncher', hrow.unique hcommon, hrow'.unique hcommon']

/-! ## From the table to the worker of a run -/

theorem BuildConfiguration.isRelease_iff {k : BuildConfiguration} {s : String} (h : k.name = s) :
    k.isRelease = true ↔ s = "Release" := by
  rw [← h]
  cases k <;> decide

/-- The launcher goes with the worker of a run as the table says. -/
theorem HostTable.grants_of_selectWorker {t : HostTable} {registry : Registry} {r : RunRequest}
    {worker : Worker} (ht : registry.hosts = t.toHosts)
    (hw : (registry.resolve r.hostname).selectWorker r.params.worker = .ok worker) :
    t.Grants r worker.elevatedInstall := by
  have hselects := Host.selects_of_selectWorker hw
  have hhost : registry.resolve r.hostname =
      ((t.hosts.get? r.hostname).map (HostEntry.toHost r.hostname)).getD
        (registry.defaultHost r.hostname) := by
    rw [Registry.resolve, Registry.get?, ht, toHosts, Dictionary.get?_mapEntries]
  rw [hhost] at hselects
  rw [Grants]
  cases he : t.hosts.get? r.hostname with
  | some e =>
    rw [he] at hselects
    obtain ⟨row, hrow, hworker⟩ := HostEntry.selects_of_toHost hselects
    exact ⟨row, hrow, by rw [← hworker]; rfl⟩
  | none =>
    -- a made-up host has one worker, so whatever is picked is that one
    rw [he] at hselects
    have hmember : worker ∈ (registry.defaultHost r.hostname).workers := hselects.mem
    rw [List.mem_singleton.mp hmember]

/-! ## What reaches the device -/

/-- An install is asked for what the run names, and nothing else is asked. -/
theorem InstallCourse.mem_calls {checkBy installBy : Span} {s : InstallStep σ} {c : StepContext}
    {w : σ} {record : InstallRecord} (h : InstallCourse checkBy installBy s c w record)
    {call : StepCall} (hcall : call ∈ record.calls) :
    call = .check ∨ ∃ k : BuildConfiguration, k.name = c.params.configuration ∧
      call = .install ⟨s.target.serial, k, s.target.elevated⟩ := by
  cases h with
  | unrecognized => cases hcall
  | unanswered | unreachable | unfit => exact .inl (List.mem_singleton.mp hcall)
  | overrun hk | failed hk | broken hk | installed hk =>
    rcases List.mem_cons.mp hcall with hcheck | hinstall
    · exact .inl hcheck
    · exact .inr ⟨_, hk, List.mem_singleton.mp hinstall⟩

namespace Runner

theorem mem_calls {k : Runner σ} {r : RunRequest} {runId : RunId} {now : Instant} {w : σ}
    {call : DeviceCall} (h : call ∈ k.calls r runId now w) :
    ∃ c serial, k.Opens r runId c ∧ c.deviceSerial = .ok serial ∧
      (call = .isReachable serial ∨
        ∃ configuration : BuildConfiguration, configuration.name = r.params.configuration ∧
          call = .install serial configuration.isRelease c.worker.elevatedInstall) := by
  have hexit := k.recording.exit_run r runId now (w, [])
  rw [calls] at h
  generalize k.recording.run r runId now (w, []) = report at hexit h
  cases hexit with
  | nameless | unknown | workerless | deviceless => cases h
  | @complete _ _ _ c hc serial hs result p hrun =>
    obtain ⟨record, hcourse, -, hcalls, -⟩ := Android.exists_course hc.fresh hrun
    rw [RunReport.delivered, hcalls] at h
    obtain ⟨stepCall, hmember, rfl⟩ := List.mem_map.mp h
    refine ⟨c, serial, ⟨hc.fresh, hc.runId, hc.host, hc.worker, hc.params, hc.limits⟩, hs, ?_⟩
    rcases hcourse.mem_calls hmember with rfl | ⟨configuration, hname, rfl⟩
    · exact .inl rfl
    · exact .inr ⟨configuration, by rw [hname, hc.params], rfl⟩

/-- Over a registry of a table, a run makes no call that the table does not permit. -/
theorem permits_of_mem_calls {t : HostTable} {k : Runner σ} {r : RunRequest} {runId : RunId}
    {now : Instant} {w : σ} {call : DeviceCall} (ht : k.registry.hosts = t.toHosts)
    (h : call ∈ k.calls r runId now w) : t.Permits r call := by
  obtain ⟨c, serial, hc, hserial, hcall⟩ := mem_calls h
  have hgrants : t.Grants r c.worker.elevatedInstall :=
    HostTable.grants_of_selectWorker ht (selectWorker_of_opens hc)
  rcases c.deviceSerial_cases with ⟨serial', hs, hne, hok⟩ | ⟨-, herror⟩
  · rw [hok] at hserial
    cases hserial
    rw [hc.params] at hs
    rcases hcall with rfl | ⟨configuration, hname, rfl⟩
    · exact .isReachable hs hne
    · exact .install hs hne (BuildConfiguration.isRelease_iff hname) hgrants
  · rw [herror] at hserial
    cases hserial

end Runner

/-- What a run asks of a device is permitted by the request and the table. So if two runs pick the
same row for a host, they ask for installs with the same launcher flag, whatever else is different
between them. -/
theorem Runner.calls_permitted (t : HostTable) (directory root : String)
    (platform : LaunchPlatform) (limits : StepLimits) (b : Bridge σ) (timer : Timer)
    (handlers : Nat) (r : RunRequest) (runId : RunId) (now : Instant) (w : σ) :
    let k : Runner σ := ⟨t.registryFor directory root platform, limits, b, timer, handlers⟩
    (∀ call ∈ k.calls r runId now w, t.Permits r call) ∧
      ∀ (directory' root' : String) (platform' : LaunchPlatform) (limits' : StepLimits)
        (b' : Bridge τ) (timer' : Timer) (handlers' : Nat) (r' : RunRequest) (runId' : RunId)
        (now' : Instant) (w' : τ),
        let k' : Runner τ :=
          ⟨t.registryFor directory' root' platform', limits', b', timer', handlers'⟩
        r'.hostname = r.hostname → t.PickAlike r r' →
          ∀ (serial serial' : String) (release release' launcher launcher' : Bool),
            .install serial release launcher ∈ k.calls r runId now w →
            .install serial' release' launcher' ∈ k'.calls r' runId' now' w' →
            launcher = launcher' := by
  intro k
  refine ⟨fun call hcall ↦ permits_of_mem_calls rfl hcall, ?_⟩
  intro directory' root' platform' limits' b' timer' handlers' r' runId' now' w' k' hhost halike
    serial serial' release release' launcher launcher' hcall hcall'
  cases permits_of_mem_calls (t := t) rfl hcall with
  | install _ _ _ hlauncher =>
    cases permits_of_mem_calls (t := t) rfl hcall' with
    | install _ _ _ hlauncher' => exact hlauncher.unique hlauncher' hhost halike

/-! ### Two runs of one row -/

/-- A table of one host with two workers, of which the second brings the launcher along. -/
def HostTable.twoWorkers : HostTable where
  hosts := Dictionary.empty.insert "h" { workers := [⟨"plain", "0", false⟩, ⟨"full", "1", true⟩] }

def RunRequest.toTwoWorkers (serial configuration worker : String) : RunRequest :=
  ⟨"h", Android.stepName, ⟨configuration, some serial, none, none, some worker⟩⟩

/-- A runner over that table and a device that does all it is asked for. -/
def Runner.overTwoWorkers : Runner DeviceScript :=
  ⟨HostTable.twoWorkers.registryFor "/" "/" .unix, .usual, DeviceScript.bridge, .ticking, 1⟩

/-- The second worker is picked by its name and by its index, and the launcher comes along both
times. -/
theorem Runner.calls_permitted_by_name_and_index :
    HostTable.twoWorkers.PickAlike (.toTwoWorkers "a" "Release" "full")
        (.toTwoWorkers "b" "Debug" "1") ∧
      .install "a" true true ∈
        overTwoWorkers.calls (.toTwoWorkers "a" "Release" "full") default default {} ∧
      (∃ launcher, .install "b" false launcher ∈
        overTwoWorkers.calls (.toTwoWorkers "b" "Debug" "1") default default {}) ∧
      ∀ launcher, .install "b" false launcher ∈
        overTwoWorkers.calls (.toTwoWorkers "b" "Debug" "1") default default {} →
          launcher = true := by
  have hpick : HostTable.twoWorkers.PickAlike (.toTwoWorkers "a" "Release" "full")
      (.toTwoWorkers "b" "Debug" "1") := by
    intro e he
    cases he
    exact ⟨⟨"full", "1", true⟩, .named (by decide), .indexed (by decide) (by decide)⟩
  have hfirst : .install "a" true true ∈
      overTwoWorkers.calls (.toTwoWorkers "a" "Release" "full") default default {} := by decide
  have hsecond : .install "b" false true ∈
      overTwoWorkers.calls (.toTwoWorkers "b" "Debug" "1") default default {} := by decide
  refine ⟨hpick, hfirst, ⟨true, hsecond⟩, fun launcher hcall ↦ ?_⟩
  exact ((calls_permitted HostTable.twoWorkers "/" "/" .unix .usual DeviceScript.bridge .ticking 1
    (.toTwoWorkers "a" "Release" "full") default default {}).2 "/" "/" .unix .usual
    DeviceScript.bridge .ticking 1 (.toTwoWorkers "b" "Debug" "1") default default {} rfl hpick
    _ _ _ _ _ _ hfirst hcall).symm

end BuildFleet
