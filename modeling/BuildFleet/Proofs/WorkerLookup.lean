import BuildFleet.Proofs.RunAuthority
import BuildFleet.Proofs.WorkerAddressing

/-!
# Looking up workers by name

There are two ways to a worker. One starts at a host, whose workers are selected from; the other
starts at the name of a worker and gives a host along with it. The second one is there to prepare
the first: what is looked up is to be asked for in a run, on the host and by the name at hand, and
the run is to act as the worker that was found.

The two ways agree since both take the first worker of a name, and since a name counts before any
index. Nothing that a check of the table would exclude can come between them.

## Acting as a worker

That a run acts as a worker shows at three places: in the context that it is given, in the worker
that the outcome names, and in the flag with which an install reaches the device. All three go back
to one selection, and they hold of runs that fail as well, as far as these get: what is refused
before there is a context names no worker, and what never reaches the device shows no flag.
-/

namespace BuildFleet

variable {σ : Type}

/-! ## Hosts in their order -/

namespace Registry

variable {r : Registry} {name : String} {host : Host} {worker : Worker}

theorem hostname_of_get? {hostname : String} (h : r.get? hostname = some host) :
    host.hostname = hostname :=
  r.named _ (Dictionary.mem_entries_of_get? h)

theorem mem_values_iff : host ∈ r.hosts.values ↔ r.get? host.hostname = some host := by
  rw [get?, Dictionary.get?_eq_some_iff, Dictionary.values, List.mem_map]
  constructor
  · rintro ⟨e, he, rfl⟩
    rw [r.named e he]
    exact he
  · intro h
    exact ⟨_, h, rfl⟩

theorem pairwise_values (r : Registry) :
    r.hosts.values.Pairwise fun a b ↦ a.hostname < b.hostname := by
  refine List.pairwise_map.mpr (r.hosts.sorted.imp_of_mem fun ha hb hlt ↦ ?_)
  rw [r.named _ ha, r.named _ hb]
  exact hlt

theorem resolve_of_get? {hostname : String} (h : r.get? hostname = some host) :
    r.resolve hostname = host := by
  rw [resolve, h, Option.getD_some]

/-! ## What is found -/

/-- What can be relied on when a host and a worker are found by the name of the worker. -/
structure Locates (r : Registry) (name : String) (host : Host) (worker : Worker) : Prop where
  /-- The host is known, and it is what its name stands for. -/
  get? : r.get? host.hostname = some host
  resolve : r.resolve host.hostname = host
  /-- No known host with a worker of that name has a lesser name. -/
  least : ∀ hostname other, r.get? hostname = some other →
    (∃ u ∈ other.workers, u.name = name) → host.hostname ≤ hostname
  first : host.IsFirstNamed name worker
  /-- On that host, the name selects the worker. -/
  selected : host.selectWorker (some name) = .ok worker

theorem findWorker?_eq_none_iff :
    r.findWorker? name = none ↔
      ∀ hostname host, r.get? hostname = some host → ∀ u ∈ host.workers, u.name ≠ name := by
  have hsearch : r.findWorker? name = none ↔
      ∀ host ∈ r.hosts.values, ∀ u ∈ host.workers, u.name ≠ name := by
    simp only [findWorker?, List.findSome?_eq_none_iff, Option.map_eq_none_iff, Host.worker?,
      Picks.find?_eq_none]
  rw [hsearch]
  constructor
  · intro h hostname host hget
    rw [← hostname_of_get? hget] at hget
    exact h host (mem_values_iff.mpr hget)
  · intro h host hmem
    exact h host.hostname host (mem_values_iff.mp hmem)

theorem locates_of_findWorker? (h : r.findWorker? name = some (host, worker)) :
    r.Locates name host worker := by
  rw [findWorker?, List.findSome?_eq_some_iff] at h
  obtain ⟨before, found, after, hvalues, hfound, hbefore⟩ := h
  obtain ⟨w, hworker, heq⟩ := Option.map_eq_some_iff.mp hfound
  cases heq
  have hget : r.get? host.hostname = some host := by
    rw [← mem_values_iff, hvalues]
    exact List.mem_append_right _ List.mem_cons_self
  have hfirst := Host.worker?_eq_some_iff.mp hworker
  refine ⟨hget, resolve_of_get? hget, ?_, hfirst, Host.selectWorker_eq_ok_iff.mpr (.named hworker)⟩
  rintro hostname other hother ⟨u, hu, hname⟩
  obtain rfl := hostname_of_get? hother
  have hmem := mem_values_iff.mpr hother
  rw [hvalues, List.mem_append, List.mem_cons] at hmem
  rcases hmem with hmem | rfl | hmem
  · -- the hosts that come first have no worker of that name
    have hnone := Option.map_eq_none_iff.mp (hbefore other hmem)
    exact absurd hname (Picks.find?_eq_none.mp hnone u hu)
  · exact String.le_refl _
  · have hsorted := r.pairwise_values
    rw [hvalues] at hsorted
    have hlt := (List.pairwise_cons.mp (List.pairwise_append.mp hsorted).2.1).1 other hmem
    exact String.not_lt.mp (String.lt_asymm hlt)

end Registry

/-! ## Runs -/

namespace Runner

/-- Whatever else is asked for, a run acts as a worker. -/
structure ActsAs (k : Runner σ) (r : RunRequest) (worker : Worker) : Prop where
  /-- The step is made for that worker. -/
  context : ∀ runId, ∃ c, contextFor k.limits r runId (k.registry.resolve r.hostname) = .ok c ∧
    c.worker = worker
  /-- The outcome names it, unless the request does not get as far as a worker. -/
  outcome : ∀ runId now w, Text.trim r.hostname ≠ "" → (∃ kind ∈ StepKind.all, kind.name = r.step) →
    (k.run r runId now w).outcome.worker = some worker.name
  /-- The launcher comes along if it does for that worker. -/
  launcher : ∀ runId now w serial release launcher,
    .install serial release launcher ∈ k.calls r runId now w → launcher = worker.elevatedInstall

variable {k : Runner σ} {r : RunRequest} {runId : RunId} {now : Instant} {w : σ} {worker : Worker}

theorem worker_of_opens {c : StepContext} (hc : k.Opens r runId c)
    (h : (k.registry.resolve r.hostname).selectWorker r.params.worker = .ok worker) :
    c.worker = worker :=
  Except.ok.inj ((selectWorker_of_opens hc).symm.trans h)

/-- A run acts as the worker that is selected on its host. -/
theorem actsAs_of_selectWorker
    (h : (k.registry.resolve r.hostname).selectWorker r.params.worker = .ok worker) :
    k.ActsAs r worker where
  context := by
    intro runId
    rcases k.contextFor_cases r runId with ⟨c, hcontext, hc⟩ | ⟨f, -, hf⟩
    · exact ⟨c, hcontext, worker_of_opens hc h⟩
    · cases h.symm.trans hf
  outcome := by
    intro runId now w hnamed hstep
    have hexit := k.exit_run r runId now w
    generalize k.run r runId now w = report at hexit
    cases hexit with
    | nameless hblank => exact absurd (Text.trim_eq_empty_iff.mpr hblank) hnamed
    | unknown _ hunknown =>
      obtain ⟨kind, -, hkind⟩ := hstep
      rw [← hkind, StepKind.parse_name] at hunknown
      cases hunknown
    | workerless _ _ hf => cases h.symm.trans hf
    | @deviceless _ _ _ c hc f _ =>
      have hsame := (StepContext.Touches.advance (c := c) (.ofFailure f now) now).sameRun
      exact congrArg (fun u : Worker ↦ some u.name) (hsame.worker.trans (worker_of_opens hc h))
    | @complete _ _ _ c hc serial _ result p hrun =>
      let s := Android.stepOn k.bridge serial c.requiresElevatedInstall
      have hsame := StepContext.sameRun_of_reaches (s.runToCompletion_reaches k.timer ⟨c, w, now⟩)
      rw [hrun] at hsame
      exact congrArg (fun u : Worker ↦ some u.name) (hsame.worker.trans (worker_of_opens hc h))
  launcher := by
    intro runId now w serial release launcher hcall
    obtain ⟨c, serial', hc, -, heq | ⟨configuration, -, heq⟩⟩ := mem_calls hcall
    · cases heq
    · cases heq
      rw [worker_of_opens hc h]

end Runner

/-- A name is looked up in vain if no known host has a worker of that name. Otherwise the first such
worker of the least such host is found, and a run that asks for that host and that name acts as it;
over a table without fault, the host has a name that a run can ask for. -/
theorem HostTable.findWorker?_locates (t : HostTable) (directory root : String)
    (platform : LaunchPlatform) (name : String) :
    ((t.registryFor directory root platform).findWorker? name = none ↔
        ∀ hostname host, (t.registryFor directory root platform).get? hostname = some host →
          ∀ u ∈ host.workers, u.name ≠ name) ∧
      ∀ host worker,
        (t.registryFor directory root platform).findWorker? name = some (host, worker) →
          (t.registryFor directory root platform).Locates name host worker ∧
            (t.fault? = none → Text.trim host.hostname ≠ "") ∧
            ∀ {σ : Type} (limits : StepLimits) (b : Bridge σ) (timer : Timer) (handlers : Nat)
              (r : RunRequest), r.hostname = host.hostname → r.params.worker = some name →
                (Runner.mk (t.registryFor directory root platform) limits b timer handlers).ActsAs
                  r worker := by
  refine ⟨Registry.findWorker?_eq_none_iff, fun host worker h ↦ ?_⟩
  have hlocates := Registry.locates_of_findWorker? h
  refine ⟨hlocates, fun ht ↦ ?_, fun limits b timer handlers r hhost hworker ↦ ?_⟩
  · have hlisted : host.hostname ∈ (t.registryFor directory root platform).hostnames :=
      List.mem_map.mpr ⟨_, Dictionary.mem_entries_of_get? hlocates.get?, rfl⟩
    exact Registry.trim_ne_empty_of_mem rfl (HostTable.fault?_eq_none_iff.mp ht) hlisted
  · refine Runner.actsAs_of_selectWorker ?_
    rw [hhost, hworker, hlocates.resolve]
    exact hlocates.selected

/-- A table of two hosts that share the name of a worker. On the first host it is the name of two
workers, and the index of the worker in front of them. -/
def HostTable.sharedName : HostTable where
  hosts := (Dictionary.empty.insert "b" { workers := [⟨"full", "0", true⟩] }).insert "a"
    { workers := [⟨"plain", "full", true⟩, ⟨"full", "1", false⟩, ⟨"full", "2", true⟩] }

/-- On that table, the worker in the middle of the first host is found, and a run that asks for it
brings no launcher along. -/
theorem HostTable.findWorker?_locates_sharedName :
    (sharedName.registryFor "/" "/" .unix).findWorker? "gone" = none ∧
      ∃ host, (sharedName.registryFor "/" "/" .unix).findWorker? "full" =
          some (host, ⟨"full", "1", false⟩) ∧
        host.hostname = "a" ∧ host.selectWorker (some "full") = .ok ⟨"full", "1", false⟩ ∧
        ∀ runId now w serial release launcher,
          .install serial release launcher ∈
            (Runner.mk (sharedName.registryFor "/" "/" .unix) .usual DeviceScript.bridge .ticking
              1).calls ⟨"a", Android.stepName, ⟨"Release", some serial, none, none, some "full"⟩⟩
              runId now w → launcher = false := by
  obtain ⟨-, hlocates⟩ := findWorker?_locates sharedName "/" "/" .unix "full"
  have hfull : (sharedName.registryFor "/" "/" .unix).findWorker? "full" =
      some ((sharedName.registryFor "/" "/" .unix).resolve "a", ⟨"full", "1", false⟩) := by decide
  obtain ⟨hhost, -, hruns⟩ := hlocates _ _ hfull
  refine ⟨by decide, _, hfull, rfl, hhost.selected, fun runId now w serial release launcher ↦ ?_⟩
  exact (hruns .usual DeviceScript.bridge .ticking 1 _ rfl rfl).launcher runId now w serial release
    launcher

end BuildFleet
