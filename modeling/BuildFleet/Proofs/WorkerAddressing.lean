import BuildFleet.Proofs.KnownHosts
import BuildFleet.Proofs.WorkerSelection

/-!
# The selectors of a worker

Names and indices of workers share one space of selectors, so a worker can lose a selector of its
own to another worker: its name to an earlier worker of the same name, and its index to any worker
that is named like it, wherever that one stands. It keeps each of the two in all other cases, and it
answers to nothing else.

Only for the index is it needed that no two workers of the host have the same one. A host of a table
that has been checked is like that, and so is a host that is made up.

The rule of selection is written down first as it is, in one equivalence for each way to select: by
a selector, without one, and in vain. What a worker can be reached by is then a question about the
rule and about positions in a list. Among the workers of one name it is the first that counts, which
is `IsFirstNamed`, and under an index there is just one.
-/

namespace BuildFleet

namespace Host

variable {h : Host} {s : String} {w : Worker}

/-! ## The rule of selection -/

/-- A worker of a host is the first one with a name. -/
def IsFirstNamed (h : Host) (name : String) (w : Worker) : Prop :=
  ∃ before after, h.workers = before ++ w :: after ∧ w.name = name ∧ ∀ u ∈ before, u.name ≠ name

theorem worker?_eq_some_iff : h.worker? s = some w ↔ h.IsFirstNamed s w := by
  rw [worker?, List.find?_eq_some_iff_append, IsFirstNamed]
  constructor
  · rintro ⟨hname, before, after, hworkers, hbefore⟩
    exact ⟨before, after, hworkers, by simpa using hname, fun u hu ↦ by simpa using hbefore u hu⟩
  · rintro ⟨before, after, hworkers, hname, hbefore⟩
    exact ⟨by simpa using hname, before, after, hworkers, fun u hu ↦ by simpa using hbefore u hu⟩

theorem IsFirstNamed.name_eq (hw : h.IsFirstNamed s w) : w.name = s := by
  obtain ⟨-, -, -, hname, -⟩ := hw
  exact hname

theorem exists_isFirstNamed (hs : ∃ u ∈ h.workers, u.name = s) : ∃ w, h.IsFirstNamed s w := by
  cases hw : h.worker? s with
  | some w => exact ⟨w, worker?_eq_some_iff.mp hw⟩
  | none =>
    obtain ⟨u, hu, hname⟩ := hs
    exact absurd hname (Picks.find?_eq_none.mp hw u hu)

/-- Where no two workers have the same index, a worker is found under its index. -/
theorem workerByIndex?_eq_some_iff (hi : (h.workers.map Worker.index).Nodup) :
    h.workerByIndex? s = some w ↔ w ∈ h.workers ∧ w.index = s := by
  rw [workerByIndex?]
  constructor
  · intro hw
    exact ⟨List.mem_of_find?_eq_some hw, by simpa using List.find?_some hw⟩
  · rintro ⟨hmem, rfl⟩
    cases hu : h.workers.find? (fun u ↦ u.index == w.index) with
    | none => exact absurd rfl (Picks.find?_eq_none.mp hu w hmem)
    | some u =>
      have hindex : u.index = w.index := by simpa using List.find?_some hu
      rw [List.inj_on_of_nodup_map hi (List.mem_of_find?_eq_some hu) hmem hindex]

/-- A run acts as a worker if the selector picks that worker, and only then. -/
theorem selectWorker_eq_ok_iff {selector : Option String} :
    h.selectWorker selector = .ok w ↔ h.Selects selector w := by
  refine ⟨selects_of_selectWorker, fun hw ↦ ?_⟩
  rcases h.selectWorker_cases selector with ⟨hnil, -⟩ | ⟨-, s, rfl, hlacks, -⟩ | ⟨w', hw', hok⟩
  · exact absurd hnil (List.ne_nil_of_mem hw.mem)
  · exact absurd hw.answers (not_or.mpr (hlacks w hw.mem))
  · rw [hok, Picks.unique hw hw']

theorem selectWorker_some_iff (hi : (h.workers.map Worker.index).Nodup) :
    h.selectWorker (some s) = .ok w ↔
      h.IsFirstNamed s w ∨ (∀ u ∈ h.workers, u.name ≠ s) ∧ w ∈ h.workers ∧ w.index = s := by
  rw [selectWorker_eq_ok_iff, ← worker?_eq_some_iff, ← workerByIndex?_eq_some_iff hi]
  constructor
  · intro hw
    cases hw with
    | named hname => exact .inl hname
    | indexed hnames hindex => exact .inr ⟨hnames, hindex⟩
  · rintro (hname | ⟨hnames, hindex⟩)
    · exact .named hname
    · exact .indexed hnames hindex

theorem selectWorker_none_iff :
    h.selectWorker none = .ok w ↔
      h.IsFirstNamed h.hostname w ∨
        (∀ u ∈ h.workers, u.name ≠ h.hostname) ∧ h.workers.head? = some w := by
  rw [selectWorker_eq_ok_iff, ← worker?_eq_some_iff]
  constructor
  · intro hw
    cases hw with
    | homonymous hname => exact .inl hname
    | leading hnames hhead => exact .inr ⟨hnames, hhead⟩
  · rintro (hname | ⟨hnames, hhead⟩)
    · exact .homonymous hname
    · exact .leading hnames hhead

theorem selectWorker_some_fails_iff :
    (∃ f, h.selectWorker (some s) = .error f) ↔ h.Lacks s := by
  constructor
  · rintro ⟨f, hf⟩
    rcases h.selectWorker_cases (some s) with ⟨hnil, -⟩ | ⟨-, s', hs, hlacks, -⟩ | ⟨w, -, hok⟩
    · intro u hu
      rw [hnil] at hu
      cases hu
    · cases hs
      exact hlacks
    · cases hok.symm.trans hf
  · intro hlacks
    cases hw : h.selectWorker (some s) with
    | error f => exact ⟨f, rfl⟩
    | ok w =>
      have hselects := selects_of_selectWorker hw
      exact absurd hselects.answers (not_or.mpr (hlacks w hselects.mem))

theorem exists_selectWorker_none (hne : h.workers ≠ []) :
    ∃ w, h.selectWorker none = .ok w := by
  rcases h.selectWorker_cases none with ⟨hnil, -⟩ | ⟨-, s, hs, -, -⟩ | ⟨w, -, hok⟩
  · exact absurd hnil hne
  · cases hs
  · exact ⟨w, hok⟩

/-! ## Selectors and workers -/

/-- What can be relied on when workers of a host are selected. -/
structure IsAddressable (h : Host) : Prop where
  /-- The name of a worker selects it, unless an earlier worker has the same name. -/
  name_iff : ∀ before w after, h.workers = before ++ w :: after →
    (h.selectWorker (some w.name) = .ok w ↔ ∀ u ∈ before, u.name ≠ w.name)
  /-- The index of a worker selects it, unless the first worker that is named like it is another. -/
  index_iff : ∀ w ∈ h.workers, (h.selectWorker (some w.index) = .ok w ↔
    h.IsFirstNamed w.index w ∨ ∀ u ∈ h.workers, u.name ≠ w.index)
  /-- A worker is selected by what is its own. -/
  answers : ∀ s w, h.selectWorker (some s) = .ok w → w ∈ h.workers ∧ (w.name = s ∨ w.index = s)
  /-- Any name counts before any index, and of equal names the first. -/
  prefers : ∀ s, (∃ u ∈ h.workers, u.name = s) →
    ∃ w, h.selectWorker (some s) = .ok w ∧ h.IsFirstNamed s w
  /-- There is a worker for a selector that any worker has. -/
  fails_iff : ∀ s, (∃ f, h.selectWorker (some s) = .error f) ↔
    ∀ w ∈ h.workers, w.name ≠ s ∧ w.index ≠ s
  /-- Without a selector, the first worker named after the host is selected, else the first one. -/
  default : h.workers ≠ [] → ∃ w, h.selectWorker none = .ok w ∧
    (h.IsFirstNamed h.hostname w ∨
      (∀ u ∈ h.workers, u.name ≠ h.hostname) ∧ h.workers.head? = some w)
  empty : h.workers = [] → ∀ selector, ∃ f, h.selectWorker selector = .error f

theorem selectWorker_name_iff (hi : (h.workers.map Worker.index).Nodup) {before after : List Worker}
    (hworkers : h.workers = before ++ w :: after) :
    h.selectWorker (some w.name) = .ok w ↔ ∀ u ∈ before, u.name ≠ w.name := by
  rw [selectWorker_some_iff hi]
  constructor
  · rintro (⟨before', after', hworkers', -, hbefore'⟩ | ⟨hnames, hmem, -⟩)
    · -- a worker stands in one place only, so it is the first one at that place
      have honce : w ∉ before ++ after := by
        have hnodup := hi.of_map
        rw [hworkers, List.nodup_middle, List.nodup_cons] at hnodup
        exact hnodup.1
      rw [List.mem_append, not_or] at honce
      have hsplit : before' = before :=
        ((List.append_cons_inj_of_notMem honce.1 honce.2).mp (hworkers.symm.trans hworkers')).1.symm
      exact hsplit ▸ hbefore'
    · exact absurd rfl (hnames w hmem)
  · intro hbefore
    exact .inl ⟨before, after, hworkers, rfl, hbefore⟩

theorem selectWorker_index_iff (hi : (h.workers.map Worker.index).Nodup) (hw : w ∈ h.workers) :
    h.selectWorker (some w.index) = .ok w ↔
      h.IsFirstNamed w.index w ∨ ∀ u ∈ h.workers, u.name ≠ w.index := by
  rw [selectWorker_some_iff hi]
  exact or_congr_right (and_iff_left ⟨hw, rfl⟩)

theorem isAddressable_of_nodup (hi : (h.workers.map Worker.index).Nodup) : h.IsAddressable where
  name_iff := fun _ _ _ ↦ selectWorker_name_iff hi
  index_iff := fun _ ↦ selectWorker_index_iff hi
  answers := by
    intro s w hw
    have hselects := selects_of_selectWorker hw
    exact ⟨hselects.mem, hselects.answers⟩
  prefers := by
    intro s hs
    obtain ⟨w, hw⟩ := exists_isFirstNamed hs
    exact ⟨w, (selectWorker_some_iff hi).mpr (.inl hw), hw⟩
  fails_iff := fun _ ↦ selectWorker_some_fails_iff
  default := by
    intro hne
    obtain ⟨w, hw⟩ := exists_selectWorker_none hne
    exact ⟨w, hw, selectWorker_none_iff.mp hw⟩
  empty := by
    intro hnil selector
    rcases h.selectWorker_cases selector with ⟨-, herror⟩ | ⟨hne, -⟩ | ⟨w, hselects, -⟩
    · exact ⟨_, herror⟩
    · exact absurd hnil hne
    · exact absurd hnil (List.ne_nil_of_mem hselects.mem)

/-- The selectors of workers can be relied on where no two workers have the same index, and every
host that is answered over a table without fault is like that. -/
theorem addressable_of_distinct_indices :
    (∀ h : Host, (h.workers.map Worker.index).Nodup → h.IsAddressable) ∧
      ∀ (t : HostTable) (directory root : String) (platform : LaunchPlatform) (hostname : String),
        t.fault? = none →
          ((t.registryFor directory root platform).resolve hostname).IsAddressable := by
  refine ⟨fun h ↦ isAddressable_of_nodup, fun t directory root platform hostname ht ↦ ?_⟩
  exact isAddressable_of_nodup
    (Registry.indices_resolve rfl (HostTable.fault?_eq_none_iff.mp ht) hostname)

/-- A host with three workers: two of them have one name, and the one between them is named like the
index of the first. -/
def crowded : Host :=
  HostEntry.toHost "h" { workers := [⟨"a", "1", false⟩, ⟨"1", "0", true⟩, ⟨"a", "2", false⟩] }

/-- On that host, the first worker has lost its index and keeps its name, and the last one has lost
its name and keeps its index. -/
theorem addressable_of_distinct_indices_crowded :
    (crowded.workers.map Worker.index).Nodup ∧
      (crowded.selectWorker (some "1") ≠ .ok ⟨"a", "1", false⟩ ∧
        crowded.selectWorker (some "a") = .ok ⟨"a", "1", false⟩) ∧
      crowded.selectWorker (some "a") ≠ .ok ⟨"a", "2", false⟩ ∧
        crowded.selectWorker (some "2") = .ok ⟨"a", "2", false⟩ := by
  have hi : (crowded.workers.map Worker.index).Nodup := by decide
  have haddressable := addressable_of_distinct_indices.1 crowded hi
  refine ⟨hi, ⟨?_, ?_⟩, ?_, ?_⟩
  · -- the name of the second worker comes before any index
    intro hfirst
    obtain ⟨w, hw, hnamed⟩ := haddressable.prefers "1" ⟨⟨"1", "0", true⟩, by decide, rfl⟩
    cases hfirst.symm.trans hw
    exact absurd hnamed.name_eq (by decide)
  · exact (haddressable.name_iff [] ⟨"a", "1", false⟩ _ rfl).mpr fun u hu ↦ by cases hu
  · intro hlast
    have hfresh := (haddressable.name_iff [⟨"a", "1", false⟩, ⟨"1", "0", true⟩]
      ⟨"a", "2", false⟩ [] rfl).mp hlast
    exact hfresh ⟨"a", "1", false⟩ List.mem_cons_self rfl
  · exact (haddressable.index_iff ⟨"a", "2", false⟩ (by decide)).mpr (.inr (by decide))

end Host

end BuildFleet
