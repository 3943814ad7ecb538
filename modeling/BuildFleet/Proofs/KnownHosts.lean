import BuildFleet.Json.Source
import BuildFleet.Proofs.SoundTables
import BuildFleet.Registry

/-!
# Known hosts

A registry answers for every name, and its answers can be told apart: what is said of a host of the
table is what the table says, and what is made up for another name shows that it is made up, by a
network and a switch of which nothing is known. Checking a table before a registry is made of it is
what makes names and indices of workers usable as selectors, for every host.

Leaving the copy rules out of an entry and saying that there are none are different things, and they
stay different: the first makes a host with the standard rules, the second one without any.

## From entries to answers

Three facts are put together. A host that is made of an entry is as the entry says, field by field,
and neither its network nor its switch is unknown. An answer is made of an entry or is made up, and
there is no third case. And an entry of a table without fault is sound. Whether a host is known can
then be seen from the host alone, by any property that hosts of entries have and hosts that are made
up do not, and there are two such properties.

What a registry is told about unknown hosts, their root and their platform, does not reach the known
ones. That is said of two registries over the same hosts, and of one that is told something else it
is a special case.
-/

namespace BuildFleet

/-! ## Hosts of entries -/

/-- A host is as its entry in the table says, and can be worked with. -/
structure HostEntry.IsShownBy (e : HostEntry) (host : Host) : Prop where
  /-- The workers are the rows, in order. -/
  workers : host.workers = e.workers.map fun row ↦ ⟨row.name, row.index, row.elevated⟩
  names : ∀ w ∈ host.workers, Text.trim w.name ≠ ""
  /-- No rules apply if the entry says so, and only then. -/
  copies_none : host.copies = none ↔ e.copies = none
  /-- The standard rules apply if the entry names them or lists just them. -/
  copies_standard : host.copies = some CopyRule.standardSet ↔
    e.copies = some .standard ∨ e.copies = some (.rules CopyRule.standardSet)
  /-- Rules that are listed apply as they stand. -/
  copies_rules : ∀ rs, e.copies = some (.rules rs) →
    host.copies = some rs ∧ ∀ r ∈ rs, r.source ≠ "" ∧ r.destination ≠ ""

namespace HostEntry

variable {hostname : String} {e : HostEntry}

theorem copies_toHost_eq_standard_iff :
    (e.toHost hostname).copies = some CopyRule.standardSet ↔
      e.copies = some .standard ∨ e.copies = some (.rules CopyRule.standardSet) := by
  change e.copies.map CopiesEntry.toRules = _ ↔ _
  match e.copies with
  | none => simp
  | some .standard => simp [CopiesEntry.toRules]
  | some (.rules rs) => simp [CopiesEntry.toRules]

theorem isShownBy_toHost (h : e.IsSound hostname) : e.IsShownBy (e.toHost hostname) where
  workers := rfl
  names := by
    intro w hw
    obtain ⟨row, hrow, rfl⟩ := List.mem_map.mp hw
    exact h.names row hrow
  copies_none := Option.map_eq_none_iff
  copies_standard := copies_toHost_eq_standard_iff
  copies_rules := by
    intro rs hrs
    refine ⟨?_, fun r hr ↦ ⟨(h.rules rs hrs r hr).source, (h.rules rs hrs r hr).destination⟩⟩
    change e.copies.map CopiesEntry.toRules = some rs
    rw [hrs]
    rfl

theorem indices_toHost (h : e.IsSound hostname) :
    ((e.toHost hostname).workers.map Worker.index).Nodup := by
  change ((e.workers.map WorkerEntry.toWorker).map Worker.index).Nodup
  rw [List.map_map]
  exact h.indices

theorem network_toHost_ne_unknown (hostname : String) (e : HostEntry) :
    (e.toHost hostname).network ≠ .unknown := by
  rw [toHost]
  cases e.ip <;> simp

theorem kvm_toHost_ne_unknown (hostname : String) (e : HostEntry) :
    (e.toHost hostname).kvm ≠ .unknown := by
  rw [toHost]
  cases e.kvm <;> simp

end HostEntry

/-! ## Answers -/

namespace Registry

structure KnowsAlike (r r' : Registry) : Prop where
  get? : r'.get? = r.get?
  isKnown : r'.isKnown = r.isKnown
  hostnames : r'.hostnames = r.hostnames
  findWorker? : r'.findWorker? = r.findWorker?
  toJson : r'.toJson = r.toJson
  toYaml : r'.toYaml = r.toYaml

theorem knowsAlike_of_hosts {r r' : Registry} (h : r'.hosts = r.hosts) : r.KnowsAlike r' where
  get? := by
    funext hostname
    rw [Registry.get?, h, Registry.get?]
  isKnown := by
    funext hostname
    rw [Registry.isKnown, h, Registry.isKnown]
  hostnames := by rw [Registry.hostnames, h, Registry.hostnames]
  findWorker? := by
    funext name
    rw [Registry.findWorker?, h, Registry.findWorker?]
  toJson := by rw [Registry.toJson, h, Registry.toJson]
  toYaml := by rw [Registry.toYaml, h, Registry.toYaml]

/-- What is relied on when a registry answers for the hosts of a table. -/
structure IsFaithfulTo (r : Registry) (t : HostTable) : Prop where
  /-- The host that is answered has the name that was asked for. -/
  hostname : ∀ h, (r.resolve h).hostname = h
  /-- The hosts that are known are those of the table, and this can be seen in four ways. -/
  get? : ∀ h, r.isKnown h = true ↔ (r.get? h).isSome = true
  listed : ∀ h, r.isKnown h = true ↔ h ∈ r.hostnames
  network : ∀ h, r.isKnown h = true ↔ (r.resolve h).network ≠ .unknown
  kvm : ∀ h, r.isKnown h = true ↔ (r.resolve h).kvm ≠ .unknown
  /-- Any host can be worked with by the indices of its workers. -/
  indices : ∀ h, ((r.resolve h).workers.map Worker.index).Nodup
  /-- A known host is as the table says. -/
  shown : ∀ h, r.isKnown h = true → ∃ e, t.hosts.get? h = some e ∧ e.IsShownBy (r.resolve h)
  hostnames : r.hostnames = t.hosts.keys
  increasing : r.hostnames.Pairwise (· < ·)
  named : ∀ h ∈ r.hostnames, Text.trim h ≠ ""
  size : r.hosts.size = r.hostnames.length
  /-- Another root for unknown hosts changes their root and nothing else. -/
  localRoot : ∀ root, r.KnowsAlike (r.withLocalRoot root) ∧ ∀ h,
    (r.withLocalRoot root).resolve h =
      if r.isKnown h then r.resolve h
      else { r.resolve h with automationRoot := some (Path.segments root) }
  /-- Another platform for unknown hosts changes their launch script and nothing else. -/
  localPlatform : ∀ platform, r.KnowsAlike (r.withLocalPlatform platform) ∧ ∀ h,
    (r.withLocalPlatform platform).resolve h =
      if r.isKnown h then r.resolve h
      else { r.resolve h with launchScript := platform.launchScript }

variable {r : Registry} {t : HostTable} {h : String}

theorem isKnown_iff_isSome_get? : r.isKnown h = true ↔ (r.get? h).isSome = true := by
  rw [isKnown, Dictionary.contains_eq_isSome_get?, get?]

theorem resolve_cases (r : Registry) (h : String) :
    (∃ host, r.isKnown h = true ∧ r.get? h = some host ∧ r.resolve h = host) ∨
      (r.isKnown h = false ∧ r.get? h = none ∧ r.resolve h = r.defaultHost h) := by
  rw [isKnown, Dictionary.contains_eq_isSome_get?, resolve, get?]
  cases r.hosts.get? h with
  | none => exact .inr ⟨rfl, rfl, rfl⟩
  | some host => exact .inl ⟨host, rfl, rfl, rfl⟩

theorem exists_entry (ht : r.hosts = t.toHosts) (hk : r.isKnown h = true) :
    ∃ e, t.hosts.get? h = some e ∧ r.resolve h = e.toHost h := by
  rcases r.resolve_cases h with ⟨host, -, hget, hresolve⟩ | ⟨hunknown, -, -⟩
  · rw [get?, ht, HostTable.toHosts, Dictionary.get?_mapEntries] at hget
    obtain ⟨e, he, hhost⟩ := Option.map_eq_some_iff.mp hget
    exact ⟨e, he, hresolve.trans hhost.symm⟩
  · rw [hunknown] at hk
    cases hk

theorem resolve_of_not_known (hk : r.isKnown h = false) : r.resolve h = r.defaultHost h := by
  rcases r.resolve_cases h with ⟨host, hknown, -, -⟩ | ⟨-, -, hresolve⟩
  · rw [hknown] at hk
    cases hk
  · exact hresolve

theorem isKnown_iff {P : Host → Prop} (ht : r.hosts = t.toHosts)
    (hentry : ∀ e : HostEntry, P (e.toHost h)) (hdefault : ¬ P (r.defaultHost h)) :
    r.isKnown h = true ↔ P (r.resolve h) := by
  cases hk : r.isKnown h with
  | true =>
    obtain ⟨e, -, hresolve⟩ := exists_entry ht hk
    rw [hresolve]
    exact ⟨fun _ ↦ hentry e, fun _ ↦ rfl⟩
  | false =>
    rw [resolve_of_not_known hk]
    exact ⟨fun hf ↦ absurd hf Bool.false_ne_true, fun hp ↦ absurd hp hdefault⟩

theorem keys_toHosts (t : HostTable) : t.toHosts.keys = t.hosts.keys := by
  rw [Dictionary.keys, HostTable.toHosts, Dictionary.mapEntries, List.map_map]
  rfl

theorem indices_resolve (ht : r.hosts = t.toHosts) (hsound : t.IsSound) (h : String) :
    ((r.resolve h).workers.map Worker.index).Nodup := by
  cases hk : r.isKnown h with
  | true =>
    obtain ⟨e, he, hresolve⟩ := exists_entry ht hk
    rw [hresolve]
    exact HostEntry.indices_toHost (hsound.of_get? he)
  | false =>
    -- a host that is made up has one worker
    rw [resolve_of_not_known hk]
    exact List.nodup_singleton _

theorem trim_ne_empty_of_mem (ht : r.hosts = t.toHosts) (hsound : t.IsSound)
    (hmem : h ∈ r.hostnames) : Text.trim h ≠ "" := by
  rw [hostnames, ht, keys_toHosts] at hmem
  obtain ⟨e, he, rfl⟩ := List.mem_map.mp hmem
  exact (hsound e he).hostname

theorem resolve_of_hosts {r' : Registry} (hosts : r'.hosts = r.hosts) (h : String) :
    r'.resolve h = if r.isKnown h then r.resolve h else r'.defaultHost h := by
  have hget : r'.get? h = r.get? h := by rw [get?, hosts, get?]
  rcases r.resolve_cases h with ⟨host, hk, hhost, hresolve⟩ | ⟨hk, hnone, -⟩
  · rw [if_pos hk, hresolve, resolve, hget, hhost, Option.getD_some]
  · rw [if_neg (by rw [hk]; exact Bool.false_ne_true), resolve, hget, hnone, Option.getD_none]

theorem resolve_withLocalRoot (r : Registry) (root h : String) :
    (r.withLocalRoot root).resolve h =
      if r.isKnown h then r.resolve h
      else { r.resolve h with automationRoot := some (Path.segments root) } := by
  have hosts : (r.withLocalRoot root).hosts = r.hosts := rfl
  rw [resolve_of_hosts hosts]
  cases hk : r.isKnown h with
  | true => rfl
  | false =>
    rw [resolve_of_not_known hk]
    rfl

theorem resolve_withLocalPlatform (r : Registry) (platform : LaunchPlatform) (h : String) :
    (r.withLocalPlatform platform).resolve h =
      if r.isKnown h then r.resolve h
      else { r.resolve h with launchScript := platform.launchScript } := by
  have hosts : (r.withLocalPlatform platform).hosts = r.hosts := rfl
  rw [resolve_of_hosts hosts]
  cases hk : r.isKnown h with
  | true => rfl
  | false =>
    rw [resolve_of_not_known hk]
    rfl

theorem isFaithfulTo_of_hosts (ht : r.hosts = t.toHosts) (hsound : t.IsSound) :
    r.IsFaithfulTo t where
  hostname := r.hostname_resolve
  get? := fun _ ↦ isKnown_iff_isSome_get?
  listed := fun _ ↦ Dictionary.contains_iff_mem_keys
  network := fun h ↦ isKnown_iff (P := fun host ↦ host.network ≠ .unknown) ht
    (HostEntry.network_toHost_ne_unknown h) (not_not_intro rfl)
  kvm := fun h ↦ isKnown_iff (P := fun host ↦ host.kvm ≠ .unknown) ht
    (HostEntry.kvm_toHost_ne_unknown h) (not_not_intro rfl)
  indices := indices_resolve ht hsound
  shown := by
    intro h hk
    obtain ⟨e, he, hresolve⟩ := exists_entry ht hk
    rw [hresolve]
    exact ⟨e, he, HostEntry.isShownBy_toHost (hsound.of_get? he)⟩
  hostnames := by rw [hostnames, ht, keys_toHosts]
  increasing := r.hosts.pairwise_keys
  named := fun _ ↦ trim_ne_empty_of_mem ht hsound
  size := by rw [hostnames, Dictionary.keys, List.length_map, Dictionary.size]
  localRoot := fun root ↦ ⟨knowsAlike_of_hosts rfl, r.resolve_withLocalRoot root⟩
  localPlatform := fun platform ↦ ⟨knowsAlike_of_hosts rfl, r.resolve_withLocalPlatform platform⟩

end Registry

/-! ## Copy rules in documents -/

/-- What an entry says of copy rules when it is read from a document: the standard ones if the field
is left out, and none if it is there and shows an absent value. -/
structure HostEntry.KeepsCopies {ν : Type} (S : Source ν) (fs : Fields ν) (e : HostEntry) :
    Prop where
  omitted : fs.find? 1 "copies" = some none → e.copies = some .standard
  absent : ∀ m, fs.find? 1 "copies" = some (some m) →
    (∀ allowance, (S.optional m allowance).map Prod.fst = some none) → e.copies = none

theorem HostEntry.keepsCopies_of_read {ν : Type} {S : Source ν} {n : ν} {fs : Fields ν}
    {e : HostEntry} {before between after : Nat} (hfs : S.fields n before = some (fs, between))
    (he : HostEntry.read S n before = some (e, after)) : e.KeepsCopies S fs := by
  -- of the fields that are read one after the other, only the second one makes the copy rules
  obtain ⟨start, rest, hcopies⟩ : ∃ start rest,
      fs.defaulted 1 "copies" (some .standard) (S.optionOf (CopiesEntry.read S)) start =
        some (e.copies, rest) := by
    rw [HostEntry.read] at he
    simp only [bind, StateT.bind, Option.bind_eq_some_iff] at he
    obtain ⟨_, hfields, _, -, ⟨copies, rest⟩, hcopies, _, -, _, -, _, -, _, -, hwhole⟩ := he
    cases hfs.symm.trans hfields
    rw [Fields.whole] at hwhole
    split at hwhole
    · cases hwhole
      exact ⟨_, _, hcopies⟩
    · cases hwhole
  rw [Fields.defaulted] at hcopies
  constructor
  · intro homitted
    rw [homitted] at hcopies
    exact (congrArg Prod.fst (Option.some.inj hcopies)).symm
  · intro m hm habsent
    rw [hm] at hcopies
    have hoptional : S.optionOf (CopiesEntry.read S) m start = some (e.copies, rest) := hcopies
    simp only [Source.optionOf, bind, StateT.bind, Option.bind_eq_some_iff] at hoptional
    obtain ⟨⟨shown, next⟩, hshown, hread⟩ := hoptional
    have hnone := habsent start
    rw [hshown] at hnone
    cases hnone
    exact (congrArg Prod.fst (Option.some.inj hread)).symm

/-! ## Registries of tables -/

/-- The registry of a table in which no fault is found is faithful to it, whatever it is told of
unknown hosts; and the table tells of copy rules what the document has said that it was read from.
-/
theorem HostTable.registryFor_isFaithfulTo {t : HostTable} (h : t.fault? = none)
    (directory root : String) (platform : LaunchPlatform) :
    (t.registryFor directory root platform).IsFaithfulTo t ∧
      ∀ {ν : Type} (S : Source ν) (n : ν) (fs : Fields ν) (e : HostEntry)
        (before between after : Nat), S.fields n before = some (fs, between) →
          HostEntry.read S n before = some (e, after) → e.KeepsCopies S fs :=
  ⟨Registry.isFaithfulTo_of_hosts rfl (HostTable.fault?_eq_none_iff.mp h),
    fun _ _ _ _ _ _ _ hfs he ↦ HostEntry.keepsCopies_of_read hfs he⟩

/-- A table with a host without copy rules and one with a rule of its own; the second one has a
worker whose name is the index of another. -/
def HostTable.twoHosts : HostTable where
  hosts := (Dictionary.empty.insert "bare" { copies := none }).insert "own"
    { workers := [⟨"a", "1", false⟩, ⟨"1", "0", true⟩], copies := some (.rules [⟨".boto", "etc"⟩]) }

/-- On that table, a host keeps its lack of rules, and another platform does not reach it. An entry
whose rules are null is such a host, and one that leaves them out is none. -/
theorem HostTable.registryFor_isFaithfulTo_twoHosts :
    twoHosts.fault? = none ∧
      ((twoHosts.registryFor "/" "/b" .unix).resolve "bare").copies = none ∧
      ((twoHosts.registryFor "/" "/b" .unix).withLocalPlatform .windows).resolve "bare" =
        (twoHosts.registryFor "/" "/b" .unix).resolve "bare" ∧
      (∃ e, Json.read? HostEntry.read true (.object [("copies", .null)]) = some e ∧
        e.copies = none) ∧
      ∃ e, Json.read? HostEntry.read true (.object []) = some e ∧ e.copies = some .standard := by
  have hsound : twoHosts.fault? = none := by decide
  obtain ⟨hfaithful, hkeeps⟩ := registryFor_isFaithfulTo hsound "/" "/b" .unix
  have hknown : (twoHosts.registryFor "/" "/b" .unix).isKnown "bare" = true := by decide
  obtain ⟨e, he, hshown⟩ := hfaithful.shown "bare" hknown
  cases he
  refine ⟨hsound, hshown.copies_none.mpr rfl, ?_, ?_, ?_⟩
  · rw [(hfaithful.localPlatform .windows).2 "bare", if_pos hknown]
  · have hread : HostEntry.read (Json.source true) ⟨0, .object [("copies", .null)]⟩ 0 =
        some ({ copies := none }, 0) := rfl
    exact ⟨_, rfl, (hkeeps (Json.source true) _ _ _ _ _ _ rfl hread).absent _ rfl fun _ ↦ rfl⟩
  · have hread : HostEntry.read (Json.source true) ⟨0, .object []⟩ 0 = some ({}, 0) := rfl
    exact ⟨_, rfl, (hkeeps (Json.source true) _ _ _ _ _ _ rfl hread).omitted rfl⟩

end BuildFleet
