import BuildFleet.Proofs.TypedReading
import BuildFleet.Device.Error
import BuildFleet.Step.Outcome
import BuildFleet.Step.Params
import BuildFleet.Table.Document

/-!
# Values are read as they were written

For each type that is written into documents, its reader takes from a node that shows what its
writer gave just the value that was written. A text that stands for a point in time is read by the
parser of such texts, so values with points in time are read back as far as that parser takes back
what it is given.

## One lemma for each type

The lemmas follow the types, and each of them rests on those of the types inside it. None of them
knows a format, or how deep a value stands in its document. The proofs take a record apart into its
fields, have each field read by the lemma of its type and put the record together again, and where a
type has variants there is one case for each.

Three types need a thought. The copy rules of an entry are written as a name or as a list and are
read without a type first, so what a list shows of itself has to be told from the name. A network
may carry an address, which could be spelled like one of the names beside it, but the address is
inside of a variant and never looked at as a name. And in an entry of a table, where a field that is
left out would mean something, no field is ever left out in writing.

Whether a written value fits is a second list of lemmas, at the end, with a bound on the depth for
each type.
-/

namespace BuildFleet

variable {ν : Type} {S : Source ν} {n : ν}

open Source.Shows (text_eq flag_eq nameOf_eq listOf_eq optionOf_eq)

/-! ## Hosts -/

theorem Worker.read_eq {w : Worker} (h : S.Shows w.toDatum n) : Worker.read S n = pure w := by
  obtain ⟨fs, hfs, h⟩ := h.exists_fields (by simp)
  have hname : fs.required 0 "name" S.text = pure w.name :=
    h.required_eq 0 (by simp) fun _ ↦ text_eq
  have hindex : fs.required 1 "index" S.text = pure w.index :=
    h.required_eq 1 (by simp) fun _ ↦ text_eq
  have helevated : fs.required 2 "elevated_install" S.flag = pure w.elevatedInstall :=
    h.required_eq 2 (by simp) fun _ ↦ flag_eq
  rw [Worker.read, hfs, pure_bind, hname, pure_bind, hindex, pure_bind, helevated, pure_bind,
    h.whole_eq]

theorem CopyRule.read_eq {r : CopyRule} (h : S.Shows r.toDatum n) :
    CopyRule.read S n = pure r := by
  obtain ⟨fs, hfs, h⟩ := h.exists_fields (by simp)
  have hsource : fs.required 0 "source" S.text = pure r.source :=
    h.required_eq 0 (by simp) fun _ ↦ text_eq
  have hdestination : fs.required 1 "destination" S.text = pure r.destination :=
    h.required_eq 1 (by simp) fun _ ↦ text_eq
  rw [CopyRule.read, hfs, pure_bind, hsource, pure_bind, hdestination, pure_bind, h.whole_eq]

/-- A variant that carries an address is not taken for one of the two names, whatever the address
says. -/
theorem NetworkAddress.read_eq {a : NetworkAddress} (h : S.Shows a.toDatum n) :
    NetworkAddress.read S n = pure a := by
  rw [NetworkAddress.read]
  cases a with
  | static address =>
    obtain ⟨m, hchoice, hm⟩ := h.exists_choice
    simp only [hchoice, pure_bind, beq_self_eq_true, if_true, Reading.ofOption_some, text_eq hm]
  | noStatic | unknown =>
    rw [h.choice_eq, pure_bind]
    rfl

theorem KvmAttachment.read_eq {k : KvmAttachment} (h : S.Shows k.toDatum n) :
    KvmAttachment.read S n = pure k := by
  rw [KvmAttachment.read]
  cases k with
  | attached switch port =>
    obtain ⟨m, fs, hchoice, hfs, h⟩ := h.exists_payload (by simp)
    have hswitch : fs.required 0 "switch" S.text = pure switch :=
      h.required_eq 0 (by simp) fun _ ↦ text_eq
    have hport : fs.required 1 "port" S.text = pure port :=
      h.required_eq 1 (by simp) fun _ ↦ text_eq
    simp only [hchoice, pure_bind, beq_self_eq_true, if_true, Reading.ofOption_some, hfs, hswitch,
      hport, h.whole_eq]
  | notAttached | unknown =>
    rw [h.choice_eq, pure_bind]
    rfl

theorem LaunchPlatform.read_eq {p : LaunchPlatform} (h : S.Shows p.toDatum n) :
    LaunchPlatform.read S n = pure p :=
  h.nameOf_eq (by cases p <;> rfl)

theorem Host.read_eq {host : Host} (h : S.Shows host.toDatum n) : Host.read S n = pure host := by
  obtain ⟨fs, hfs, h⟩ := h.exists_fields (by simp)
  have hhostname : fs.required 0 "hostname" S.text = pure host.hostname :=
    h.required_eq 0 (by simp) fun _ ↦ text_eq
  have hworkers : fs.required 1 "workers" (S.listOf (Worker.read S)) = pure host.workers :=
    h.required_eq 1 (by simp) fun _ h ↦ listOf_eq h fun _ _ _ ↦ Worker.read_eq
  have hcopies : fs.optional S 2 "copies" (S.listOf (CopyRule.read S)) = pure host.copies :=
    h.optional_eq 2 (by simp) fun _ h ↦ optionOf_eq h (fun _ ↦ rfl) fun _ _ h ↦
      listOf_eq h fun _ _ _ ↦ CopyRule.read_eq
  have hnetwork : fs.required 3 "network" (NetworkAddress.read S) = pure host.network :=
    h.required_eq 3 (by simp) fun _ ↦ NetworkAddress.read_eq
  have hkvm : fs.required 4 "kvm" (KvmAttachment.read S) = pure host.kvm :=
    h.required_eq 4 (by simp) fun _ ↦ KvmAttachment.read_eq
  have hroot : fs.optional S 5 "automation_root" (S.listOf S.text) = pure host.automationRoot :=
    h.optional_eq 5 (by simp) fun _ h ↦ optionOf_eq h (fun _ ↦ rfl) fun _ _ h ↦
      listOf_eq h fun _ _ _ ↦ text_eq
  have hscript : fs.required 6 "launch_script" (S.listOf S.text) = pure host.launchScript :=
    h.required_eq 6 (by simp) fun _ h ↦ listOf_eq h fun _ _ _ ↦ text_eq
  rw [Host.read, hfs, pure_bind, hhostname, pure_bind, hworkers, pure_bind, hcopies, pure_bind,
    hnetwork, pure_bind, hkvm, pure_bind, hroot, pure_bind, hscript, pure_bind, h.whole_eq]

theorem Dictionary.readHosts_eq {hosts : Dictionary Host} (h : S.Shows hosts.hostsToDatum n) :
    Dictionary.readHosts S n = pure hosts :=
  h.readEntries_eq fun _ _ ↦ Host.read_eq

/-! ## Tables -/

theorem WorkerEntry.read_eq {w : WorkerEntry} (h : S.Shows w.toDatum n) :
    WorkerEntry.read S n = pure w := by
  cases h with
  | list _ answer inner =>
    obtain ⟨name, ns, hname, inner₁, rfl⟩ := List.forall₂_cons_left_iff.mp inner
    obtain ⟨index, ns, hindex, inner₂, rfl⟩ := List.forall₂_cons_left_iff.mp inner₁
    obtain ⟨elevated, ns, helevated, inner₃, rfl⟩ := List.forall₂_cons_left_iff.mp inner₂
    obtain rfl := List.forall₂_nil_left_iff.mp inner₃
    simp only [WorkerEntry.read, answer, pure_bind, text_eq hname, text_eq hindex,
      flag_eq helevated]

namespace CopiesEntry

/-- A rule as a value without a type. -/
def bareRule (r : CopyRule) : Untyped :=
  .map [(.text "source", .text r.source), (.text "destination", .text r.destination)]

theorem bareItems?_rules (rs : List CopyRule) :
    Datum.bareItems? (rs.map CopyRule.toDatum) = some (rs.map bareRule) := by
  induction rs with
  | nil => rfl
  | cons r rs ih =>
    rw [List.map_cons, Datum.bareItems?, ih]
    rfl

theorem mapM_ruleOfUntyped? (rs : List CopyRule) :
    (rs.map bareRule).mapM ruleOfUntyped? = some rs := by
  induction rs with
  | nil => rfl
  | cons r rs ih =>
    rw [List.map_cons, List.mapM_cons, ih]
    rfl

/-- What rules show of themselves is matched with the shape that they were written in: the name of
the standard set is no list, and a list is not that name. -/
theorem exists_bare (c : CopiesEntry) :
    ∃ u, c.toDatum.bare? = some u ∧ ofUntyped? u = some c := by
  cases c with
  | standard => exact ⟨.text "standard", rfl, rfl⟩
  | rules rs =>
    refine ⟨.list (rs.map bareRule), ?_, ?_⟩
    · rw [toDatum, Datum.ofList, Datum.bare?, bareItems?_rules]
      rfl
    · change ((rs.map bareRule).mapM ruleOfUntyped?).map rules = _
      rw [mapM_ruleOfUntyped?]
      rfl

theorem read_eq {c : CopiesEntry} (h : S.Shows c.toDatum n) : CopiesEntry.read S n = pure c := by
  obtain ⟨u, hu, hc⟩ := c.exists_bare
  rw [CopiesEntry.read, h.face.untyped u hu, pure_bind, hc, Reading.ofOption_some]

theorem isNull_toDatum (c : CopiesEntry) : c.toDatum.isNull = false := by
  cases c <;> rfl

end CopiesEntry

theorem KvmEntry.read_eq {k : KvmEntry} (h : S.Shows k.toDatum n) :
    KvmEntry.read S n = pure k := by
  obtain ⟨fs, hfs, h⟩ := h.exists_fields (by simp)
  have hswitch : fs.required 0 "switch" S.text = pure k.switch :=
    h.required_eq 0 (by simp) fun _ ↦ text_eq
  have hport : fs.required 1 "port" S.text = pure k.port :=
    h.required_eq 1 (by simp) fun _ ↦ text_eq
  rw [KvmEntry.read, hfs, pure_bind, hswitch, pure_bind, hport, pure_bind, h.whole_eq]

/-- No field of a written entry is left out, so no field is taken to be what omission means. -/
theorem HostEntry.read_eq {e : HostEntry} (h : S.Shows e.toDatum n) :
    HostEntry.read S n = pure e := by
  obtain ⟨fs, hfs, h⟩ := h.exists_fields (by simp)
  have hworkers : ∀ missing,
      fs.defaulted 0 "workers" missing (S.listOf (WorkerEntry.read S)) = pure e.workers :=
    fun _ ↦ h.defaulted_eq 0 (by simp) fun _ h ↦ listOf_eq h fun _ _ _ ↦ WorkerEntry.read_eq
  have hcopies : ∀ missing,
      fs.defaulted 1 "copies" missing (S.optionOf (CopiesEntry.read S)) = pure e.copies :=
    fun _ ↦ h.defaulted_eq 1 (by simp) fun _ h ↦
      optionOf_eq h CopiesEntry.isNull_toDatum fun _ _ ↦ CopiesEntry.read_eq
  have hip : ∀ missing, fs.defaulted 2 "ip" missing (S.optionOf S.text) = pure e.ip :=
    fun _ ↦ h.defaulted_eq 2 (by simp) fun _ h ↦ optionOf_eq h (fun _ ↦ rfl) fun _ _ ↦ text_eq
  have hkvm : ∀ missing,
      fs.defaulted 3 "kvm" missing (S.optionOf (KvmEntry.read S)) = pure e.kvm :=
    fun _ ↦ h.defaulted_eq 3 (by simp) fun _ h ↦
      optionOf_eq h (fun _ ↦ rfl) fun _ _ ↦ KvmEntry.read_eq
  have hroot : ∀ missing,
      fs.defaulted 4 "automation_root" missing (S.optionOf (S.listOf S.text)) =
        pure e.automationRoot :=
    fun _ ↦ h.defaulted_eq 4 (by simp) fun _ h ↦ optionOf_eq h (fun _ ↦ rfl) fun _ _ h ↦
      listOf_eq h fun _ _ _ ↦ text_eq
  have hlaunch : ∀ missing,
      fs.defaulted 5 "launch" missing (LaunchPlatform.read S) = pure e.launch :=
    fun _ ↦ h.defaulted_eq 5 (by simp) fun _ ↦ LaunchPlatform.read_eq
  simp only [HostEntry.read, hfs, hworkers, hcopies, hip, hkvm, hroot, hlaunch, pure_bind,
    h.whole_eq]

theorem HostTable.read_eq {t : HostTable} (h : S.Shows t.toDatum n) :
    HostTable.read S n = pure t := by
  obtain ⟨fs, hfs, h⟩ := h.exists_fields (by simp)
  have hhosts : fs.defaulted 0 "hosts" .empty (HostTable.readHosts S) = pure t.hosts :=
    h.defaulted_eq 0 (by simp) fun _ h ↦ h.readEntries_eq fun _ _ ↦ HostEntry.read_eq
  rw [HostTable.read, hfs, pure_bind, hhosts, pure_bind, h.whole_eq]

/-! ## Steps -/

theorem FailureKind.read_eq {k : FailureKind} (h : S.Shows k.toDatum n) :
    FailureKind.read S n = pure k :=
  h.nameOf_eq (by cases k <;> rfl)

theorem StepParams.read_eq {p : StepParams} (h : S.Shows p.toDatum n) :
    StepParams.read S n = pure p := by
  obtain ⟨fs, hfs, h⟩ := h.exists_fields (by simp)
  have hoption : ∀ index name (s : Option String), (name, Datum.ofOption .text s) ∈ _ →
      fs.optional S index name S.text = pure s :=
    fun index name s hs ↦ h.optional_eq index hs fun _ h ↦
      optionOf_eq h (fun _ ↦ rfl) fun _ _ ↦ text_eq
  have hconfiguration : fs.required 0 "configuration" S.text = pure p.configuration :=
    h.required_eq 0 (by simp) fun _ ↦ text_eq
  rw [StepParams.read, hfs, pure_bind, hconfiguration, pure_bind,
    hoption 1 _ p.deviceSerial (by simp), pure_bind, hoption 2 _ p.revision (by simp), pure_bind,
    hoption 3 _ p.gotRevision (by simp), pure_bind, hoption 4 _ p.worker (by simp), pure_bind,
    h.whole_eq]

theorem InstallReport.read_eq {r : InstallReport} (h : S.Shows r.toDatum n) :
    InstallReport.read S n = pure r := by
  obtain ⟨fs, hfs, h⟩ := h.exists_fields (by simp)
  have hpackages : fs.required 0 "packages" (S.listOf S.text) = pure r.packages :=
    h.required_eq 0 (by simp) fun _ h ↦ listOf_eq h fun _ _ _ ↦ text_eq
  have houtput : fs.required 1 "output" S.text = pure r.output :=
    h.required_eq 1 (by simp) fun _ ↦ text_eq
  rw [InstallReport.read, hfs, pure_bind, hpackages, pure_bind, houtput, pure_bind, h.whole_eq]

/-- Whether the text of a point in time is read back as that point. -/
def Instant.IsLegible (t : Instant) : Prop := Instant.parse? t.text = some t

instance (t : Instant) : Decidable t.IsLegible :=
  inferInstanceAs (Decidable (Instant.parse? t.text = some t))

theorem Instant.read_eq {t : Instant} (ht : t.IsLegible) (h : S.Shows t.toDatum n) :
    Instant.read S n = pure t := by
  rw [Instant.read, text_eq h, pure_bind, ht, Reading.ofOption_some]

/-- The points in time that a state knows. -/
def StepState.moments : StepState → List Instant
  | created => []
  | validated t => [t]
  | executing t => [t]
  | succeeded t u => [t, u]
  | failed _ _ t => [t]

theorem StepState.read_eq {s : StepState} (ht : ∀ t ∈ s.moments, t.IsLegible)
    (h : S.Shows s.toDatum n) : StepState.read S n = pure s := by
  rw [StepState.read]
  cases s with
  | created =>
    rw [h.choice_eq, pure_bind]
    rfl
  | validated t =>
    obtain ⟨m, fs, hchoice, hfs, h⟩ := h.exists_payload (by simp)
    have hvalidated : fs.required 0 "validated_at" (Instant.read S) = pure t :=
      h.required_eq 0 (by simp) fun _ ↦ Instant.read_eq (ht t (by simp [moments]))
    simp [hchoice, hfs, hvalidated, h.whole_eq]
  | executing t =>
    obtain ⟨m, fs, hchoice, hfs, h⟩ := h.exists_payload (by simp)
    have hstarted : fs.required 0 "started_at" (Instant.read S) = pure t :=
      h.required_eq 0 (by simp) fun _ ↦ Instant.read_eq (ht t (by simp [moments]))
    simp [hchoice, hfs, hstarted, h.whole_eq]
  | succeeded t u =>
    obtain ⟨m, fs, hchoice, hfs, h⟩ := h.exists_payload (by simp)
    have hstarted : fs.required 0 "started_at" (Instant.read S) = pure t :=
      h.required_eq 0 (by simp) fun _ ↦ Instant.read_eq (ht t (by simp [moments]))
    have hcompleted : fs.required 1 "completed_at" (Instant.read S) = pure u :=
      h.required_eq 1 (by simp) fun _ ↦ Instant.read_eq (ht u (by simp [moments]))
    simp [hchoice, hfs, hstarted, hcompleted, h.whole_eq]
  | failed kind error t =>
    obtain ⟨m, fs, hchoice, hfs, h⟩ := h.exists_payload (by simp)
    have hkind : fs.required 0 "kind" (FailureKind.read S) = pure kind :=
      h.required_eq 0 (by simp) fun _ ↦ FailureKind.read_eq
    have herror : fs.required 1 "error" S.text = pure error :=
      h.required_eq 1 (by simp) fun _ ↦ text_eq
    have hfailed : fs.required 2 "failed_at" (Instant.read S) = pure t :=
      h.required_eq 2 (by simp) fun _ ↦ Instant.read_eq (ht t (by simp [moments]))
    simp [hchoice, hfs, hkind, herror, hfailed, h.whole_eq]

theorem StateTransition.read_eq {t : StateTransition} (ht : t.moment.IsLegible)
    (h : S.Shows t.toDatum n) : StateTransition.read S n = pure t := by
  obtain ⟨fs, hfs, h⟩ := h.exists_fields (by simp)
  have hsource : fs.required 0 "from" S.text = pure t.source :=
    h.required_eq 0 (by simp) fun _ ↦ text_eq
  have htarget : fs.required 1 "to" S.text = pure t.target :=
    h.required_eq 1 (by simp) fun _ ↦ text_eq
  have hmoment : fs.required 2 "at" (Instant.read S) = pure t.moment :=
    h.required_eq 2 (by simp) fun _ ↦ Instant.read_eq ht
  rw [StateTransition.read, hfs, pure_bind, hsource, pure_bind, htarget, pure_bind, hmoment,
    pure_bind, h.whole_eq]

theorem RunId.read_eq {id : RunId} (h : S.Shows id.toDatum n) : RunId.read S n = pure id := by
  rw [RunId.read, text_eq h, pure_bind, id.parse?_text, Reading.ofOption_some]

/-- The points in time that an outcome tells. -/
def StepOutcome.moments (o : StepOutcome) : List Instant :=
  o.state.moments ++ o.transitions.map StateTransition.moment

theorem StepOutcome.read_eq {o : StepOutcome} (ht : ∀ t ∈ o.moments, t.IsLegible)
    (h : S.Shows o.toDatum n) : StepOutcome.read S n = pure o := by
  obtain ⟨fs, hfs, h⟩ := h.exists_fields (by simp)
  have hrunId : fs.required 0 "run_id" (RunId.read S) = pure o.runId :=
    h.required_eq 0 (by simp) fun _ ↦ RunId.read_eq
  have hstep : fs.required 1 "step" S.text = pure o.step :=
    h.required_eq 1 (by simp) fun _ ↦ text_eq
  have hhostname : fs.required 2 "hostname" S.text = pure o.hostname :=
    h.required_eq 2 (by simp) fun _ ↦ text_eq
  have hworker : fs.optional S 3 "worker" S.text = pure o.worker :=
    h.optional_eq 3 (by simp) fun _ h ↦ optionOf_eq h (fun _ ↦ rfl) fun _ _ ↦ text_eq
  have hstate : fs.required 4 "state" (StepState.read S) = pure o.state :=
    h.required_eq 4 (by simp) fun _ ↦
      StepState.read_eq fun t h ↦ ht t (List.mem_append_left _ h)
  have htransitions : fs.required 5 "transitions" (S.listOf (StateTransition.read S)) =
      pure o.transitions :=
    h.required_eq 5 (by simp) fun _ h ↦ listOf_eq h fun t h _ ↦
      StateTransition.read_eq (ht _ (List.mem_append_right _ (List.mem_map_of_mem h)))
  rw [StepOutcome.read, hfs, pure_bind, hrunId, pure_bind, hstep, pure_bind, hhostname, pure_bind,
    hworker, pure_bind, hstate, pure_bind, htransitions, pure_bind, h.whole_eq]

/-! ## Depth

No value nests deeper than a few levels, and the only names that tags have to keep are those of the
variants that carry something.
-/

section Fits

variable {named : String → Prop} {room : Nat}

open Datum (Fits)

theorem Worker.fits (w : Worker) : w.toDatum.Fits named (room + 1) :=
  .record (by simp [Fits.text, Fits.flag])

theorem CopyRule.fits (r : CopyRule) : r.toDatum.Fits named (room + 1) :=
  .record (by simp [Fits.text])

theorem textList_fits (texts : List String) :
    (Datum.ofList .text texts).Fits named (room + 1) :=
  .ofList fun _ _ ↦ .text

theorem NetworkAddress.fits (hstatic : named "static") (a : NetworkAddress) :
    a.toDatum.Fits named (room + 1) := by
  cases a with
  | static address => exact .variant hstatic rfl .text
  | noStatic | unknown => exact .text

theorem KvmAttachment.fits (hattached : named "attached") (k : KvmAttachment) :
    k.toDatum.Fits named (room + 2) := by
  cases k with
  | attached switch port => exact .variant hattached rfl (.record (by simp [Fits.text]))
  | notAttached | unknown => exact .text

theorem Host.fits (hstatic : named "static") (hattached : named "attached") (host : Host) :
    host.toDatum.Fits named (room + 3) := by
  refine .record ?_
  simp only [List.forall_mem_cons]
  exact ⟨.text, .ofList fun w _ ↦ w.fits,
    .ofOption (fun rs ↦ .ofList fun r _ ↦ r.fits) host.copies, host.network.fits hstatic,
    host.kvm.fits hattached, .ofOption textList_fits host.automationRoot,
    textList_fits host.launchScript, List.forall_mem_nil _⟩

theorem Dictionary.hostsToDatum_fits (hstatic : named "static") (hattached : named "attached")
    (hosts : Dictionary Host) : hosts.hostsToDatum.Fits named (room + 4) :=
  .entries (Host.fits hstatic hattached) hosts

theorem WorkerEntry.fits (w : WorkerEntry) : w.toDatum.Fits named (room + 1) :=
  .list (by simp [Fits.text, Fits.flag])

theorem CopiesEntry.fits (c : CopiesEntry) : c.toDatum.Fits named (room + 2) := by
  cases c with
  | standard => exact .text
  | rules rs => exact .ofList fun r _ ↦ r.fits

theorem KvmEntry.fits (k : KvmEntry) : k.toDatum.Fits named (room + 1) :=
  .record (by simp [Fits.text])

theorem HostEntry.fits (e : HostEntry) : e.toDatum.Fits named (room + 3) := by
  refine .record ?_
  simp only [List.forall_mem_cons]
  exact ⟨.ofList fun w _ ↦ w.fits, .ofOption CopiesEntry.fits e.copies,
    .ofOption (fun _ ↦ .text) e.ip, .ofOption KvmEntry.fits e.kvm,
    .ofOption textList_fits e.automationRoot, .text, List.forall_mem_nil _⟩

theorem HostTable.fits (t : HostTable) : t.toDatum.Fits named (room + 5) :=
  .record (by simpa only [List.forall_mem_singleton] using .entries HostEntry.fits t.hosts)

theorem StepParams.fits (p : StepParams) : p.toDatum.Fits named (room + 1) := by
  have hoption : ∀ s : Option String, (Datum.ofOption .text s).Fits named room :=
    .ofOption fun _ ↦ .text
  exact .record (by simp [Fits.text, hoption])

theorem InstallReport.fits (r : InstallReport) : r.toDatum.Fits named (room + 2) :=
  .record (by simp [Fits.text, textList_fits])

theorem StepState.fits (hnamed : ∀ name, named name) (s : StepState) :
    s.toDatum.Fits named (room + 2) := by
  cases s with
  | created => exact .text
  | validated | executing | succeeded | failed =>
    exact .variant (hnamed _) rfl
      (.record (by simp [Instant.toDatum, FailureKind.toDatum, Fits.text]))

theorem StateTransition.fits (t : StateTransition) : t.toDatum.Fits named (room + 1) :=
  .record (by simp [Instant.toDatum, Fits.text])

theorem StepOutcome.fits (hnamed : ∀ name, named name) (o : StepOutcome) :
    o.toDatum.Fits named (room + 3) := by
  refine .record ?_
  simp only [List.forall_mem_cons]
  exact ⟨.text, .text, .text, .ofOption (fun _ ↦ .text) o.worker, o.state.fits hnamed,
    .ofList fun t _ ↦ t.fits, List.forall_mem_nil _⟩

end Fits

end BuildFleet
