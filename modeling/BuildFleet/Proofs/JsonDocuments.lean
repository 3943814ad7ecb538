import BuildFleet.Proofs.JsonText
import BuildFleet.Proofs.TypedValues
import BuildFleet.Registry

/-!
# Values written as JSON

A JSON document shows the tree that it was written from, as long as the tree is nested less deep
than an untyped reading goes. With the texts read back as JSON values, every type is then read back
from its texts in both layouts.

## The two halves

Texts and types meet in the tree. What is known of texts is said of JSON values without a word about
types, and what is known of types is said of any format that shows trees. The lemmas here join the
two: a value of JSON that was written from a tree is legible, since there are no numbers in trees
and so no numeral that a reader could take for another one, and it shows the tree that it was
written from. A new type therefore needs no word here. It is enough that its reader is known to give
back what is shown, which is said of each type beside all the others.

Copy rules are the one place at which a reader looks at a value before it knows what it is. For them
the same is shown of the untyped reading, and here it counts how deep the tree is nested.
-/

namespace BuildFleet

namespace Datum

variable {named : String → Prop} {room : Nat} {d : Datum}

theorem itemsToJson_eq_map (items : List Datum) : itemsToJson items = items.map toJson := by
  induction items with
  | nil => rfl
  | cons d ds ih => rw [itemsToJson, ih, List.map_cons]

theorem fieldsToJson_eq_map (fields : List (String × Datum)) :
    fieldsToJson fields = fields.map fun f ↦ (f.1, f.2.toJson) := by
  induction fields with
  | nil => rfl
  | cons f fs ih => rw [fieldsToJson, ih, List.map_cons]

/-- There are no numbers in trees, so there is nothing in them that a text could not show. -/
theorem Fits.legible_toJson (h : d.Fits named room) : d.toJson.Legible := by
  induction h with
  | null => exact .null
  | flag => exact .bool _
  | text => exact .text _
  | list _ ih =>
    refine .array fun v hv ↦ ?_
    rw [itemsToJson_eq_map] at hv
    obtain ⟨d, hd, rfl⟩ := List.mem_map.mp hv
    exact ih d hd
  | record _ ih =>
    refine .object fun m hm ↦ ?_
    rw [fieldsToJson_eq_map] at hm
    obtain ⟨f, hf, rfl⟩ := List.mem_map.mp hm
    exact ih f hf
  | variant _ _ _ ih => exact .object (by simpa using ih)

end Datum

namespace Json

open Datum (toJson bare? Fits)

variable {named : String → Prop} {room : Nat} {d : Datum} {positional : Bool}

/-! ## Without a type -/

theorem untypedItems?_eq {room : Nat} {vs : List Json} {us : List Untyped}
    (h : List.Forall₂ (fun v u ↦ untyped? room v = some u) vs us) :
    untypedItems? room vs = some us := by
  induction h with
  | nil => rfl
  | cons h _ ih => rw [untypedItems?, h, ih, Option.bind_some, Option.map_some]

theorem untypedMembers?_eq {room : Nat} {ms : List (String × Json)}
    {us : List (Untyped × Untyped)}
    (h : List.Forall₂ (fun m u ↦ u.1 = .text m.1 ∧ untyped? room m.2 = some u.2) ms us) :
    untypedMembers? room ms = some us := by
  induction h with
  | nil => rfl
  | cons h _ ih =>
    rw [untypedMembers?, h.2, ih, Option.bind_some, Option.map_some, ← h.1]

/-- Read without a type, a tree shows what it is, if the format has room for it. -/
theorem untyped?_toJson (h : d.Fits named room) :
    ∀ (r : Nat) (u : Untyped), room ≤ r → d.bare? = some u → d.toJson.untyped? r = some u := by
  induction h with
  | null | flag | text =>
    rintro r u - hu
    cases hu
    rfl
  | list _ ih =>
    intro r u hr hu
    obtain ⟨r, rfl⟩ := Nat.exists_eq_add_of_le' (Nat.le_of_add_left_le hr)
    obtain ⟨us, hus, rfl⟩ := Option.map_eq_some_iff.mp hu
    have hall := (List.forall₂_and_left _ us).mpr ⟨ih, Datum.forall₂_of_bareItems? hus⟩
    rw [toJson, Datum.itemsToJson_eq_map, untyped?, untypedItems?_eq, Option.map_some]
    rw [List.forall₂_map_left_iff]
    exact hall.imp fun d u h ↦ h.1 r u (Nat.le_of_add_le_add_right hr) h.2
  | record _ ih =>
    intro r u hr hu
    obtain ⟨r, rfl⟩ := Nat.exists_eq_add_of_le' (Nat.le_of_add_left_le hr)
    obtain ⟨us, hus, rfl⟩ := Option.map_eq_some_iff.mp hu
    have hall := (List.forall₂_and_left _ us).mpr ⟨ih, Datum.forall₂_of_bareFields? hus⟩
    rw [toJson, Datum.fieldsToJson_eq_map, untyped?, untypedMembers?_eq, Option.map_some]
    rw [List.forall₂_map_left_iff]
    exact hall.imp fun f u h ↦ ⟨h.2.1, h.1 r u.2 (Nat.le_of_add_le_add_right hr) h.2.2⟩
  | variant =>
    intro r u _ hu
    cases hu

/-! ## With a type -/

theorem shows_toJson (h : d.Fits named room) :
    ∀ depth, depth + room < depthLimit → (source positional).Shows d ⟨depth, d.toJson⟩ := by
  -- being absent and being read without a type are questions to every kind of tree
  have hface : ∀ {d : Datum} {room : Nat}, d.Fits named room → ∀ depth, depth + room < depthLimit →
      (source positional).Faces d ⟨depth, d.toJson⟩ := by
    intro d room h depth hroom
    refine ⟨?_, fun u hu ↦ ?_⟩
    · cases d <;> rfl
    · change Reading.ofOption (d.toJson.untyped? (depthLimit - 1 - depth)) = pure u
      rw [untyped?_toJson h _ u (by omega) hu, Reading.ofOption_some]
  induction h with
  | null => exact fun depth hroom ↦ .null (hface .null depth hroom)
  | flag => exact fun depth hroom ↦ .flag (hface .flag depth hroom) rfl
  | text => exact fun depth hroom ↦ .text (hface .text depth hroom) rfl rfl
  | @list room items h ih =>
    intro depth hroom
    refine .list (hface (.list h) depth hroom) rfl ?_
    rw [Datum.itemsToJson_eq_map, List.map_map, List.forall₂_map_right_iff, List.forall₂_same]
    exact fun d hd ↦ ih d hd (depth + 1) (by omega)
  | @record room fields h ih =>
    intro depth hroom
    have hmembers : (Datum.record fields).toJson =
        .object (fields.map fun f ↦ (f.1, f.2.toJson)) := by
      rw [toJson, Datum.fieldsToJson_eq_map]
    have hf := hface (.record h) depth hroom
    rw [hmembers] at hf ⊢
    refine .record_of_pairs hf rfl rfl (by cases positional <;> rfl) ?_
    rw [List.map_map, List.forall₂_map_right_iff, List.forall₂_same]
    exact fun f hf ↦ ⟨rfl, ih f hf (depth + 1) (by omega)⟩
  | variant hname hpayload h ih =>
    intro depth hroom
    exact .variant (hface (.variant hname hpayload h) depth hroom) rfl (ih (depth + 1) (by omega))

/-! ## From texts -/

variable {α : Type}

/-- Whether a reader makes a value of the texts of a tree, in both layouts. -/
def ReadsBack (read : {ν : Type} → Source ν → ν → Reading α) (d : Datum) (a : α) : Prop :=
  readText? read d.toJson.compact = some a ∧ readText? read d.toJson.pretty = some a

theorem ReadsBack.of_shows {read : {ν : Type} → Source ν → ν → Reading α} {a : α}
    (hfits : d.Fits named room) (hroom : room < depthLimit)
    (hread : ∀ {p : Place}, (source true).Shows d p → read (source true) p = pure a) :
    ReadsBack read d a := by
  have hvalue : d.toJson.read? read true = some a := by
    rw [read?, hread (shows_toJson hfits 0 (by omega))]
    rfl
  constructor
  · rw [readText?, hfits.legible_toJson.parse?_compact, Option.bind_some, hvalue]
  · rw [readText?, hfits.legible_toJson.parse?_pretty, Option.bind_some, hvalue]

end Json

abbrev Json.IsKept (_ : String) : Prop := True

theorem Dictionary.hosts_read_back (hosts : Dictionary Host) :
    Json.ReadsBack Dictionary.readHosts hosts.hostsToDatum hosts := by
  have hfits : hosts.hostsToDatum.Fits Json.IsKept 4 := hosts.hostsToDatum_fits trivial trivial
  exact .of_shows hfits (by decide) Dictionary.readHosts_eq

/-- Every value that the program writes as JSON is read back from its text as the same value, from
the compact text and from the one with a line for each item. So it is for the parts where a text
could be taken for something else: copy rules that are absent, the standard set or a list, and
variants with and without a text in them. What knows points in time is read back if the texts of
these are. -/
theorem Json.texts_read_back :
    (∀ t : HostTable, ReadsBack HostTable.read t.toDatum t) ∧
    (∀ hosts : Dictionary Host, ReadsBack Dictionary.readHosts hosts.hostsToDatum hosts) ∧
    (∀ r : Registry, readText? Dictionary.readHosts r.toJson = some r.hosts) ∧
    (∀ c : Option CopiesEntry, ReadsBack (fun S ↦ S.optionOf (CopiesEntry.read S))
      (.ofOption CopiesEntry.toDatum c) c) ∧
    (∀ a : NetworkAddress, ReadsBack NetworkAddress.read a.toDatum a) ∧
    (∀ k : KvmAttachment, ReadsBack KvmAttachment.read k.toDatum k) ∧
    (∀ p : StepParams, ReadsBack StepParams.read p.toDatum p) ∧
    (∀ r : InstallReport, ReadsBack InstallReport.read r.toDatum r) ∧
    (∀ s : StepState, (∀ t ∈ s.moments, t.IsLegible) → ReadsBack StepState.read s.toDatum s) ∧
    ∀ o : StepOutcome, (∀ t ∈ o.moments, t.IsLegible) →
      ReadsBack StepOutcome.read o.toDatum o := by
  refine ⟨fun t ↦ ?table, Dictionary.hosts_read_back, fun r ↦ (r.hosts.hosts_read_back).2,
    fun c ↦ ?copies, fun a ↦ ?address, fun k ↦ ?switch, fun p ↦ ?params, fun r ↦ ?report,
    fun s ht ↦ ?state, fun o ht ↦ ?outcome⟩
  case table =>
    have hfits : t.toDatum.Fits IsKept 5 := t.fits
    exact .of_shows hfits (by decide) HostTable.read_eq
  case copies =>
    have hfits : (Datum.ofOption CopiesEntry.toDatum c).Fits IsKept 2 :=
      .ofOption CopiesEntry.fits c
    exact .of_shows hfits (by decide) fun h ↦
      h.optionOf_eq CopiesEntry.isNull_toDatum fun _ _ ↦ CopiesEntry.read_eq
  case address =>
    have hfits : a.toDatum.Fits IsKept 1 := a.fits trivial
    exact .of_shows hfits (by decide) NetworkAddress.read_eq
  case switch =>
    have hfits : k.toDatum.Fits IsKept 2 := k.fits trivial
    exact .of_shows hfits (by decide) KvmAttachment.read_eq
  case params =>
    have hfits : p.toDatum.Fits IsKept 1 := p.fits
    exact .of_shows hfits (by decide) StepParams.read_eq
  case report =>
    have hfits : r.toDatum.Fits IsKept 2 := r.fits
    exact .of_shows hfits (by decide) InstallReport.read_eq
  case state =>
    have hfits : s.toDatum.Fits IsKept 2 := s.fits fun _ ↦ trivial
    exact .of_shows hfits (by decide) (StepState.read_eq ht)
  case outcome =>
    have hfits : o.toDatum.Fits IsKept 3 := o.fits fun _ ↦ trivial
    exact .of_shows hfits (by decide) (StepOutcome.read_eq ht)

/-- The outcome of an install that was rejected, with a worker whose name is full of characters to
be escaped. -/
theorem Json.texts_read_back_rejection :
    let now : Instant := ⟨1700000000, 123000000⟩
    let o : StepOutcome :=
      { runId := RunId.random 7, step := "android_install", hostname := "null"
        worker := some "\"a\x01\n\\"
        state := .failed .installFailure "Install failed: é" now
        transitions := [⟨"Created", "Failed", now⟩] }
    (∀ t ∈ o.moments, t.IsLegible) ∧ ReadsBack StepOutcome.read o.toDatum o := by
  intro now o
  have ht : ∀ t ∈ o.moments, t.IsLegible := by decide +kernel
  obtain ⟨-, -, -, -, -, -, -, -, -, houtcome⟩ := Json.texts_read_back
  exact ⟨ht, houtcome o ht⟩

end BuildFleet
