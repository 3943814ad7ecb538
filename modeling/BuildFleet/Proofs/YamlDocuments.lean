import BuildFleet.Proofs.TypedValues
import BuildFleet.Registry

/-!
# Values written as YAML

A scalar does not say what it is: the same characters are read as a text where a text is wanted, as
an absent value where there may be one, and as whatever their spelling means where nothing is known
about them. The writer decides once whether a text goes without quotes, and has to be right under
all three. Which quotes it takes otherwise makes no difference, so a document is compared with what
was written only as far as texts, tags and the want of quotes go.

## What is left to the text

From a value to its nodes, and from nodes to the value, everything is shown here. Between them lies
the text, with its lines, its indentation and its quotes, and about the text there is one hypothesis
alone: that it is read as a document whose root is like the node that was laid out in it. It can be
evaluated for any value at hand, since both sides are programs.

## Tags

A variant that carries something is written with its name as a tag on what it carries, so a node is
looked at twice, once for the tag and once without it. With a tag of the document's own, a node is
never taken for an absent value, whatever characters it has, and this is the reason why what a
variant carries may look like anything.
-/

namespace BuildFleet

namespace Yaml

/-! ## Texts as scalars -/

namespace Scalar

/-- Scalars with the same text and tag of which both are plain or none is. -/
structure Alike (s t : Scalar) : Prop where
  text : s.text = t.text
  tag : s.tag = t.tag
  plain : s.style = .plain ↔ t.style = .plain

instance (s t : Scalar) : Decidable (s.Alike t) :=
  decidable_of_iff (s.text = t.text ∧ s.tag = t.tag ∧ (s.style = .plain ↔ t.style = .plain))
    ⟨fun h ↦ ⟨h.1, h.2.1, h.2.2⟩, fun h ↦ ⟨h.text, h.tag, h.plain⟩⟩

theorem Alike.eq_of_plain {s t : Scalar} (h : s.Alike t) (ht : t.style = .plain) : s = t := by
  obtain ⟨text, style, tag⟩ := s
  obtain ⟨rfl, rfl, hplain⟩ := h
  cases t
  cases ht
  cases hplain.mpr rfl
  rfl

theorem isSafe_of_plain {s : String} (h : (ofText s).style = .plain) : Plain.isSafe s = true := by
  change Style.ofText s = .plain at h
  rw [Style.ofText] at h
  split at h
  · split at h <;> cases h
  · split at h
    · rename_i hs
      exact (Bool.and_eq_true _ _ ▸ hs).1
    · split at h <;> cases h

/-- A text is only written without quotes if it is no null, truth value or number by its spelling.
-/
theorem meaning_of_plain {s : String} (h : (ofText s).style = .plain) :
    Plain.meaning s = .text := by
  have hsafe := isSafe_of_plain h
  rw [Plain.isSafe, Bool.and_eq_true, beq_iff_eq] at hsafe
  exact hsafe.1

theorem not_isNullWord_of_plain {s : String} (h : (ofText s).style = .plain) :
    (s.isEmpty || Plain.isNullWord s) = false := by
  rw [← Bool.not_eq_true]
  intro hnull
  have hmeaning := meaning_of_plain h
  rw [Plain.meaning, if_pos hnull] at hmeaning
  cases hmeaning

section Alike

variable {s : String} {t : Scalar}

/-- A text that was written is not taken for an absent value. -/
theorem Alike.absent?_eq (h : t.Alike (ofText s)) : t.absent? = some false := by
  by_cases hplain : t.style = .plain
  · have hnull := not_isNullWord_of_plain (h.plain.mp hplain)
    have htext : t.text = s := h.text
    have htag : t.tag = none := h.tag
    rw [absent?, htag, isNull, hplain, htext, hnull]
    rfl
  · rw [absent?, if_pos (by simpa using hplain)]

/-- A text that was written shows itself as that text. -/
theorem Alike.untyped?_eq (h : t.Alike (ofText s)) : t.untyped? = some (.text s) := by
  have htext : t.text = s := h.text
  have htag : t.tag = none := h.tag
  rw [untyped?, htag]
  change t.untypedSpelling? = _
  by_cases hplain : t.style = .plain
  · rw [untypedSpelling?, htext, hplain, meaning_of_plain (h.plain.mp hplain)]
    rfl
  · rw [untypedSpelling?, if_pos (by simpa using hplain), htext]

end Alike

end Scalar

/-! ## Nodes -/

mutual

/-- Whether a node is like another one: the same collections with the same tags, and scalars that
are alike. -/
def Node.isAlike : Node → Node → Bool
  | .scalar s, .scalar t => s.Alike t
  | .sequence tag ms, .sequence tag' ns => tag == tag' && itemsAlike ms ns
  | .mapping tag es, .mapping tag' fs => tag == tag' && entriesAlike es fs
  | _, _ => false

def itemsAlike : List Node → List Node → Bool
  | [], [] => true
  | m :: ms, n :: ns => m.isAlike n && itemsAlike ms ns
  | _, _ => false

/-- Whether entries are alike one by one. -/
def entriesAlike : List (Node × Node) → List (Node × Node) → Bool
  | [], [] => true
  | (k, v) :: es, (l, w) :: fs => k.isAlike l && v.isAlike w && entriesAlike es fs
  | _, _ => false

end

theorem itemsAlike_iff {ms ns : List Node} :
    itemsAlike ms ns ↔ List.Forall₂ (fun m n ↦ m.isAlike n) ms ns := by
  induction ms generalizing ns with
  | nil => cases ns <;> simp [itemsAlike]
  | cons m ms ih => cases ns <;> simp [itemsAlike, ih]

theorem entriesAlike_iff {es fs : List (Node × Node)} :
    entriesAlike es fs ↔
      List.Forall₂ (fun e f ↦ e.1.isAlike f.1 ∧ e.2.isAlike f.2) es fs := by
  induction es generalizing fs with
  | nil => cases fs <;> simp [entriesAlike]
  | cons e es ih => cases fs <;> simp [entriesAlike, ih]

namespace Node

variable {n : Node} {tag : Option Tag}

theorem exists_of_isAlike_scalar {t : Scalar} (h : n.isAlike (.scalar t)) :
    ∃ s, n = .scalar s ∧ s.Alike t := by
  cases n with
  | scalar s => exact ⟨s, rfl, by simpa [isAlike] using h⟩
  | _ => simp [isAlike] at h

theorem eq_of_isAlike_plain {t : Scalar} (h : n.isAlike (.scalar t)) (ht : t.style = .plain) :
    n = .scalar t := by
  obtain ⟨s, rfl, hs⟩ := exists_of_isAlike_scalar h
  rw [hs.eq_of_plain ht]

theorem exists_of_isAlike_sequence {ns : List Node} (h : n.isAlike (.sequence tag ns)) :
    ∃ ms, n = .sequence tag ms ∧ List.Forall₂ (fun m n ↦ m.isAlike n) ms ns := by
  cases n with
  | sequence tag' ms =>
    rw [isAlike, Bool.and_eq_true, beq_iff_eq] at h
    obtain ⟨rfl, h⟩ := h
    exact ⟨ms, rfl, itemsAlike_iff.mp h⟩
  | _ => simp [isAlike] at h

theorem exists_of_isAlike_mapping {fs : List (Node × Node)} (h : n.isAlike (.mapping tag fs)) :
    ∃ es, n = .mapping tag es ∧
      List.Forall₂ (fun e f ↦ e.1.isAlike f.1 ∧ e.2.isAlike f.2) es fs := by
  cases n with
  | mapping tag' es =>
    rw [isAlike, Bool.and_eq_true, beq_iff_eq] at h
    obtain ⟨rfl, h⟩ := h
    exact ⟨es, rfl, entriesAlike_iff.mp h⟩
  | _ => simp [isAlike] at h

end Node

/-- A node with the tag taken off. -/
def Node.untagged : Node → Node
  | .alias id => .alias id
  | .scalar s => .scalar { s with tag := none }
  | .sequence _ items => .sequence none items
  | .mapping _ entries => .mapping none entries

end Yaml

namespace Datum

theorem itemsToYaml_eq_map (items : List Datum) : itemsToYaml items = items.map toYaml := by
  induction items with
  | nil => rfl
  | cons d ds ih => rw [itemsToYaml, ih, List.map_cons]

theorem fieldsToYaml_eq_map (fields : List (String × Datum)) :
    fieldsToYaml fields = fields.map fun f ↦ (.scalar (.ofText f.1), f.2.toYaml) := by
  induction fields with
  | nil => rfl
  | cons f fs ih => rw [fieldsToYaml, ih, List.map_cons]

end Datum

namespace Yaml

open Datum (Fits)

/-- Whether a tag of the document's own keeps a name. -/
def Tag.Keeps (name : String) : Prop := (Tag.own name).name? = some name

section Shows

variable {doc : Document} {n : Node} {room : Nat} {d : Datum}

theorem exists_items {items : List Datum} (h : n.isAlike (Datum.list items).toYaml) :
    ∃ ns, n = .sequence none ns ∧ List.Forall₂ (fun d n ↦ n.isAlike d.toYaml) items ns := by
  rw [Datum.toYaml, Datum.itemsToYaml_eq_map] at h
  obtain ⟨ns, rfl, hns⟩ := Node.exists_of_isAlike_sequence h
  rw [List.forall₂_map_right_iff] at hns
  exact ⟨ns, rfl, hns.flip⟩

theorem exists_entries {fields : List (String × Datum)}
    (h : n.isAlike (Datum.record fields).toYaml) :
    ∃ es, n = .mapping none es ∧ List.Forall₂
      (fun f e ↦ e.1.isAlike (.scalar (.ofText f.1)) ∧ e.2.isAlike f.2.toYaml) fields es := by
  rw [Datum.toYaml, Datum.fieldsToYaml_eq_map] at h
  obtain ⟨es, rfl, hes⟩ := Node.exists_of_isAlike_mapping h
  rw [List.forall₂_map_right_iff] at hes
  exact ⟨es, rfl, hes.flip⟩

/-! ### Without a type

Copy rules are read without a type at first, and so a written tree must show itself also to a reader
that knows nothing of it. For texts this is where a number, a truth value or a null would be taken
for what it looks like, and where the writer takes quotes. -/

theorem untyped_scalar (doc : Document) (r : Nat) (s : Scalar) :
    doc.untyped r (.scalar s) = .ofOption s.untyped? := by
  cases r <;> rfl

/-- A node that is like a written tree shows the tree when it is read without a type, if there is
room for it. -/
theorem untyped_eq {named : String → Prop} (h : d.Fits named room) :
    ∀ (r : Nat) (u : Untyped) (n : Node), room ≤ r → n.isAlike d.toYaml → d.bare? = some u →
      doc.untyped r n = pure u := by
  induction h with
  | null =>
    rintro r u n - hn hu
    cases hu
    rw [Node.eq_of_isAlike_plain hn rfl, untyped_scalar]
    rfl
  | @flag _ b =>
    rintro r u n - hn hu
    cases hu
    cases b <;>
    · rw [Node.eq_of_isAlike_plain hn rfl, untyped_scalar]
      rfl
  | text =>
    rintro r u n - hn hu
    cases hu
    obtain ⟨t, rfl, ht⟩ := Node.exists_of_isAlike_scalar hn
    rw [untyped_scalar, ht.untyped?_eq, Reading.ofOption_some]
  | list _ ih =>
    intro r u n hr hn hu
    obtain ⟨r, rfl⟩ := Nat.exists_eq_add_of_le' (Nat.le_of_add_left_le hr)
    obtain ⟨us, hus, rfl⟩ := Option.map_eq_some_iff.mp hu
    obtain ⟨ns, rfl, hns⟩ := exists_items hn
    have hall := (List.forall₂_and_left _ us).mpr ⟨ih, Datum.forall₂_of_bareItems? hus⟩
    have hread : ns.mapM (doc.untyped r) = pure us :=
      Reading.mapM_eq (forall₂_of_common hall hns fun d u n hu hn ↦
        hu.1 r u n (Nat.le_of_add_le_add_right hr) hn hu.2)
    change (do return .list (← ns.mapM (doc.untyped r))) = (pure (.list us) : Reading Untyped)
    rw [hread, pure_bind]
  | record _ ih =>
    intro r u n hr hn hu
    obtain ⟨r, rfl⟩ := Nat.exists_eq_add_of_le' (Nat.le_of_add_left_le hr)
    obtain ⟨us, hus, rfl⟩ := Option.map_eq_some_iff.mp hu
    obtain ⟨es, rfl, hes⟩ := exists_entries hn
    have hall := (List.forall₂_and_left _ us).mpr ⟨ih, Datum.forall₂_of_bareFields? hus⟩
    have hread : es.mapM (Document.untypedEntry (doc.untyped r)) = pure us := by
      refine Reading.mapM_eq (forall₂_of_common hall hes fun f u e hu he ↦ ?_)
      obtain ⟨hih, hname, hu⟩ := hu
      obtain ⟨k, v⟩ := e
      obtain ⟨hk, hv⟩ := he
      -- a key is read without a type as well, and might be taken for a number
      obtain ⟨t, rfl, ht⟩ := Node.exists_of_isAlike_scalar hk
      rw [Document.untypedEntry, hih r u.2 v (Nat.le_of_add_le_add_right hr) hv hu,
        untyped_scalar, ht.untyped?_eq, Reading.ofOption_some, ← hname]
      rfl
    change (do return .map (← es.mapM (Document.untypedEntry (doc.untyped r)))) =
      (pure (.map us) : Reading Untyped)
    rw [hread, pure_bind]
  | variant =>
    intro r u n _ _ hu
    cases hu

/-! ### With a type -/

theorem own_ne_null (name : String) : Tag.own name ≠ .standard "null" := by
  intro h
  have hown : (Tag.own name).isOwn = true := by
    rw [Tag.own, Tag.ofText, Tag.isOwn, String.toList_append]
    rfl
  rw [h] at hown
  exact absurd hown (by decide)

theorem choice_eq_of_tagged {name : String} {m : Node} (depth : Nat) (hname : Tag.Keeps name)
    (hm : m.untagged = m) (h : n.isAlike (m.tagged (.own name))) :
    doc.choice ⟨depth, n⟩ = pure (name, some ⟨depth + 1, n.untagged⟩) ∧ n.untagged.isAlike m := by
  have hname : (Tag.own name).name? = some name := hname
  rw [← hm]
  rcases m with id | s | ⟨tag, items⟩ | ⟨tag, entries⟩
  · cases n <;> cases h
  · obtain ⟨t, rfl, ht⟩ := Node.exists_of_isAlike_scalar h
    have htag : t.tag = some (.own name) := ht.tag
    constructor
    · simp only [Document.choice, Document.resolve, pure_bind, htag, Option.bind_some, hname,
        Node.untagged]
    · have halike : Scalar.Alike { t with tag := none } { s with tag := none } :=
        ⟨ht.text, rfl, ht.plain⟩
      exact decide_eq_true halike
  · obtain ⟨ms, rfl, hms⟩ := Node.exists_of_isAlike_sequence h
    constructor
    · simp only [Document.choice, Document.resolve, pure_bind, Option.bind_some, hname,
        Reading.ofOption_some, Node.untagged]
    · exact itemsAlike_iff.mpr hms
  · obtain ⟨es, rfl, hes⟩ := Node.exists_of_isAlike_mapping h
    constructor
    · simp only [Document.choice, Document.resolve, pure_bind, Option.bind_some, hname,
        Reading.ofOption_some, Node.untagged]
    · exact entriesAlike_iff.mpr hes

theorem untagged_toYaml (h : d.isVariant = false) : d.toYaml.untagged = d.toYaml := by
  cases d with
  | flag b => cases b <;> rfl
  | variant => cases h
  | null | text | list | record => rfl

theorem optional_scalar (doc : Document) (depth : Nat) {s : Scalar} {b : Bool}
    (hs : s.absent? = some b) :
    doc.optional ⟨depth, .scalar s⟩ = pure (if b then none else some ⟨depth, .scalar s⟩) := by
  change (do
    let absent ← Reading.ofOption s.absent?
    return if absent then none else some (⟨depth, .scalar s⟩ : Place)) = _
  rw [hs, Reading.ofOption_some, pure_bind]

theorem optional_eq_of_tagged {name : String} {m : Node} (doc : Document) (depth : Nat)
    (h : n.isAlike (m.tagged (.own name))) :
    doc.optional ⟨depth, n⟩ = pure (some ⟨depth, n⟩) := by
  rcases m with id | s | ⟨tag, items⟩ | ⟨tag, entries⟩
  · cases n <;> cases h
  · obtain ⟨t, rfl, ht⟩ := Node.exists_of_isAlike_scalar h
    have htag : t.tag = some (.own name) := ht.tag
    have habsent : t.absent? = some false := by
      simp [Scalar.absent?, htag, own_ne_null]
    exact optional_scalar doc depth habsent
  · obtain ⟨ms, rfl, -⟩ := Node.exists_of_isAlike_sequence h
    rfl
  · obtain ⟨es, rfl, -⟩ := Node.exists_of_isAlike_mapping h
    rfl

theorem optional_eq (h : d.Fits Tag.Keeps room) (depth : Nat) (hn : n.isAlike d.toYaml) :
    doc.optional ⟨depth, n⟩ = pure (if d.isNull then none else some ⟨depth, n⟩) := by
  cases h with
  | null =>
    rw [Node.eq_of_isAlike_plain hn rfl]
    exact optional_scalar doc depth rfl
  | @flag _ b =>
    cases b <;>
    · rw [Node.eq_of_isAlike_plain hn rfl]
      exact optional_scalar doc depth rfl
  | text =>
    obtain ⟨t, rfl, ht⟩ := Node.exists_of_isAlike_scalar hn
    exact optional_scalar doc depth ht.absent?_eq
  | list h =>
    obtain ⟨ns, rfl, -⟩ := exists_items hn
    rfl
  | record h =>
    obtain ⟨es, rfl, -⟩ := exists_entries hn
    rfl
  | variant hname hpayload h => exact optional_eq_of_tagged doc depth hn

theorem exists_keyed (doc : Document) (depth : Nat) {fields : List (String × Datum)}
    {es : List (Node × Node)} (h : List.Forall₂
      (fun f e ↦ e.1.isAlike (.scalar (.ofText f.1)) ∧ e.2.isAlike f.2.toYaml) fields es) :
    ∃ xs, doc.keyed ⟨depth, .mapping none es⟩ = pure xs ∧ List.Forall₂
      (fun f x ↦ f.1 = x.1 ∧ x.2.depth = depth + 1 ∧ x.2.node.isAlike f.2.toYaml) fields xs := by
  change ∃ xs, es.mapM (fun e ↦ return ((← doc.scalar e.1).text, (⟨depth + 1, e.2⟩ : Place))) =
    pure xs ∧ _
  induction h with
  | nil => exact ⟨[], rfl, .nil⟩
  | @cons f e _ _ he _ ih =>
    obtain ⟨xs, hxs, hall⟩ := ih
    obtain ⟨k, v⟩ := e
    obtain ⟨hk, hv⟩ := he
    obtain ⟨t, rfl, ht⟩ := Node.exists_of_isAlike_scalar hk
    have htext : t.text = f.1 := ht.text
    refine ⟨(f.1, ⟨depth + 1, v⟩) :: xs, ?_, .cons ⟨rfl, rfl, hv⟩ hall⟩
    rw [List.mapM_cons, hxs, ← htext]
    rfl

/-- A node that is like a written tree shows the tree, if there is room for it. -/
theorem shows_toYaml (h : d.Fits Tag.Keeps room) :
    ∀ (depth : Nat) (n : Node), depth + room ≤ depthLimit → n.isAlike d.toYaml →
      doc.source.Shows d ⟨depth, n⟩ := by
  -- being absent and being read without a type are questions to every kind of tree
  have hface : ∀ {d : Datum} {room : Nat} {depth : Nat} {n : Node}, d.Fits Tag.Keeps room →
      depth + room ≤ depthLimit → n.isAlike d.toYaml → doc.source.Faces d ⟨depth, n⟩ :=
    fun h hroom hn ↦ ⟨optional_eq h _ hn, fun u hu ↦
      untyped_eq h _ u _ (Nat.le_sub_of_add_le' hroom) hn hu⟩
  induction h with
  | null => exact fun _ _ hroom hn ↦ .null (hface .null hroom hn)
  | @flag _ b =>
    intro depth n hroom hn
    refine .flag (hface .flag hroom hn) ?_
    cases b <;>
    · rw [Node.eq_of_isAlike_plain hn rfl]
      rfl
  | @text _ s =>
    intro depth n hroom hn
    have hf := hface .text hroom hn
    obtain ⟨t, rfl, ht⟩ := Node.exists_of_isAlike_scalar hn
    have htext : t.text = s := ht.text
    have htag : t.tag = none := ht.tag
    refine .text hf ?_ ?_
    · rw [← htext]
      rfl
    · change doc.choice ⟨depth, .scalar t⟩ = _
      simp only [Document.choice, Document.resolve, pure_bind, htag, Option.bind_none, htext]
  | list h ih =>
    intro depth n hroom hn
    have hf := hface (.list h) hroom hn
    obtain ⟨ns, rfl, hns⟩ := exists_items hn
    refine .list hf rfl ?_
    rw [List.forall₂_map_right_iff]
    have hall := (List.forall₂_and_left _ ns).mpr ⟨ih, hns⟩
    exact hall.imp fun d n h ↦ h.1 (depth + 1) n (by omega) h.2
  | record h ih =>
    intro depth n hroom hn
    have hf := hface (.record h) hroom hn
    obtain ⟨es, rfl, hes⟩ := exists_entries hn
    obtain ⟨xs, hxs, hpairs⟩ := exists_keyed doc depth hes
    have hall := (List.forall₂_and_left _ xs).mpr ⟨ih, hpairs⟩
    have hfields : (do return .keyed (← doc.keyed ⟨depth, .mapping none es⟩)) =
        (pure (.keyed xs) : Reading (Fields Place)) := by rw [hxs, pure_bind]
    refine .record_of_pairs hf hxs hfields hfields (hall.imp fun f x h ↦ ?_)
    obtain ⟨name, ⟨depth', n⟩⟩ := x
    obtain ⟨hih, hname, rfl, hx⟩ := h
    exact ⟨hname, hih (depth + 1) n (by omega) hx⟩
  | variant hname hpayload h ih =>
    intro depth n hroom hn
    obtain ⟨hchoice, halike⟩ := choice_eq_of_tagged depth hname (untagged_toYaml hpayload) hn
    exact .variant (hface (.variant hname hpayload h) hroom hn) hchoice
      (ih (depth + 1) _ (by omega) halike)

end Shows

/-! ## From texts -/

/-- Whether a text is read as a document whose root is like a node. -/
def holds (text : String) (n : Node) : Bool :=
  (Document.parse? text).any fun doc ↦ doc.root.any (·.isAlike n)

/-- What a reader makes of every node that shows a tree, it makes of every text that holds the tree
as it was written. -/
theorem readText?_eq_of_holds {α : Type} {read : {ν : Type} → Source ν → ν → Reading α} {a : α}
    {text : String} {d : Datum} {room : Nat} (htext : holds text d.toYaml)
    (hfits : d.Fits Tag.Keeps room) (hroom : room ≤ depthLimit)
    (hread : ∀ {doc : Document} {p : Place}, doc.source.Shows d p →
      read doc.source p = pure a) :
    readText? read text = some a := by
  rw [holds, Option.any_eq_true] at htext
  obtain ⟨doc, hdoc, hroot⟩ := htext
  rw [Option.any_eq_true] at hroot
  obtain ⟨n, hn, halike⟩ := hroot
  have hplace : doc.rootPlace = ⟨0, n⟩ := by
    rw [Document.rootPlace, hn, Option.getD_some]
  have hshows : read doc.source ⟨0, n⟩ = pure a :=
    hread (shows_toYaml hfits 0 n (by omega) halike)
  rw [readText?, hdoc, Option.bind_some, Document.read?, hplace, hshows]
  rfl

end Yaml

end BuildFleet
