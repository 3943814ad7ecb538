import BuildFleet.Proofs.RearrangedTables
import BuildFleet.Proofs.YamlDocuments

/-!
# YAML documents that are written in another order

A document can be rearranged without changing the table in it: hosts may change places, fields may
change places inside an entry, and keys that name no field may be added to the document, to its
entries and to a switch. What may be done to a node depends on the part of the table that it is, so
the relation between a document and a rearranged one is indexed by the part. Items of a sequence
stay where they are.

An alias is a node of its own, and a rearrangement moves it like any other. Its number may change on
the way, since anchors are numbered in the order of the text. So the relation is given which numbers
correspond, and what they stand for has to be related in its turn; an anchor may be used for several
parts. The relation is about trees and not about readings: an alias that leads back to where it
stands is related to an alias that does so too, and both are read in vain.

A rearranged document is never announced by fewer events, so that at least as many references may be
followed in it. That is the only way in which additions can make a difference: they may allow a
document to be read that was refused for its references. A table that has been read is read again.
-/

namespace BuildFleet

namespace Yaml

def Node.text? : Node → Option String
  | .scalar s => some s.text
  | _ => none

/-- The text of a key, which is a scalar or stands for one. -/
def Document.keyText? (d : Document) : Node → Option String
  | .alias id => (d.anchors.lookup id).bind Node.text?
  | n => n.text?

/-- What a node stands for under a key of a part of a table. -/
def Document.partUnder (d : Document) (part : TablePart) (key : Node) : TablePart :=
  (d.keyText? key).elim .value part.inner

theorem Document.partUnder_value (d : Document) (key : Node) :
    d.partUnder .value key = .value := by
  rw [partUnder]
  cases d.keyText? key <;> rfl

theorem Document.inEntry_partUnder (d : Document) {part : TablePart} (h : part.inEntry)
    (key : Node) : (d.partUnder part key).inEntry := by
  rw [partUnder]
  cases d.keyText? key with
  | none => rfl
  | some s => exact part.inEntry_inner h s

/-- An entry that may be added to a part of a table: a scalar under an unknown key. -/
def IsAddition (part : TablePart) (e : Node × Node) : Prop :=
  ∃ s t : Scalar, e = (.scalar s, .scalar t) ∧ part.Unknown s.text

/-- A node as a part of a table, and the node that it becomes when the document is rearranged. The
entries of a mapping may come in another order and have additions among them. The names of hosts
have to be different, since of those with one name the last one counts. Where nothing is written for
the document or for an entry, there may be additions alone. -/
inductive Node.Rearranges (d : Document) (corresponds : TablePart → Nat → Nat → Prop) :
    TablePart → Node → Node → Prop
  | reference {part : TablePart} {i j : Nat} (h : corresponds part i j) :
    Rearranges d corresponds part (.alias i) (.alias j)
  | scalar {part : TablePart} (s : Scalar) :
    Rearranges d corresponds part (.scalar s) (.scalar s)
  | sequence {part : TablePart} {tag : Option Tag} {ms ns : List Node}
    (length : ms.length = ns.length)
    (items : ∀ p ∈ ms.zip ns, Rearranges d corresponds .value p.1 p.2) :
    Rearranges d corresponds part (.sequence tag ms) (.sequence tag ns)
  | mapping {part : TablePart} {tag : Option Tag} {es ms ns fs : List (Node × Node)}
    (distinct : part = .hosts → (es.map fun e ↦ d.keyText? e.1).Nodup)
    (length : es.length = ms.length)
    (keys : ∀ p ∈ es.zip ms, Rearranges d corresponds .value p.1.1 p.2.1)
    (values : ∀ p ∈ es.zip ms, Rearranges d corresponds (d.partUnder part p.1.1) p.1.2 p.2.2)
    (additions : ∀ e ∈ ns, IsAddition part e)
    (order : (ms ++ ns).Perm fs) :
    Rearranges d corresponds part (.mapping tag es) (.mapping tag fs)
  | nothing {part : TablePart} {s : Scalar} {tag : Option Tag} {ns : List (Node × Node)}
    (hs : s.isNothing) (hpart : part = .table ∨ part = .entry)
    (additions : ∀ e ∈ ns, IsAddition part e) :
    Rearranges d corresponds part (.scalar s) (.mapping tag ns)

theorem Node.Rearranges.of_entries {d : Document} {corresponds : TablePart → Nat → Nat → Prop}
    {part : TablePart} {tag : Option Tag} {es ns fs : List (Node × Node)}
    (ms : List (Node × Node)) (distinct : part = .hosts → (es.map fun e ↦ d.keyText? e.1).Nodup)
    (h : List.Forall₂ (fun e m ↦ e.1.Rearranges d corresponds .value m.1 ∧
      e.2.Rearranges d corresponds (d.partUnder part e.1) m.2) es ms)
    (additions : ∀ e ∈ ns, IsAddition part e) (order : (ms ++ ns).Perm fs) :
    Node.Rearranges d corresponds part (.mapping tag es) (.mapping tag fs) :=
  .mapping distinct h.length_eq (fun _ hp ↦ (List.forall₂_zip h hp).1)
    (fun _ hp ↦ (List.forall₂_zip h hp).2) additions order

/-- The entries of a mapping and of the rearranged one, in some order. -/
theorem Node.Rearranges.reorders {d : Document} {corresponds : TablePart → Nat → Nat → Prop}
    {part : TablePart} {es ms ns fs : List (Node × Node)} (length : es.length = ms.length)
    (keys : ∀ p ∈ es.zip ms, p.1.1.Rearranges d corresponds .value p.2.1)
    (values : ∀ p ∈ es.zip ms, p.1.2.Rearranges d corresponds (d.partUnder part p.1.1) p.2.2)
    (additions : ∀ e ∈ ns, IsAddition part e) (order : (ms ++ ns).Perm fs) :
    Reorders (fun e f ↦ e.1.Rearranges d corresponds .value f.1 ∧
      e.2.Rearranges d corresponds (d.partUnder part e.1) f.2) (IsAddition part) es fs :=
  ⟨ms, ns, List.forall₂_iff_zip.mpr ⟨length, fun hef ↦ ⟨keys _ hef, values _ hef⟩⟩, additions,
    order⟩

/-- A document and what it becomes when it is rearranged, if the numbers of anchors correspond to
each other in a certain way. -/
structure Document.Rearranges (d d' : Document) (corresponds : TablePart → Nat → Nat → Prop) :
    Prop where
  root : Node.Rearranges d corresponds .table d.rootPlace.node d'.rootPlace.node
  rooted : d.root.isSome → d'.root.isSome
  anchors : ∀ {part i j}, corresponds part i j →
    Option.Rel (Node.Rearranges d corresponds part) (d.anchors.lookup i) (d'.anchors.lookup j)

/-! ## Lists of hosts

The relation is a general one, and whoever rearranges a document by hand thinks of less: of a list
of hosts, each with its fields, put into another order. That such lists are rearranged documents is
shown here, with everything inside a field left as it is, which needs that a node is a rearrangement
of itself whatever part it is. -/

/-- The correspondence of numbers in two documents of which the entries have the same aliases. -/
def SameNumber (part : TablePart) (i j : Nat) : Prop := part.inEntry ∧ i = j

-- The induction is mutual, as a node has lists of nodes in it. What is inside an entry is inside it
-- all the way down, so that no names of hosts are met.
mutual

theorem Node.Rearranges.refl {d : Document} : (n : Node) → ∀ {part : TablePart}, part.inEntry →
    n.Rearranges d SameNumber part n
  | .alias _, _, h => .reference ⟨h, rfl⟩
  | .scalar s, _, _ => .scalar s
  | .sequence _ ms, _, _ => .sequence rfl fun _ hp ↦ List.forall₂_zip (refl_items ms) hp
  | .mapping _ es, _, h => .of_entries es (fun hhosts ↦ by subst hhosts; cases h)
      (refl_entries es h) (fun _ he ↦ (List.not_mem_nil he).elim) (by rw [List.append_nil])

theorem Node.Rearranges.refl_items {d : Document} : (ms : List Node) →
    List.Forall₂ (fun m n ↦ m.Rearranges d SameNumber .value n) ms ms
  | [] => .nil
  | m :: ms => .cons (refl m rfl) (refl_items ms)

theorem Node.Rearranges.refl_entries {d : Document} : (es : List (Node × Node)) →
    ∀ {part : TablePart}, part.inEntry →
      List.Forall₂ (fun e f ↦ e.1.Rearranges d SameNumber .value f.1 ∧
        e.2.Rearranges d SameNumber (d.partUnder part e.1) f.2) es es
  | [], _, _ => .nil
  | (k, v) :: es, _, h =>
    .cons ⟨refl k rfl, refl v (d.inEntry_partUnder h k)⟩ (refl_entries es h)

end

/-- The mapping of hosts, each with the fields under its name. -/
def Node.ofHosts (hosts : List (Scalar × List (Node × Node))) : Node :=
  .mapping none (hosts.map fun h ↦ (.scalar h.1, .mapping none h.2))

def Document.ofEntries (anchors : List (Nat × Node)) (es : List (Node × Node)) : Document :=
  ⟨some (.mapping none es), anchors⟩

theorem Node.Rearranges.of_fields {d : Document} {es fs : List (Node × Node)}
    (h : Reorders Eq (IsAddition .entry) es fs) :
    Node.Rearranges d SameNumber .entry (.mapping none es) (.mapping none fs) := by
  obtain ⟨ms, ns, hms, hns, hperm⟩ := h
  rw [List.forall₂_eq_eq_eq] at hms
  subst hms
  exact .of_entries es (fun hpart ↦ absurd hpart (by decide)) (refl_entries es rfl) hns hperm

theorem Node.Rearranges.of_hosts {d : Document} {hosts hosts' : List (Scalar × List (Node × Node))}
    (distinct : (hosts.map fun h ↦ h.1.text).Nodup)
    (h : Reorders (fun h h' ↦ h.1 = h'.1 ∧ Reorders Eq (IsAddition .entry) h.2 h'.2)
      (fun _ ↦ False) hosts hosts') :
    Node.Rearranges d SameNumber .hosts (.ofHosts hosts) (.ofHosts hosts') := by
  obtain ⟨ms, hall, hperm⟩ := h.exists_forall₂
  refine .of_entries (ms.map fun h ↦ (.scalar h.1, .mapping none h.2)) (fun _ ↦ ?distinct) ?hosts
    (fun _ he ↦ (List.not_mem_nil he).elim) ?order
  case distinct =>
    have hkeys := distinct.map fun _ _ h ↦ Option.some.inj h
    rw [List.map_map] at hkeys ⊢
    exact hkeys
  case hosts =>
    rw [List.forall₂_map_left_iff, List.forall₂_map_right_iff]
    exact hall.imp fun h _ hh ↦ ⟨hh.1 ▸ .scalar h.1, .of_fields hh.2⟩
  case order =>
    rw [List.append_nil]
    exact hperm.map _

theorem Document.rearranges_of_hosts {anchors : List (Nat × Node)} {key : Scalar}
    {hosts hosts' : List (Scalar × List (Node × Node))} {es : List (Node × Node)}
    (hkey : key.text = "hosts") (distinct : (hosts.map fun h ↦ h.1.text).Nodup)
    (hhosts : Reorders (fun h h' ↦ h.1 = h'.1 ∧ Reorders Eq (IsAddition .entry) h.2 h'.2)
      (fun _ ↦ False) hosts hosts')
    (hroot : Reorders Eq (IsAddition .table) [(.scalar key, .ofHosts hosts')] es) :
    Document.Rearranges (.ofEntries anchors [(.scalar key, .ofHosts hosts)])
      (.ofEntries anchors es) SameNumber := by
  obtain ⟨ms, ns, hms, hns, hperm⟩ := hroot
  rw [List.forall₂_eq_eq_eq] at hms
  subst hms
  refine ⟨?root, fun _ ↦ rfl, ?anchors⟩
  case root =>
    refine .of_entries _ (fun h ↦ absurd h (by decide)) (.cons ⟨.scalar key, ?_⟩ .nil) hns hperm
    have hpart : (Document.ofEntries anchors [(.scalar key, .ofHosts hosts)]).partUnder .table
        (.scalar key) = .hosts := by
      change TablePart.inner .table key.text = .hosts
      rw [hkey]
      rfl
    exact hpart ▸ .of_hosts distinct hhosts
  case anchors =>
    rintro part i j ⟨hpart, rfl⟩
    dsimp only [ofEntries]
    cases anchors.lookup i with
    | none => exact .none
    | some n => exact .some (.refl n hpart)

/-! ## Events

The budget for following references depends on how large a text is, measured in events. It is enough
to know that a rearrangement loses none, part by part: what is added adds events, and another order
of entries leaves their sum as it is. -/

theorem itemEvents_le {ms ns : List Node}
    (h : List.Forall₂ (fun m n ↦ m.events ≤ n.events) ms ns) : itemEvents ms ≤ itemEvents ns := by
  induction h with
  | nil => exact Nat.le_refl _
  | cons hmn _ ih => exact Nat.add_le_add hmn ih

theorem entryEvents_le {es fs : List (Node × Node)}
    (h : List.Forall₂ (fun e f ↦ e.1.events ≤ f.1.events ∧ e.2.events ≤ f.2.events) es fs) :
    entryEvents es ≤ entryEvents fs := by
  induction h with
  | nil => exact Nat.le_refl _
  | cons hef _ ih => exact Nat.add_le_add (Nat.add_le_add hef.1 hef.2) ih

theorem entryEvents_append (es fs : List (Node × Node)) :
    entryEvents (es ++ fs) = entryEvents es + entryEvents fs := by
  induction es with
  | nil => exact (Nat.zero_add _).symm
  | cons e es ih =>
    rw [List.cons_append, entryEvents, entryEvents, ih]
    omega

theorem entryEvents_of_perm {es fs : List (Node × Node)} (h : es.Perm fs) :
    entryEvents es = entryEvents fs := by
  induction h with
  | nil => rfl
  | cons e _ ih => rw [entryEvents, entryEvents, ih]
  | swap e f es =>
    simp only [entryEvents]
    exact Nat.add_left_comm _ _ _
  | trans _ _ ih ih' => rw [ih, ih']

theorem Node.one_le_events (n : Node) : 1 ≤ n.events := by
  cases n <;>
  · unfold events
    omega

/-- Nothing is lost when a part of a table is rearranged. -/
theorem Node.Rearranges.events_le {d : Document} {corresponds : TablePart → Nat → Nat → Prop}
    {part : TablePart} {n n' : Node} (h : n.Rearranges d corresponds part n') :
    n.events ≤ n'.events := by
  induction h with
  | reference => exact Nat.le_refl _
  | scalar => exact Nat.le_refl _
  | @sequence _ _ ms ns length _ ih =>
    have hitems := itemEvents_le (List.forall₂_iff_zip.mpr ⟨length, fun {m n} hmn ↦ ih (m, n) hmn⟩)
    exact Nat.add_le_add_left hitems 2
  | @mapping _ _ es ms ns fs _ length _ _ _ order ihkeys ihvalues =>
    have hentries := entryEvents_le (List.forall₂_iff_zip.mpr
      ⟨length, fun {e f} hef ↦ ⟨ihkeys (e, f) hef, ihvalues (e, f) hef⟩⟩)
    have hall := entryEvents_of_perm order
    rw [entryEvents_append] at hall
    rw [Node.events, Node.events]
    omega
  | nothing =>
    unfold Node.events
    omega

/-- Places at the same depth whose nodes are the same part of a table. -/
structure Place.Rearranges (d : Document) (corresponds : TablePart → Nat → Nat → Prop)
    (part : TablePart) (p p' : Place) : Prop where
  depth : p.depth = p'.depth
  node : p.node.Rearranges d corresponds part p'.node

namespace Document.Rearranges

open Reading (Alike)

variable {d d' : Document} {corresponds : TablePart → Nat → Nat → Prop} {part : TablePart}
  {n n' : Node} {p p' : Place}

/-! ## Scalars -/

/-- Following an alias leads to the same part of the table, and to the text that a key has. -/
theorem resolve (h : d.Rearranges d' corresponds) (hn : n.Rearranges d corresponds part n') :
    (d.resolve n).Alike
      (fun m m' ↦ m.text? = d.keyText? n ∧ m.Rearranges d corresponds part m')
      (d'.resolve n') := by
  have hnode := hn
  cases hn with
  | @reference _ i j hij =>
    refine Alike.follow.bind fun _ _ _ ↦ .ofOption ?_
    have hanchors := h.anchors hij
    rw [keyText?]
    generalize d.anchors.lookup i = a at hanchors ⊢
    generalize d'.anchors.lookup j = b at hanchors ⊢
    cases hanchors with
    | none => exact .none
    | some hm => exact .some ⟨rfl, hm⟩
  | scalar | sequence | mapping | nothing => exact .pure ⟨rfl, hnode⟩

theorem scalar (h : d.Rearranges d' corresponds) (hn : n.Rearranges d corresponds .value n') :
    (d.scalar n).Alike (fun s t ↦ some s.text = d.keyText? n ∧ s = t) (d'.scalar n') := by
  refine (h.resolve hn).bind fun m m' ⟨htext, hm⟩ ↦ ?_
  cases hm with
  | scalar => exact .pure ⟨htext, rfl⟩
  | nothing _ hpart => exact absurd hpart (by decide)
  | reference | sequence | mapping => exact .failure

theorem optional (h : d.Rearranges d' corresponds) (hpart : part = .value ∨ part = .kvm)
    (hp : p.Rearranges d corresponds part p') :
    (d.optional p).Alike (Option.Rel (Place.Rearranges d corresponds part)) (d'.optional p') := by
  refine (h.resolve hp.node).bind fun m m' ⟨_, hm⟩ ↦ ?_
  have hplace : Place.Rearranges d corresponds part { p with node := m } { p' with node := m' } :=
    ⟨hp.depth, hm⟩
  cases hm with
  | scalar s =>
    change Alike _ (Reading.ofOption s.absent? >>= _) (Reading.ofOption s.absent? >>= _)
    cases s.absent? with
    | none => exact .failure
    | some absent =>
      cases absent with
      | true => exact .pure .none
      | false => exact .pure (.some hplace)
  | nothing _ hnothing => rcases hpart with rfl | rfl <;> exact absurd hnothing (by decide)
  | reference | sequence | mapping => exact .pure (.some hplace)

theorem items (h : d.Rearranges d' corresponds) (hp : p.Rearranges d corresponds .value p') :
    (d.items p).Alike (List.Forall₂ (Place.Rearranges d corresponds .value)) (d'.items p') := by
  refine (h.resolve hp.node).bind fun m m' ⟨_, hm⟩ ↦ ?_
  cases hm with
  | scalar s =>
    dsimp only
    split
    · exact .pure .nil
    · exact .failure
  | @sequence _ tag ms ns length items =>
    refine .pure ?_
    rw [List.forall₂_map_left_iff, List.forall₂_map_right_iff, List.forall₂_iff_zip]
    exact ⟨length, fun {m n} hmn ↦ ⟨congrArg (· + 1) hp.depth, items (m, n) hmn⟩⟩
  | nothing _ hpart => exact absurd hpart (by decide)
  | reference | mapping => exact .failure

/-! ## Mappings

The entries of two mappings are matched before anything is read from them: the keys in some order,
related nodes under them, and only unknown keys besides. From the match on, nothing depends on how
documents are written, and the readers of the tables take over. -/

theorem keyed (h : d.Rearranges d' corresponds) (hp : p.Rearranges d corresponds part p') :
    (d.keyed p).Alike
      (fun es fs ↦ (part = .hosts → (es.map Prod.fst).Nodup) ∧
        part.EntriesMatch (Place.Rearranges d corresponds) es fs) (d'.keyed p') := by
  refine (h.resolve hp.node).bind fun m m' ⟨_, hm⟩ ↦ ?_
  have hnew : ∀ e, IsAddition part e → ∃ x : String × Place,
      (d'.scalar e.1 >>= fun key ↦ pure (key.text, ⟨p'.depth + 1, e.2⟩)) = pure x ∧
        part.Unknown x.1 := by
    rintro _ ⟨s, t, rfl, hs⟩
    exact ⟨(s.text, ⟨p'.depth + 1, .scalar t⟩), rfl, hs⟩
  cases hm with
  | scalar s =>
    dsimp only
    split
    · exact .pure ⟨fun _ ↦ .nil, [], [], .nil, fun _ h ↦ (List.not_mem_nil h).elim, .nil⟩
    · exact .failure
  | @mapping _ tag es ms ns fs distinct length keys values additions order =>
    have hread : ∀ e f : Node × Node, e.1.Rearranges d corresponds .value f.1 ∧
        e.2.Rearranges d corresponds (d.partUnder part e.1) f.2 → Alike
        (fun x y ↦ some x.1 = d.keyText? e.1 ∧ x.1 = y.1 ∧
          Place.Rearranges d corresponds (part.inner x.1) x.2 y.2)
        (d.scalar e.1 >>= fun key ↦ pure (key.text, ⟨p.depth + 1, e.2⟩))
        (d'.scalar f.1 >>= fun key ↦ pure (key.text, ⟨p'.depth + 1, f.2⟩)) := by
      rintro e f ⟨hkey, hvalue⟩
      refine (h.scalar hkey).bind fun s t ⟨htext, hst⟩ ↦ ?_
      rw [partUnder, ← htext] at hvalue
      exact .pure ⟨htext, by rw [hst], congrArg (· + 1) hp.depth, hvalue⟩
    have hentries := Alike.mapM_reorders_labelled (fun e : Node × Node ↦ d.keyText? e.1)
      (fun x : String × Place ↦ some x.1)
      ((Node.Rearranges.reorders length keys values additions order).imp hread) hnew
    refine hentries.mono fun xs ys ⟨hkeys, hmatch⟩ ↦ ⟨fun hpart ↦ ?_, hmatch⟩
    have hnodup := distinct hpart
    rw [← hkeys] at hnodup
    exact .of_map some (by rwa [List.map_map])
  | @nothing _ s tag ns hs hpart additions =>
    obtain ⟨xs, hxs, hunknown⟩ := Reading.exists_mapM_eq hnew additions
    change Alike _ (if s.isNothing then pure [] else failure) (ns.mapM _)
    rw [if_pos hs, hxs]
    exact .pure ⟨fun _ ↦ .nil, [], xs, .nil, hunknown, .refl xs⟩
  | reference | sequence => exact .failure

/-! ## Variants and values without a type -/

theorem choice (h : d.Rearranges d' corresponds) (hp : p.Rearranges d corresponds .value p') :
    (d.choice p).Alike (fun x y ↦ x.1 = y.1 ∧ x.2.all isVoid = y.2.all isVoid)
      (d'.choice p') := by
  refine (h.resolve hp.node).bind fun m m' ⟨_, hm⟩ ↦ ?_
  cases hm with
  | scalar s =>
    dsimp only
    cases s.tag.bind Tag.name? with
    | none => exact .pure ⟨rfl, rfl⟩
    | some name => exact .pure ⟨rfl, rfl⟩
  | @sequence _ tag =>
    dsimp only
    cases tag.bind Tag.name? with
    | none => exact .failure
    | some name => exact .pure ⟨rfl, rfl⟩
  | @mapping _ tag =>
    dsimp only
    cases tag.bind Tag.name? with
    | none => exact .failure
    | some name => exact .pure ⟨rfl, rfl⟩
  | nothing _ hpart => exact absurd hpart (by decide)
  | reference => exact .failure

theorem untypedScalar (s : Scalar) :
    Alike Untyped.Rearranges (.ofOption s.untyped?) (.ofOption s.untyped?) := by
  cases s.untyped? with
  | none => exact .failure
  | some u => exact .pure (.same u)

theorem untyped (h : d.Rearranges d' corresponds) (room : Nat)
    (hn : n.Rearranges d corresponds .value n') :
    (d.untyped room n).Alike Untyped.Rearranges (d'.untyped room n') := by
  induction room generalizing n n' with
  | zero =>
    refine (h.resolve hn).bind fun m m' ⟨_, hm⟩ ↦ ?_
    cases hm with
    | scalar s => exact untypedScalar s
    | nothing _ hpart => exact absurd hpart (by decide)
    | reference | sequence | mapping => exact .failure
  | succ room ih =>
    refine (h.resolve hn).bind fun m m' ⟨_, hm⟩ ↦ ?_
    cases hm with
    | scalar s => exact untypedScalar s
    | @sequence _ tag ms ns length items =>
      dsimp only
      split
      · exact .failure
      · have hall := List.forall₂_iff_zip.mpr ⟨length, fun {m n} hmn ↦ ih (items (m, n) hmn)⟩
        exact (Alike.mapM hall).bind fun us vs huv ↦ .pure (.list huv)
    | @mapping _ tag es ms ns fs _ length keys values additions order =>
      dsimp only
      split
      · exact .failure
      · have hentries := (Node.Rearranges.reorders length keys values additions order).of_not_new
          fun e ⟨s, t, _, hs⟩ ↦ Bool.false_ne_true hs.1
        have hread : ∀ e f : Node × Node, e.1.Rearranges d corresponds .value f.1 ∧
            e.2.Rearranges d corresponds (d.partUnder .value e.1) f.2 →
              Alike (fun x y ↦ Untyped.Rearranges x.1 y.1 ∧ Untyped.Rearranges x.2 y.2)
                (untypedEntry (d.untyped room) e) (untypedEntry (d'.untyped room) f) := by
          rintro e f ⟨hkey, hvalue⟩
          rw [partUnder_value] at hvalue
          exact (ih hkey).bind fun x y hxy ↦ (ih hvalue).bind fun u v huv ↦ .pure ⟨hxy, huv⟩
        exact (Alike.mapM_reorders (hentries.imp hread)).bind
          fun us vs huv ↦ .pure (.of_reorders huv)
    | nothing _ hpart => exact absurd hpart (by decide)
    | reference => exact .failure

/-- Corresponding places of documents answer alike what is asked about them. -/
theorem answersAlike (h : d.Rearranges d' corresponds) :
    d.source.AnswersAlike d'.source (Place.Rearranges d corresponds) where
  text hp := (h.scalar hp.node).bind fun s t hst ↦ .pure (hst.2 ▸ rfl)
  flag hp := (h.scalar hp.node).bind fun s t hst ↦ by
    rw [hst.2]
    exact Reading.isSteady_ofOption _
  optional := h.optional
  items := h.items
  entries hp := (h.keyed hp).mono fun es fs hef ↦ ⟨hef.1 rfl, hef.2⟩
  fields _ hp := (h.keyed hp).bind fun es fs hef ↦ .pure (.of_keyed hef.2)
  choice := h.choice
  untyped hp := by
    change Alike _ (d.untyped _ _) (d'.untyped _ _)
    rw [hp.depth]
    exact h.untyped _ hp.node

/-- Two documents of which one is the other one rearranged are read as the same table. -/
theorem read_alike (h : d.Rearranges d' corresponds) :
    (HostTable.read d.source d.rootPlace).Alike Eq (HostTable.read d'.source d'.rootPlace) :=
  h.answersAlike.hostTable ⟨rfl, h.root⟩

theorem events_le (h : d.Rearranges d' corresponds) : d.events ≤ d'.events := by
  have hroot := h.root.events_le
  have hrooted := h.rooted
  rw [rootPlace, rootPlace] at hroot
  rw [events, events]
  cases hd : d.root with
  | none =>
    cases d'.root with
    | none => exact Nat.le_refl 1
    | some n' => exact n'.one_le_events
  | some n =>
    obtain ⟨n', hd'⟩ := Option.isSome_iff_exists.mp (hrooted (hd ▸ rfl))
    rw [hd, hd'] at hroot
    rw [hd']
    exact hroot

end Document.Rearranges

/-! ## From texts -/

structure SameTable (text text' : String) : Prop where
  /-- What is read of the one text, is read of the other one. -/
  table : ∀ t, readText? HostTable.read text = some t → readText? HostTable.read text' = some t
  /-- What is found of a table that is read, and the message if it is a fault. -/
  verdict : (readText? HostTable.read text).isSome →
    HostTable.ofYaml text' = HostTable.ofYaml text
  /-- The registry for any machine, and what it shows of its hosts. -/
  registry : ∀ t t', HostTable.ofYaml text = .ok t → HostTable.ofYaml text' = .ok t' →
    ∀ directory root platform,
      let r := t.registryFor directory root platform
      let r' := t'.registryFor directory root platform
      r' = r ∧ r'.hostnames = r.hostnames ∧ (∀ name, r'.findWorker? name = r.findWorker? name) ∧
        r'.toJson = r.toJson ∧ r'.toYaml = r.toYaml

theorem readText?_of_parse? {text : String} {d : Document} (h : Document.parse? text = some d) :
    readText? HostTable.read text =
      (HostTable.read d.source d.rootPlace).result? (Document.aliasesPerEvent * d.events) := by
  rw [readText?, h]
  rfl

theorem ofYaml_congr {text text' : String}
    (h : readText? HostTable.read text' = readText? HostTable.read text) :
    HostTable.ofYaml text' = HostTable.ofYaml text := by
  rw [HostTable.ofYaml, HostTable.ofYaml, h]

/-- From a text and from one that holds its document rearranged, the same table is read. -/
theorem Document.Rearranges.sameTable {text text' : String} {d d' : Document}
    {corresponds : TablePart → Nat → Nat → Prop} (hd : Document.parse? text = some d)
    (hd' : Document.parse? text' = some d') (h : d.Rearranges d' corresponds) :
    SameTable text text' := by
  have htable : ∀ t, readText? HostTable.read text = some t →
      readText? HostTable.read text' = some t := by
    intro t ht
    rw [readText?_of_parse? hd, h.read_alike.eq] at ht
    rw [readText?_of_parse? hd']
    exact h.read_alike.right.result?_of_le (Nat.mul_le_mul_left _ h.events_le) ht
  have hverdict : (readText? HostTable.read text).isSome →
      HostTable.ofYaml text' = HostTable.ofYaml text := by
    intro hsome
    obtain ⟨t, ht⟩ := Option.isSome_iff_exists.mp hsome
    exact ofYaml_congr ((htable t ht).trans ht.symm)
  refine ⟨htable, hverdict, fun t t' ht ht' directory root platform ↦ ?_⟩
  have hsome : (readText? HostTable.read text).isSome := by
    rw [HostTable.ofYaml] at ht
    cases hread : readText? HostTable.read text with
    | none => simp [hread] at ht
    | some _ => rfl
  obtain rfl : t' = t := by
    rw [hverdict hsome, ht] at ht'
    exact (Except.ok.inj ht').symm
  exact ⟨rfl, rfl, fun _ ↦ rfl, rfl, rfl⟩

theorem readText?_of_holds {text : String} {t : HostTable} (h : holds text t.toDatum.toYaml) :
    readText? HostTable.read text = some t := by
  have hfits : t.toDatum.Fits Tag.Keeps 5 := t.fits
  exact readText?_eq_of_holds h hfits (by decide) HostTable.read_eq

/-- Two documents that are read as the same table, whatever number of references may be followed. -/
structure Document.ReadAlike (d d' : Document) : Prop where
  read : HostTable.read d.source d.rootPlace = HostTable.read d'.source d'.rootPlace
  texts : ∀ {text text'}, parse? text = some d → parse? text' = some d' → SameTable text text'
  /-- A text that is refused is refused again, unless there are additions. -/
  refused : ∀ {text text'}, parse? text = some d → parse? text' = some d' →
    d.events = d'.events → HostTable.ofYaml text' = HostTable.ofYaml text

theorem Document.Rearranges.readAlike {d d' : Document}
    {corresponds : TablePart → Nat → Nat → Prop} (h : d.Rearranges d' corresponds) :
    d.ReadAlike d' where
  read := h.read_alike.eq
  texts hd hd' := h.sameTable hd hd'
  refused hd hd' hevents := by
    refine ofYaml_congr ?_
    rw [readText?_of_parse? hd, readText?_of_parse? hd', h.read_alike.eq, hevents]

/-- A document is read as the same table when its hosts, which have different names, and the fields
inside its entries come in another order and unknown keys are added to it and to its entries. This
is so for any list of hosts, and for any document that is rearranged. Then a table that is read from
the one text is read from the other one, with the same verdict and the same registry. In the lists
of a table the order counts: texts that hold different tables, be it only for the order of workers,
rules or segments, are read as different tables. -/
theorem documents_read_alike :
    (∀ {anchors : List (Nat × Node)} {key : Scalar}
      {hosts hosts' : List (Scalar × List (Node × Node))} {es : List (Node × Node)},
      key.text = "hosts" → (hosts.map fun h ↦ h.1.text).Nodup →
        Reorders (fun h h' ↦ h.1 = h'.1 ∧ Reorders Eq (IsAddition .entry) h.2 h'.2)
          (fun _ ↦ False) hosts hosts' →
        Reorders Eq (IsAddition .table) [(.scalar key, .ofHosts hosts')] es →
          Document.ReadAlike (.ofEntries anchors [(.scalar key, .ofHosts hosts)])
            (.ofEntries anchors es)) ∧
    (∀ {d d' : Document} {corresponds : TablePart → Nat → Nat → Prop},
      d.Rearranges d' corresponds → d.ReadAlike d') ∧
    ∀ {text text' : String} {t t' : HostTable},
      holds text t.toDatum.toYaml → holds text' t'.toDatum.toYaml →
        (readText? HostTable.read text = readText? HostTable.read text' ↔ t = t') := by
  refine ⟨?hosts, ?document, ?other⟩
  case hosts =>
    intro anchors key hosts hosts' es hkey distinct hhosts hroot
    exact (Document.rearranges_of_hosts hkey distinct hhosts hroot).readAlike
  case document => exact fun h ↦ h.readAlike
  case other =>
    intro text text' t t' ht ht'
    rw [readText?_of_holds ht, readText?_of_holds ht', Option.some_inj]

/-! ### Two hosts -/

def Node.plain (s : String) : Node := .scalar ⟨s, .plain, none⟩

theorem isAddition_plain {part : TablePart} {s t : String} (h : part.Unknown s) :
    ∀ e ∈ [(Node.plain s, Node.plain t)], IsAddition part e := by
  intro e he
  rw [List.mem_singleton.mp he]
  exact ⟨_, _, rfl, h⟩

namespace Document

/-- The description of a host. -/
def labEntries : List (Node × Node) :=
  [(.plain "ip", .plain "i"), (.plain "launch", .plain "windows")]

def labName : Scalar := ⟨"lab", .plain, none⟩

def benchName : Scalar := ⟨"bench", .plain, none⟩

/-- Two hosts, of which the second one is not described. -/
def twoHosts : Document where
  root := some (.mapping none [(.plain "hosts", .mapping none
    [(.plain "lab", .mapping none labEntries), (.plain "bench", .absent none)])])
  anchors := []

/-- The hosts in another order, with an addition to the second one. -/
def otherHosts : Node :=
  .ofHosts [(benchName, [(.plain "rack", .plain "4")]), (labName, labEntries.reverse)]

/-- The document with the hosts in another order and with an addition. -/
def twoHostsRearranged : Document where
  root := some (.mapping none [(.plain "site", .plain "attic"), (.plain "hosts", otherHosts)])
  anchors := []

theorem twoHosts_rearranges : twoHosts.Rearranges twoHostsRearranged fun _ _ _ ↦ False where
  rooted _ := rfl
  anchors h := h.elim
  root := by
    have hnone : ∀ {part : TablePart}, ∀ e ∈ ([] : List (Node × Node)), IsAddition part e :=
      fun _ he ↦ (List.not_mem_nil he).elim
    have hlab : Node.Rearranges twoHosts (fun _ _ _ ↦ False) .entry (.mapping none labEntries)
        (.mapping none labEntries.reverse) :=
      .of_entries labEntries (fun h ↦ absurd h (by decide))
        (.cons ⟨.scalar _, .scalar _⟩ (.cons ⟨.scalar _, .scalar _⟩ .nil)) hnone (.swap _ _ _)
    have hbench : Node.Rearranges twoHosts (fun _ _ _ ↦ False) .entry (.absent none)
        (.mapping none [(.plain "rack", .plain "4")]) :=
      .nothing rfl (.inr rfl) (isAddition_plain (by decide))
    refine .of_entries [(.plain "hosts", otherHosts)] (fun h ↦ absurd h (by decide))
      (.cons ⟨.scalar _, ?_⟩ .nil) (isAddition_plain (by decide)) (.swap _ _ _)
    exact .of_entries [(.plain "lab", .mapping none labEntries.reverse),
      (.plain "bench", .mapping none [(.plain "rack", .plain "4")])] (fun _ ↦ by decide)
      (.cons ⟨.scalar _, hlab⟩ (.cons ⟨.scalar _, hbench⟩ .nil)) hnone (.swap _ _ _)

end Document

/-- The text of a table with the rows of its only host. -/
def labText (rows : String) : String :=
  "hosts:\n  lab:\n    workers: [" ++ rows ++ "]\n    copies: null\n    ip: null\n" ++
    "    kvm: null\n    automation_root: null\n    launch: unix\n"

/-- The two hosts are the same table in both texts, be it that the second one has no fields or that
nothing is written for it. A host whose workers change places is another one. -/
theorem documents_read_alike_two_hosts :
    Document.ReadAlike (.ofEntries [] [(.plain "hosts",
      .ofHosts [(Document.labName, Document.labEntries), (Document.benchName, [])])])
      .twoHostsRearranged ∧
    (let text := "hosts:\n  lab:\n    ip: i\n    launch: windows\n  bench:\n"
      let text' :=
        "site: attic\nhosts:\n  bench:\n    rack: 4\n  lab:\n    launch: windows\n    ip: i\n"
      SameTable text text' ∧ readText? HostTable.read text' =
        some ⟨.ofList [("lab", { ip := some "i", launch := .windows }), ("bench", {})]⟩) ∧
    readText? HostTable.read (labText "[a, b, true], [c, d, true]") ≠
      readText? HostTable.read (labText "[c, d, true], [a, b, true]") := by
  refine ⟨?_, ?_, ?_⟩
  · have hlab : Reorders Eq (IsAddition .entry) Document.labEntries Document.labEntries.reverse :=
      ⟨_, [], .cons rfl (.cons rfl .nil), fun _ he ↦ (List.not_mem_nil he).elim, .swap _ _ _⟩
    have hbench : Reorders Eq (IsAddition .entry) [] [(Node.plain "rack", Node.plain "4")] :=
      ⟨[], _, .nil, isAddition_plain (by decide), .refl _⟩
    have hhosts : Reorders (fun h h' ↦ h.1 = h'.1 ∧ Reorders Eq (IsAddition .entry) h.2 h'.2)
        (fun _ ↦ False) [(Document.labName, Document.labEntries), (Document.benchName, [])]
        [(Document.benchName, [(.plain "rack", .plain "4")]),
          (Document.labName, Document.labEntries.reverse)] :=
      ⟨[(Document.labName, Document.labEntries.reverse),
        (Document.benchName, [(.plain "rack", .plain "4")])], [],
        .cons ⟨rfl, hlab⟩ (.cons ⟨rfl, hbench⟩ .nil), fun _ h ↦ (List.not_mem_nil h).elim,
        .swap _ _ _⟩
    have hroot : Reorders Eq (IsAddition .table) [(.plain "hosts", Document.otherHosts)]
        [(.plain "site", .plain "attic"), (.plain "hosts", Document.otherHosts)] :=
      ⟨_, [(.plain "site", .plain "attic")], .cons rfl .nil, isAddition_plain (by decide),
        .swap _ _ _⟩
    exact documents_read_alike.1 rfl (by decide) hhosts hroot
  · intro text text'
    have hd : Document.parse? text = some .twoHosts := by decide +kernel
    have hd' : Document.parse? text' = some .twoHostsRearranged := by decide +kernel
    exact ⟨(documents_read_alike.2.1 Document.twoHosts_rearranges).texts hd hd', by decide +kernel⟩
  · let table : List WorkerEntry → HostTable := fun workers ↦
      ⟨.ofList [("lab", { workers := workers, copies := none })]⟩
    have h : holds (labText "[a, b, true], [c, d, true]")
        (table [⟨"a", "b", true⟩, ⟨"c", "d", true⟩]).toDatum.toYaml := by decide +kernel
    have h' : holds (labText "[c, d, true], [a, b, true]")
        (table [⟨"c", "d", true⟩, ⟨"a", "b", true⟩]).toDatum.toYaml := by decide +kernel
    rw [Ne, documents_read_alike.2.2 h h']
    decide +kernel

end Yaml

end BuildFleet
