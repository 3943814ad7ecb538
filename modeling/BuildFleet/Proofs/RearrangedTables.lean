import BuildFleet.Proofs.AlikeReadings
import BuildFleet.Proofs.TypedReading
import BuildFleet.Table.Document
import Mathlib.Data.List.Nodup

/-!
# Tables that are written in another order

A table has lists, whose order is part of what they say, and it has keys, whose order is not. What
becomes of a table when the keys of its document are put into another order, and when keys are added
that mean nothing, depends on which part of the table a node is: the host names are data, each of
them stands for an entry and none can be added; the fields of a record are known by name; and
everything else is a value, in which nothing is added.

Two nodes, of one document or of two, are related as a part of a table if they answer the questions
that are asked about the part alike. It is up to a format which nodes are. The readers of the types
do no more than ask, so that related nodes are read as the same value; the copy rules alone are read
without a type first, and there a map may still have its entries in another order.

## One lemma for each reader

`Source.AnswersAlike` has one clause for each question that a reader can ask. The readers are built
from questions, so each of them is shown to give the same on related nodes by the readers that it is
made of, from the rows of workers up to the whole table. Fields are looked up by name in what a node
shows, and a match between two lists of fields is kept for as long as fields are taken from them.

An untyped value keeps the order of its entries, and whether two such values give the same copy
rules is a question of its own. It is answered without any format: a rule asks for its fields by
name, and being the standard set is a matter of there being just one entry.
-/

namespace BuildFleet

/-! ## Dictionaries -/

/-- Entries make up the same dictionary in every order, if no two of them have the same key. -/
theorem Dictionary.ofList_of_perm {α : Type} {es fs : List (String × α)} (h : es.Perm fs)
    (hkeys : (es.map Prod.fst).Nodup) : ofList es = ofList fs := by
  refine h.foldl_eq' (fun e he f hf d ↦ ?_) empty
  by_cases hef : e = f
  · rw [hef]
  · exact d.insert_comm (fun hk ↦ hef (List.inj_on_of_nodup_map hkeys he hf hk)) e.2 f.2

/-! ## Values without a type -/

/-- Values without a type that differ in the order of entries alone. -/
inductive Untyped.Rearranges : Untyped → Untyped → Prop
  | same (u : Untyped) : Rearranges u u
  | list {us vs : List Untyped} (items : List.Forall₂ Rearranges us vs) :
    Rearranges (.list us) (.list vs)
  | map {es ms fs : List (Untyped × Untyped)}
    (keys : List.Forall₂ Rearranges (es.map Prod.fst) (ms.map Prod.fst))
    (values : List.Forall₂ Rearranges (es.map Prod.snd) (ms.map Prod.snd)) (order : ms.Perm fs) :
    Rearranges (.map es) (.map fs)

namespace Untyped.Rearranges

variable {u v : Untyped}

theorem of_reorders {es fs : List (Untyped × Untyped)}
    (h : Reorders (fun e f ↦ Rearranges e.1 f.1 ∧ Rearranges e.2 f.2) (fun _ ↦ False) es fs) :
    Rearranges (.map es) (.map fs) := by
  obtain ⟨ms, hall, hperm⟩ := h.exists_forall₂
  refine .map ?_ ?_ hperm
  · rw [List.forall₂_map_left_iff, List.forall₂_map_right_iff]
    exact hall.imp fun _ _ h ↦ h.1
  · rw [List.forall₂_map_left_iff, List.forall₂_map_right_iff]
    exact hall.imp fun _ _ h ↦ h.2

theorem reorders {es ms fs : List (Untyped × Untyped)}
    (keys : List.Forall₂ Rearranges (es.map Prod.fst) (ms.map Prod.fst))
    (values : List.Forall₂ Rearranges (es.map Prod.snd) (ms.map Prod.snd)) (order : ms.Perm fs) :
    Reorders (fun e f ↦ Rearranges e.1 f.1 ∧ Rearranges e.2 f.2) (fun _ ↦ False) es fs :=
  ⟨ms, [], forall₂_of_columns keys values, fun _ h ↦ (List.not_mem_nil h).elim,
    (List.append_nil ms).symm ▸ order⟩

theorem text?_eq (h : u.Rearranges v) : u.text? = v.text? := by
  cases h <;> rfl

end Untyped.Rearranges

namespace CopiesEntry

open Untyped (Rearranges)

variable {u v : Untyped}

theorem RuleKey.ofUntyped?_eq (h : u.Rearranges v) : ofUntyped? u = ofUntyped? v := by
  cases h <;> rfl

theorem isStandard_of_many (e f : Untyped × Untyped) (es : List (Untyped × Untyped)) :
    isStandard (.map (e :: f :: es)) = false := by
  simp [isStandard]

theorem isStandard_eq (h : u.Rearranges v) : isStandard u = isStandard v := by
  cases h with
  | same => rfl
  | list => rfl
  | @map es ms fs keys values order =>
    rcases (Rearranges.reorders keys values order).few_or_many with
      ⟨rfl, rfl⟩ | ⟨⟨k, x⟩, ⟨l, y⟩, ⟨hkey, hvalue⟩, rfl, rfl⟩ | ⟨e, e', es', f, f', fs', rfl, rfl⟩
    · rfl
    · cases hkey with
      | same =>
        cases hvalue with
        | same => rfl
        | list => cases k <;> rfl
        | map => cases k <;> rfl
      | list => rfl
      | map => rfl
    · rw [isStandard_of_many, isStandard_of_many]

theorem ruleField?_eq {es fs : List (RuleKey × Untyped)}
    (h : Reorders (fun e f ↦ e.1 = f.1 ∧ Rearranges e.2 f.2) (fun _ ↦ False) es fs)
    (key : RuleKey) : ruleField? key es = ruleField? key fs := by
  have hfield := h.filter (p := (·.1 == key)) (q := (·.1 == key))
    (fun _ _ hef ↦ by rw [hef.1]) fun _ h ↦ h.elim
  rw [ruleField?, ruleField?]
  rcases hfield.few_or_many with ⟨hes, hfs⟩ | ⟨e, f, hef, hes, hfs⟩ |
    ⟨e, e', es', f, f', fs', hes, hfs⟩
  · rw [hes, hfs]
  · rw [hes, hfs]
    exact hef.2.text?_eq
  · rw [hes, hfs]

def ruleOfEntries? (entries : List (RuleKey × Untyped)) : Option CopyRule := do
  some { source := ← ruleField? .source entries, destination := ← ruleField? .destination entries }

theorem ruleOfEntries?_eq {es fs : List (RuleKey × Untyped)}
    (h : Reorders (fun e f ↦ e.1 = f.1 ∧ Rearranges e.2 f.2) (fun _ ↦ False) es fs) :
    ruleOfEntries? es = ruleOfEntries? fs := by
  rw [ruleOfEntries?, ruleOfEntries?, ruleField?_eq h, ruleField?_eq h]

theorem bind_eq_of_rel {α β γ : Type} {R : α → β → Prop} {f : α → Option γ} {g : β → Option γ}
    {a : Option α} {b : Option β} (h : Option.Rel R a b) (hfg : ∀ a b, R a b → f a = g b) :
    a.bind f = b.bind g := by
  cases h with
  | none => rfl
  | some h => exact hfg _ _ h

theorem ruleOfUntyped?_eq (h : u.Rearranges v) : ruleOfUntyped? u = ruleOfUntyped? v := by
  cases h with
  | same => rfl
  | list items =>
    rcases items with _ | ⟨hsource, _ | ⟨hdestination, _ | _⟩⟩
    · rfl
    · rfl
    · rw [ruleOfUntyped?, ruleOfUntyped?, hsource.text?_eq, hdestination.text?_eq]
    · rfl
  | @map es ms fs keys values order =>
    refine bind_eq_of_rel (Reading.rel_mapM_of_reorders ?_) fun _ _ h ↦ ruleOfEntries?_eq h
    refine (Rearranges.reorders keys values order).imp fun e f hef ↦ ?_
    rw [RuleKey.ofUntyped?_eq hef.1]
    cases RuleKey.ofUntyped? f.1 with
    | none => exact .none
    | some key => exact .some ⟨rfl, hef.2⟩

theorem mapM_ruleOfUntyped?_eq {us vs : List Untyped} (h : List.Forall₂ Rearranges us vs) :
    us.mapM ruleOfUntyped? = vs.mapM ruleOfUntyped? := by
  induction h with
  | nil => rfl
  | cons huv _ ih => rw [List.mapM_cons, List.mapM_cons, ruleOfUntyped?_eq huv, ih]

/-- The copy rules that a value is do not depend on the order of the entries in it. -/
theorem ofUntyped?_eq (h : u.Rearranges v) : ofUntyped? u = ofUntyped? v := by
  have hstandard := isStandard_eq h
  cases h with
  | same => rfl
  | @list us vs items =>
    change (if isStandard (.list us) then _ else (us.mapM ruleOfUntyped?).map rules) = _
    rw [hstandard, mapM_ruleOfUntyped?_eq items]
    rfl
  | @map es ms fs keys values order =>
    change (if isStandard (.map es) then some standard else none) = _
    rw [hstandard]
    rfl

end CopiesEntry

/-! ## The parts of a table -/

/-- What a node is in the document of a table. -/
inductive TablePart where
  | table
  | hosts
  | entry
  | kvm
  /-- Anything else. -/
  | value
  deriving DecidableEq

namespace TablePart

def isRecord : TablePart → Bool
  | table | entry | kvm => true
  | hosts | value => false

/-- The fields that a part may have. -/
def fields : TablePart → List String
  | table => ["hosts"]
  | entry => ["workers", "copies", "ip", "kvm", "automation_root", "launch"]
  | kvm => ["switch", "port"]
  | hosts | value => []

/-- Whether a part is an entry or inside one. -/
def inEntry : TablePart → Bool
  | table | hosts => false
  | entry | kvm | value => true

/-- What stands under a key of a part. -/
def inner : TablePart → String → TablePart
  | table, key => if key = "hosts" then hosts else value
  | hosts, _ => entry
  | entry, key => if key = "kvm" then kvm else value
  | kvm, _ | value, _ => value

theorem inEntry_inner {part : TablePart} (h : part.inEntry) (key : String) :
    (part.inner key).inEntry := by
  cases part with
  | table | hosts => cases h
  | kvm | value => rfl
  | entry =>
    rw [inner]
    split <;> rfl

/-- A key that may be added to a part, since the part is known by fields and it is none of them. -/
def Unknown (part : TablePart) (key : String) : Prop :=
  part.isRecord ∧ key ∉ part.fields

instance (part : TablePart) (key : String) : Decidable (part.Unknown key) :=
  inferInstanceAs (Decidable (_ ∧ _))

/-- The entries that two nodes have as a part of a table: the keys in some order, related nodes
under them, and only unknown keys besides. -/
def EntriesMatch {ν ν' : Type} (T : TablePart → ν → ν' → Prop) (part : TablePart)
    (es : List (String × ν)) (fs : List (String × ν')) : Prop :=
  Reorders (fun e f ↦ e.1 = f.1 ∧ T (part.inner e.1) e.2 f.2) (fun f ↦ part.Unknown f.1) es fs

end TablePart

variable {ν ν' : Type}

/-- The fields of a part that two nodes show. -/
structure Fields.Match (T : TablePart → ν → ν' → Prop) (part : TablePart) (fs : Fields ν)
    (fs' : Fields ν') : Prop where
  fit : ∀ count, fs.fit count = fs'.fit count
  field : ∀ name ∈ part.fields, ∀ index,
    Option.Rel (Option.Rel (T (part.inner name))) (fs.find? index name) (fs'.find? index name)

/-- Nodes that are related as a part of a table answer what is asked about the part alike. -/
structure Source.AnswersAlike (S : Source ν) (S' : Source ν') (T : TablePart → ν → ν' → Prop) :
    Prop where
  text : ∀ {n n'}, T .value n n' → (S.text n).Alike Eq (S'.text n')
  flag : ∀ {n n'}, T .value n n' → (S.flag n).Alike Eq (S'.flag n')
  optional : ∀ {part n n'}, part = .value ∨ part = .kvm → T part n n' →
    (S.optional n).Alike (Option.Rel (T part)) (S'.optional n')
  items : ∀ {n n'}, T .value n n' → (S.items n).Alike (List.Forall₂ (T .value)) (S'.items n')
  entries : ∀ {n n'}, T .hosts n n' → (S.entries n).Alike
    (fun es fs ↦ (es.map Prod.fst).Nodup ∧ TablePart.hosts.EntriesMatch T es fs) (S'.entries n')
  fields : ∀ {part n n'}, part.isRecord → T part n n' →
    (S.fields n).Alike (Fields.Match T part) (S'.fields n')
  choice : ∀ {n n'}, T .value n n' → (S.choice n).Alike
    (fun x y ↦ x.1 = y.1 ∧ x.2.all S.isVoid = y.2.all S'.isVoid) (S'.choice n')
  untyped : ∀ {n n'}, T .value n n' → (S.untyped n).Alike Untyped.Rearranges (S'.untyped n')

namespace Fields

variable {T : TablePart → ν → ν' → Prop} {part : TablePart} {α : Type}

/-- Entries with names that match show matching fields. -/
theorem Match.of_keyed {es : List (String × ν)} {fs : List (String × ν')}
    (h : part.EntriesMatch T es fs) : Match T part (.keyed es) (.keyed fs) where
  fit _ := rfl
  field name hname index := by
    have hnamed := h.filter (p := (·.1 == name)) (q := (·.1 == name))
      (fun _ _ hef ↦ by rw [hef.1]) fun f hf ↦ by
        rw [beq_eq_false_iff_ne]
        rintro rfl
        exact hf.2 hname
    rw [find?, find?]
    rcases hnamed.few_or_many with ⟨hes, hfs⟩ | ⟨e, f, hef, hes, hfs⟩ |
      ⟨e, e', es', f, f', fs', hes, hfs⟩
    · rw [hes, hfs]
      exact .some .none
    · have hkey : e.1 = name := by
        have hmem : e ∈ es.filter (·.1 == name) := hes ▸ List.mem_singleton_self e
        simpa using (List.mem_filter.mp hmem).2
      rw [hes, hfs]
      exact .some (.some (hkey ▸ hef.2))
    · rw [hes, hfs]
      exact .none

namespace Match

variable {fs : Fields ν} {fs' : Fields ν'} {read : ν → Reading α} {read' : ν' → Reading α}
  {name : String} {inner : TablePart}

theorem required (h : Match T part fs fs') (index : Nat) (hname : name ∈ part.fields)
    (hinner : part.inner name = inner)
    (hread : ∀ {n n'}, T inner n n' → (read n).Alike Eq (read' n')) :
    (fs.required index name read).Alike Eq (fs'.required index name read') := by
  refine (Reading.Alike.ofOption (h.field name hname index)).bind fun m m' hm ↦ ?_
  cases hm with
  | none => exact .failure
  | some hm => exact hread (hinner ▸ hm)

theorem defaulted (h : Match T part fs fs') (index : Nat) (hname : name ∈ part.fields)
    (hinner : part.inner name = inner) (missing : α)
    (hread : ∀ {n n'}, T inner n n' → (read n).Alike Eq (read' n')) :
    (fs.defaulted index name missing read).Alike Eq
      (fs'.defaulted index name missing read') := by
  refine (Reading.Alike.ofOption (h.field name hname index)).bind fun m m' hm ↦ ?_
  cases hm with
  | none => exact .pure rfl
  | some hm => exact hread (hinner ▸ hm)

theorem whole (h : Match T part fs fs') (count : Nat) (a : α) :
    (fs.whole count a).Alike Eq (fs'.whole count a) := by
  rw [Fields.whole, Fields.whole, h.fit]
  split
  · exact .pure rfl
  · exact .failure

end Match

end Fields

/-! ## The readers -/

namespace Source.AnswersAlike

variable {S : Source ν} {S' : Source ν'} {T : TablePart → ν → ν' → Prop} {n : ν} {n' : ν'}
  {α : Type}

theorem listOf (h : S.AnswersAlike S' T) (hn : T .value n n') {read : ν → Reading α}
    {read' : ν' → Reading α}
    (hread : ∀ {n n'}, T .value n n' → (read n).Alike Eq (read' n')) :
    (S.listOf read n).Alike Eq (S'.listOf read' n') := by
  refine (h.items hn).bind fun ms ms' hall ↦ ?_
  refine (Reading.Alike.mapM (hall.imp fun _ _ hm ↦ hread hm)).mono fun as bs h ↦ ?_
  rwa [List.forall₂_eq_eq_eq] at h

theorem optionOf (h : S.AnswersAlike S' T) {part : TablePart} (hpart : part = .value ∨ part = .kvm)
    (hn : T part n n') {read : ν → Reading α} {read' : ν' → Reading α}
    (hread : ∀ {n n'}, T part n n' → (read n).Alike Eq (read' n')) :
    (S.optionOf read n).Alike Eq (S'.optionOf read' n') := by
  refine (h.optional hpart hn).bind fun m m' hm ↦ ?_
  cases hm with
  | none => exact .pure rfl
  | some hm => exact (hread hm).bind fun a b hab ↦ .pure (hab ▸ rfl)

theorem nameOf (h : S.AnswersAlike S' T) (hn : T .value n n') (named : String → Option α) :
    (S.nameOf named n).Alike Eq (S'.nameOf named n') := by
  refine (h.choice hn).bind fun x y hxy ↦ ?_
  obtain ⟨name, payload⟩ := x
  obtain ⟨_, payload'⟩ := y
  obtain ⟨rfl, hvoid⟩ := hxy
  dsimp only at hvoid ⊢
  rw [hvoid]
  split
  · exact Reading.isSteady_ofOption _
  · exact .failure

theorem workerEntry (h : S.AnswersAlike S' T) (hn : T .value n n') :
    (WorkerEntry.read S n).Alike Eq (WorkerEntry.read S' n') := by
  refine (h.items hn).bind fun ms ms' hall ↦ ?_
  rcases hall with _ | ⟨hname, _ | ⟨hindex, _ | ⟨helevated, _ | _⟩⟩⟩
  · exact .failure
  · exact .failure
  · exact .failure
  · refine (h.text hname).bind fun name _ hname ↦ (h.text hindex).bind fun index _ hindex ↦
      (h.flag helevated).bind fun elevated _ helevated ↦ .pure ?_
    rw [hname, hindex, helevated]
  · exact .failure

theorem copiesEntry (h : S.AnswersAlike S' T) (hn : T .value n n') :
    (CopiesEntry.read S n).Alike Eq (CopiesEntry.read S' n') := by
  refine (h.untyped hn).bind fun u v huv ↦ ?_
  rw [CopiesEntry.ofUntyped?_eq huv]
  exact Reading.isSteady_ofOption _

theorem kvmEntry (h : S.AnswersAlike S' T) (hn : T .kvm n n') :
    (KvmEntry.read S n).Alike Eq (KvmEntry.read S' n') := by
  refine .bind (h.fields rfl hn) fun fs fs' hfs ↦ ?_
  refine .bind (hfs.required 0 (by decide) (by decide) h.text) fun switch _ hswitch ↦ ?_
  refine .bind (hfs.required 1 (by decide) (by decide) h.text) fun port _ hport ↦ ?_
  rw [hswitch, hport]
  exact hfs.whole 2 _

theorem hostEntry (h : S.AnswersAlike S' T) (hn : T .entry n n') :
    (HostEntry.read S n).Alike Eq (HostEntry.read S' n') := by
  have hvalue : TablePart.value = .value ∨ TablePart.value = .kvm := .inl rfl
  refine .bind (h.fields rfl hn) fun fs fs' hfs ↦ ?_
  refine .bind (hfs.defaulted 0 (by decide) (by decide) _ fun hm ↦
    h.listOf hm h.workerEntry) fun workers _ hworkers ↦ ?_
  refine .bind (hfs.defaulted 1 (by decide) (by decide) _ fun hm ↦
    h.optionOf hvalue hm h.copiesEntry) fun copies _ hcopies ↦ ?_
  refine .bind (hfs.defaulted 2 (by decide) (by decide) _ fun hm ↦
    h.optionOf hvalue hm h.text) fun ip _ hip ↦ ?_
  refine .bind (hfs.defaulted 3 (by decide) (by decide) _ fun hm ↦
    h.optionOf (.inr rfl) hm h.kvmEntry) fun kvm _ hkvm ↦ ?_
  refine .bind (hfs.defaulted 4 (by decide) (by decide) _ fun hm ↦
    h.optionOf hvalue hm fun hm ↦ h.listOf hm h.text) fun root _ hroot ↦ ?_
  refine .bind (hfs.defaulted 5 (by decide) (by decide) _ fun hm ↦
    h.nameOf hm _) fun launch _ hlaunch ↦ ?_
  rw [hworkers, hcopies, hip, hkvm, hroot, hlaunch]
  exact hfs.whole 6 _

/-- Entries under different names are read as the same dictionary in every order. -/
theorem readHosts (h : S.AnswersAlike S' T) (hn : T .hosts n n') :
    (HostTable.readHosts S n).Alike Eq (HostTable.readHosts S' n') := by
  refine .bind (h.entries hn) fun es fs ⟨hnodup, hmatch⟩ ↦ ?_
  -- what is read of an entry keeps its name
  have hread : ∀ (e : String × ν) (f : String × ν'), e.1 = f.1 ∧ T .entry e.2 f.2 →
      Reading.Alike (fun x y ↦ x.1 = e.1 ∧ x = y)
        (HostEntry.read S e.2 >>= fun entry ↦ pure (e.1, entry))
        (HostEntry.read S' f.2 >>= fun entry ↦ pure (f.1, entry)) :=
    fun e f hef ↦ .bind (h.hostEntry hef.2) fun a b hab ↦ .pure ⟨rfl, by rw [hef.1, hab]⟩
  have hnew : ∀ f : String × ν', TablePart.hosts.Unknown f.1 → ∃ x,
      (HostEntry.read S' f.2 >>= fun entry ↦ pure (f.1, entry)) = pure x ∧ False :=
    fun _ hnew ↦ absurd hnew.1 (by decide)
  refine .bind (.mapM_reorders_labelled Prod.fst Prod.fst (hmatch.imp hread) hnew)
    fun xs ys ⟨hkeys, hxy⟩ ↦ .pure ?_
  exact Dictionary.ofList_of_perm hxy.perm (hkeys ▸ hnodup)

/-- Nodes that are related as tables are read as the same table. -/
theorem hostTable (h : S.AnswersAlike S' T) (hn : T .table n n') :
    (HostTable.read S n).Alike Eq (HostTable.read S' n') := by
  refine .bind (h.fields rfl hn) fun fs fs' hfs ↦ ?_
  refine .bind (hfs.defaulted 0 (by decide) (by decide) _ h.readHosts) fun hosts _ hhosts ↦ ?_
  rw [hhosts]
  exact hfs.whole 1 _

end Source.AnswersAlike

end BuildFleet
