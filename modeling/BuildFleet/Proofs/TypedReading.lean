import Mathlib.Data.List.Forall2
import BuildFleet.Dictionary
import BuildFleet.Document.Datum
import BuildFleet.Document.Source

/-!
# Nodes that show a tree

The readers of the types work for every format, so what they make of a written tree is found once
and for all: it depends on nothing but the answers about the node. A node shows a tree if it answers
all the questions that the tree is made for, and shows the parts of the tree at the nodes inside it.
That a format shows what it writes is then a fact about the format alone, and that a reader takes
back what the writer of its type gave is one about the type alone.

## Questions

A reader asks for a text, for a truth value, for the items of a list, for fields, for a variant, for
a value that may be absent, or for whatever is there. To each question about a tree there is one
answer, or none, and `Shows` has a rule for each kind of tree that lists the answers of a node. One
answer is given by nodes of all kinds, whether they are absent and what they show without a type,
and so these stand apart, in `Faces`.

## Room

Not every format has room for every tree. Untyped readings stop at some depth, and a tag has to keep
the name of its variant. `Fits` says what a format has room for, with the depth and the names as
parameters, so that the trees of all types can be measured once for both formats.
-/

namespace BuildFleet

namespace Datum

/-- Whether a tree is an absent value. -/
def isNull : Datum → Bool
  | .null => true
  | _ => false

mutual

/-- The untyped value of a tree without variants. -/
def bare? : Datum → Option Untyped
  | .null => some .null
  | .flag b => some (.flag b)
  | .text s => some (.text s)
  | .list items => (bareItems? items).map .list
  | .record fields => (bareFields? fields).map .map
  | .variant _ _ => none

def bareItems? : List Datum → Option (List Untyped)
  | [] => some []
  | d :: ds => d.bare?.bind fun u ↦ (bareItems? ds).map (u :: ·)

def bareFields? : List (String × Datum) → Option (List (Untyped × Untyped))
  | [] => some []
  | (name, d) :: fs => d.bare?.bind fun u ↦ (bareFields? fs).map ((.text name, u) :: ·)

end

def isVariant : Datum → Bool
  | .variant _ _ => true
  | _ => false

/-- A tree that a format has room for: lists, records and variants are nested at most so deep, a
variant has one of the names that the format can keep, and what it carries is no variant itself. -/
inductive Fits (named : String → Prop) : Nat → Datum → Prop
  | null {room : Nat} : Fits named room .null
  | flag {room : Nat} {b : Bool} : Fits named room (.flag b)
  | text {room : Nat} {s : String} : Fits named room (.text s)
  | list {room : Nat} {items : List Datum} (h : ∀ d ∈ items, Fits named room d) :
    Fits named (room + 1) (.list items)
  | record {room : Nat} {fields : List (String × Datum)}
    (h : ∀ f ∈ fields, Fits named room f.2) : Fits named (room + 1) (.record fields)
  | variant {room : Nat} {name : String} {payload : Datum} (hname : named name)
    (hpayload : payload.isVariant = false) (h : Fits named room payload) :
    Fits named (room + 1) (.variant name payload)

namespace Fits

variable {named : String → Prop} {room : Nat} {α : Type} {write : α → Datum}

theorem ofList {as : List α} (h : ∀ a ∈ as, (write a).Fits named room) :
    (Datum.ofList write as).Fits named (room + 1) :=
  .list fun d hd ↦ by
    obtain ⟨a, ha, rfl⟩ := List.mem_map.mp hd
    exact h a ha

theorem ofOption (h : ∀ a, (write a).Fits named room) (a : Option α) :
    (Datum.ofOption write a).Fits named room := by
  cases a with
  | none => exact .null
  | some a => exact h a

theorem entries (h : ∀ a, (write a).Fits named room) (d : Dictionary α) :
    (Datum.record (d.mapEntries fun _ a ↦ write a).entries).Fits named (room + 1) :=
  .record fun f hf ↦ by
    obtain ⟨e, -, rfl⟩ := List.mem_map.mp hf
    exact h e.2

end Fits

theorem forall₂_of_bareItems? {items : List Datum} {us : List Untyped}
    (h : bareItems? items = some us) : List.Forall₂ (fun d u ↦ d.bare? = some u) items us := by
  induction items generalizing us with
  | nil =>
    cases h
    exact .nil
  | cons d ds ih =>
    obtain ⟨u, hu, h⟩ := Option.bind_eq_some_iff.mp h
    obtain ⟨us, hus, rfl⟩ := Option.map_eq_some_iff.mp h
    exact .cons hu (ih hus)

theorem forall₂_of_bareFields? {fields : List (String × Datum)} {us : List (Untyped × Untyped)}
    (h : bareFields? fields = some us) :
    List.Forall₂ (fun f u ↦ u.1 = .text f.1 ∧ f.2.bare? = some u.2) fields us := by
  induction fields generalizing us with
  | nil =>
    cases h
    exact .nil
  | cons f fs ih =>
    obtain ⟨u, hu, h⟩ := Option.bind_eq_some_iff.mp h
    obtain ⟨us, hus, rfl⟩ := Option.map_eq_some_iff.mp h
    exact .cons ⟨rfl, hu⟩ (ih hus)

end Datum

/-- Two columns that are related make entries that are. -/
theorem forall₂_of_columns {α β γ δ : Type} {R : α → γ → Prop} {Q : β → δ → Prop}
    {as : List (α × β)} {bs : List (γ × δ)}
    (h : List.Forall₂ R (as.map Prod.fst) (bs.map Prod.fst))
    (h' : List.Forall₂ Q (as.map Prod.snd) (bs.map Prod.snd)) :
    List.Forall₂ (fun a b ↦ R a.1 b.1 ∧ Q a.2 b.2) as bs := by
  induction as generalizing bs with
  | nil =>
    rw [List.map_eq_nil_iff.mp (List.forall₂_nil_left_iff.mp h)]
    exact .nil
  | cons a as ih =>
    cases bs with
    | nil => cases h
    | cons b bs =>
      obtain ⟨hab, h⟩ := List.forall₂_cons.mp h
      obtain ⟨hab', h'⟩ := List.forall₂_cons.mp h'
      exact .cons ⟨hab, hab'⟩ (ih h h')

theorem forall₂_of_common {α β γ : Type} {R : α → β → Prop} {Q : α → γ → Prop} {T : β → γ → Prop}
    {as : List α} {bs : List β} {cs : List γ} (hb : List.Forall₂ R as bs)
    (hc : List.Forall₂ Q as cs) (h : ∀ a b c, R a b → Q a c → T b c) : List.Forall₂ T bs cs := by
  induction hb generalizing cs with
  | nil =>
    rw [List.forall₂_nil_left_iff.mp hc]
    exact .nil
  | cons hab _ ih =>
    cases hc with
    | cons hac hc => exact .cons (h _ _ _ hab hac) (ih hc)

namespace Reading

variable {α β : Type}

@[simp] theorem ofOption_some (a : α) : ofOption (some a) = pure a := rfl

theorem mapM_eq {read : β → Reading α} {as : List α} {bs : List β}
    (h : List.Forall₂ (fun a b ↦ read b = pure a) as bs) : bs.mapM read = pure as := by
  induction h with
  | nil => rfl
  | cons h _ ih => rw [List.mapM_cons, h, pure_bind, ih, pure_bind]

end Reading

namespace Source

variable {ν α : Type} {S : Source ν} {n : ν} {d : Datum}

/-- The answers of a node that do not depend on the kind of the tree: whether it is absent, and what
it shows without a type. -/
structure Faces (S : Source ν) (d : Datum) (n : ν) : Prop where
  optional : S.optional n = pure (if d.isNull then none else some n)
  untyped : ∀ u, d.bare? = some u → S.untyped n = pure u

/-- A node that answers as a tree does. No answer uses up a reference. -/
inductive Shows (S : Source ν) : Datum → ν → Prop
  | null {n : ν} (face : S.Faces .null n) : Shows S .null n
  | flag {n : ν} {b : Bool} (face : S.Faces (.flag b) n) (flag : S.flag n = pure b) :
    Shows S (.flag b) n
  | text {n : ν} {s : String} (face : S.Faces (.text s) n) (text : S.text n = pure s)
    (choice : S.choice n = pure (s, none)) : Shows S (.text s) n
  | list {n : ν} {items : List Datum} {ns : List ν} (face : S.Faces (.list items) n)
    (answer : S.items n = pure ns) (inner : List.Forall₂ (Shows S) items ns) :
    Shows S (.list items) n
  | record {n : ν} {fields : List (String × Datum)} {es : List (String × ν)}
    (face : S.Faces (.record fields) n) (entries : S.entries n = pure es)
    (answer : S.fields n = pure (.keyed es)) (payload : S.payloadFields n = pure (.keyed es))
    (names : fields.map Prod.fst = es.map Prod.fst)
    (inner : List.Forall₂ (Shows S) (fields.map Prod.snd) (es.map Prod.snd)) :
    Shows S (.record fields) n
  | variant {n m : ν} {name : String} {payload : Datum} (face : S.Faces (.variant name payload) n)
    (choice : S.choice n = pure (name, some m)) (inner : Shows S payload m) :
    Shows S (.variant name payload) n

namespace Shows

theorem face (h : S.Shows d n) : S.Faces d n := by
  cases h <;> assumption

theorem text_eq {s : String} (h : S.Shows (.text s) n) : S.text n = pure s := by
  cases h with
  | text _ text _ => exact text

theorem flag_eq {b : Bool} (h : S.Shows (.flag b) n) : S.flag n = pure b := by
  cases h with
  | flag _ flag => exact flag

theorem choice_eq {s : String} (h : S.Shows (.text s) n) : S.choice n = pure (s, none) := by
  cases h with
  | text _ _ choice => exact choice

theorem exists_choice {name : String} {payload : Datum} (h : S.Shows (.variant name payload) n) :
    ∃ m, S.choice n = pure (name, some m) ∧ S.Shows payload m := by
  cases h with
  | variant _ choice inner => exact ⟨_, choice, inner⟩

theorem nameOf_eq {named : String → Option α} {s : String} {a : α} (h : S.Shows (.text s) n)
    (ha : named s = some a) : S.nameOf named n = pure a := by
  rw [nameOf, h.choice_eq, pure_bind]
  change Reading.ofOption (named s) = pure a
  rw [ha, Reading.ofOption_some]

/-! ## Lists and absent values -/

theorem listOf_eq {write : α → Datum} {read : ν → Reading α} {as : List α}
    (h : S.Shows (.ofList write as) n)
    (hread : ∀ a ∈ as, ∀ m, S.Shows (write a) m → read m = pure a) :
    S.listOf read n = pure as := by
  cases h with
  | list _ answer inner =>
    rw [listOf, answer, pure_bind]
    rw [List.forall₂_map_left_iff] at inner
    have hall := (List.forall₂_and_left as _).mpr ⟨hread, inner⟩
    exact Reading.mapM_eq (hall.imp fun _ m h ↦ h.1 m h.2)

theorem optionOf_eq {write : α → Datum} {read : ν → Reading α} {a : Option α}
    (h : S.Shows (.ofOption write a) n) (hw : ∀ a, (write a).isNull = false)
    (hread : ∀ a m, S.Shows (write a) m → read m = pure a) :
    S.optionOf read n = pure a := by
  rw [optionOf, h.face.optional, pure_bind]
  cases a with
  | none => rfl
  | some a =>
    rw [Datum.ofOption, hw]
    change (read n >>= fun a ↦ pure (some a)) = pure (some a)
    rw [hread a n h, pure_bind]

/-! ## Records -/

/-- Names that agree and nodes that show the values belong together entry by entry. -/
theorem pairs_of_columns {fields : List (String × Datum)} {es : List (String × ν)}
    (names : fields.map Prod.fst = es.map Prod.fst)
    (inner : List.Forall₂ (Shows S) (fields.map Prod.snd) (es.map Prod.snd)) :
    List.Forall₂ (fun f e ↦ f.1 = e.1 ∧ S.Shows f.2 e.2) fields es :=
  forall₂_of_columns (by rw [names, List.forall₂_same]; exact fun _ _ ↦ rfl) inner

/-- Entry by entry, a record is shown by entries with its names that show its values. -/
theorem record_of_pairs {fields : List (String × Datum)} {es : List (String × ν)}
    (face : S.Faces (.record fields) n) (entries : S.entries n = pure es)
    (answer : S.fields n = pure (.keyed es)) (payload : S.payloadFields n = pure (.keyed es))
    (pairs : List.Forall₂ (fun f e ↦ f.1 = e.1 ∧ S.Shows f.2 e.2) fields es) :
    S.Shows (.record fields) n := by
  have names : List.Forall₂ Eq (fields.map Prod.fst) (es.map Prod.fst) := by
    rw [List.forall₂_map_left_iff, List.forall₂_map_right_iff]
    exact pairs.imp fun _ _ h ↦ h.1
  rw [List.forall₂_eq_eq_eq] at names
  refine .record face entries answer payload names ?_
  rw [List.forall₂_map_left_iff, List.forall₂_map_right_iff]
  exact pairs.imp fun _ _ h ↦ h.2

theorem exists_mem {fields : List (String × Datum)} {es : List (String × ν)}
    (h : List.Forall₂ (fun f e ↦ f.1 = e.1 ∧ S.Shows f.2 e.2) fields es)
    {f : String × Datum} (hf : f ∈ fields) : ∃ e ∈ es, f.1 = e.1 ∧ S.Shows f.2 e.2 := by
  induction h with
  | nil => cases hf
  | @cons g e _ es hge _ ih =>
    rcases List.mem_cons.mp hf with rfl | hf
    · exact ⟨e, List.mem_cons_self, hge⟩
    · obtain ⟨e', he', h⟩ := ih hf
      exact ⟨e', List.mem_cons_of_mem _ he', h⟩

end Shows

end Source

/-! ## Fields

Fields are asked for by name, and what has been asked for is taken away, so that in the end nothing
may be left over. So a lemma for each kind of field says both what is given and what remains, and
the reader of a record goes through the fields of the record from the first to the last. -/

namespace Fields

variable {ν α : Type} {S : Source ν} {fields : List (String × Datum)} {fs : Fields ν}
  {name : String}

/-- Fields that show those of a record. -/
structure Show (S : Source ν) (fields : List (String × Datum)) (fs : Fields ν) : Prop where
  fit : ∀ count, fs.fit count = true
  field : ∀ {name : String} {d : Datum}, (name, d) ∈ fields →
    ∀ index, ∃ m, fs.find? index name = some (some m) ∧ S.Shows d m

theorem find?_keyed {es : List (String × ν)} {m : ν} (hn : (es.map Prod.fst).Nodup)
    (h : (name, m) ∈ es) (index : Nat) : (keyed es).find? index name = some (some m) := by
  have hf : es.filter (·.1 == name) = [(name, m)] := by
    induction es with
    | nil => cases h
    | cons e es ih =>
      rw [List.map_cons, List.nodup_cons] at hn
      rcases List.mem_cons.mp h with rfl | h
      · have hne : ∀ e ∈ es, e.1 ≠ name := fun e he hk ↦ hn.1 (List.mem_map.mpr ⟨e, he, hk⟩)
        simpa [List.filter_cons] using hne
      · have hk : e.1 ≠ name := fun hk ↦ hn.1 (hk ▸ List.mem_map_of_mem h)
        simpa [List.filter_cons, hk] using ih hn.2 h
  rw [find?, hf]

theorem Show.of_keyed {es : List (String × ν)} (hn : (fields.map Prod.fst).Nodup)
    (names : fields.map Prod.fst = es.map Prod.fst)
    (inner : List.Forall₂ S.Shows (fields.map Prod.snd) (es.map Prod.snd)) :
    Show S fields (.keyed es) where
  fit _ := rfl
  field {name d} hmem index := by
    have hpairs := Source.Shows.pairs_of_columns names inner
    obtain ⟨⟨k, m⟩, hm, rfl, hs⟩ := Source.Shows.exists_mem hpairs hmem
    exact ⟨m, find?_keyed (names ▸ hn) hm index, hs⟩

namespace Show

theorem required_eq {read : ν → Reading α} {d : Datum} {a : α} (h : fs.Show S fields)
    (index : Nat) (hd : (name, d) ∈ fields) (hread : ∀ m, S.Shows d m → read m = pure a) :
    fs.required index name read = pure a := by
  obtain ⟨m, hm, hs⟩ := h.field hd index
  rw [required, hm]
  exact hread m hs

theorem defaulted_eq {read : ν → Reading α} {d : Datum} {a missing : α} (h : fs.Show S fields)
    (index : Nat) (hd : (name, d) ∈ fields) (hread : ∀ m, S.Shows d m → read m = pure a) :
    fs.defaulted index name missing read = pure a := by
  obtain ⟨m, hm, hs⟩ := h.field hd index
  rw [defaulted, hm]
  exact hread m hs

theorem optional_eq {read : ν → Reading α} {d : Datum} {a : Option α} (h : fs.Show S fields)
    (index : Nat) (hd : (name, d) ∈ fields)
    (hread : ∀ m, S.Shows d m → S.optionOf read m = pure a) :
    fs.optional S index name read = pure a := by
  obtain ⟨m, hm, hs⟩ := h.field hd index
  rw [optional, hm]
  exact hread m hs

theorem whole_eq (h : fs.Show S fields) (count : Nat) (a : α) : fs.whole count a = pure a := by
  rw [whole, h.fit, if_pos rfl]

end Show

end Fields

namespace Source.Shows

variable {ν : Type} {S : Source ν} {n : ν} {fields : List (String × Datum)}

/-- A record answers with fields that show its own. -/
theorem exists_fields (h : S.Shows (.record fields) n) (hn : (fields.map Prod.fst).Nodup) :
    ∃ fs, S.fields n = pure fs ∧ fs.Show S fields := by
  cases h with
  | record _ _ answer _ names inner => exact ⟨_, answer, .of_keyed hn names inner⟩

/-- A variant that carries a record answers with its name and with fields that show the record's. -/
theorem exists_payload {name : String} (h : S.Shows (.variant name (.record fields)) n)
    (hn : (fields.map Prod.fst).Nodup) :
    ∃ m fs, S.choice n = pure (name, some m) ∧ S.payloadFields m = pure fs ∧ fs.Show S fields := by
  obtain ⟨m, hchoice, hm⟩ := h.exists_choice
  cases hm with
  | record _ _ _ payload names inner => exact ⟨m, _, hchoice, payload, .of_keyed hn names inner⟩

/-! ## Dictionaries -/

theorem readEntries_eq {α : Type} {write : α → Datum} {read : ν → Reading α} {d : Dictionary α}
    (h : S.Shows (.record (d.mapEntries fun _ a ↦ write a).entries) n)
    (hread : ∀ a m, S.Shows (write a) m → read m = pure a) :
    (do
      let es ← (← S.entries n).mapM fun e ↦ return (e.1, ← read e.2)
      return Dictionary.ofList es) = (pure d : Reading (Dictionary α)) := by
  cases h with
  | @record _ _ es _ entries _ _ names inner =>
    have hes : es.mapM (fun e ↦ return (e.1, ← read e.2)) = (pure d.entries : Reading _) := by
      have hpairs := pairs_of_columns names inner
      rw [Dictionary.mapEntries, List.forall₂_map_left_iff] at hpairs
      refine Reading.mapM_eq (hpairs.imp fun e x hx ↦ ?_)
      obtain ⟨hk, hs⟩ := hx
      rw [hread e.2 x.2 hs, pure_bind, ← hk]
    rw [entries, pure_bind, hes, pure_bind, Dictionary.ofList_entries]

end Source.Shows

end BuildFleet
