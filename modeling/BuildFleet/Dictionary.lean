/-!
# Dictionaries keyed by text

A dictionary keeps its entries in strictly increasing key order, so that two dictionaries with the
same content are equal and the order of listing is a property of the type rather than of the way the
dictionary was filled. Keys are compared character by character, by code point.
-/

namespace BuildFleet

/-- Entries with texts as keys, in strictly increasing order of the keys. -/
structure Dictionary (α : Type) where
  /-- The entries, least key first. -/
  entries : List (String × α)
  /-- Each key is less than every later one. -/
  sorted : entries.Pairwise fun a b ↦ a.1 < b.1

namespace Dictionary

variable {α β : Type}

@[ext] theorem ext {d e : Dictionary α} (h : d.entries = e.entries) : d = e := by
  cases d; cases e; simp_all

instance [DecidableEq α] : DecidableEq (Dictionary α) := fun d e ↦
  decidable_of_iff (d.entries = e.entries) ⟨ext, fun h ↦ h ▸ rfl⟩

/-- The dictionary without entries. -/
def empty : Dictionary α := ⟨[], List.Pairwise.nil⟩

instance : Inhabited (Dictionary α) := ⟨empty⟩

/-- Insertion into a sorted list of entries; an entry with the same key is replaced. -/
def insertEntry (k : String) (a : α) : List (String × α) → List (String × α)
  | [] => [(k, a)]
  | (l, b) :: rest =>
    if k < l then (k, a) :: (l, b) :: rest
    else if k = l then (k, a) :: rest
    else (l, b) :: insertEntry k a rest

theorem mem_insertEntry {k : String} {a : α} {e : String × α} {es : List (String × α)}
    (h : e ∈ insertEntry k a es) : e = (k, a) ∨ e ∈ es := by
  induction es with
  | nil => exact .inl (by simpa [insertEntry] using h)
  | cons x rest ih =>
    obtain ⟨l, b⟩ := x
    rw [insertEntry] at h
    split at h
    · simpa using h
    · split at h
      · rcases List.mem_cons.1 h with rfl | h
        · exact .inl rfl
        · exact .inr (List.mem_cons_of_mem _ h)
      · rcases List.mem_cons.1 h with rfl | h
        · exact .inr List.mem_cons_self
        · exact (ih h).imp_right (List.mem_cons_of_mem _)

theorem pairwise_insertEntry (k : String) (a : α) {es : List (String × α)}
    (h : es.Pairwise fun a b ↦ a.1 < b.1) :
    (insertEntry k a es).Pairwise fun a b ↦ a.1 < b.1 := by
  induction es with
  | nil => simp [insertEntry]
  | cons x rest ih =>
    obtain ⟨l, b⟩ := x
    obtain ⟨hl, hr⟩ := List.pairwise_cons.1 h
    rw [insertEntry]
    split
    · rename_i hkl
      refine List.pairwise_cons.2 ⟨fun e he ↦ ?_, h⟩
      rcases List.mem_cons.1 he with rfl | he
      · exact hkl
      · exact String.lt_trans hkl (hl e he)
    · split
      · rename_i hkl
        exact List.pairwise_cons.2 ⟨fun e he ↦ hkl ▸ hl e he, hr⟩
      · rename_i h1 h2
        refine List.pairwise_cons.2 ⟨fun e he ↦ ?_, ih hr⟩
        rcases mem_insertEntry he with rfl | he
        · exact ((Std.lt_trichotomy k l).resolve_left h1).resolve_left h2
        · exact hl e he

/-- The dictionary with one more entry; an entry with the same key is replaced. -/
def insert (d : Dictionary α) (k : String) (a : α) : Dictionary α :=
  ⟨insertEntry k a d.entries, pairwise_insertEntry k a d.sorted⟩

/-- The dictionary of a list of entries, of which the last one with a key counts. -/
def ofList (es : List (String × α)) : Dictionary α :=
  es.foldl (fun d e ↦ d.insert e.1 e.2) empty

/-- An entry with a key above all others goes to the end. -/
theorem insertEntry_of_forall_lt {k : String} {a : α} {es : List (String × α)}
    (h : ∀ e ∈ es, e.1 < k) : insertEntry k a es = es ++ [(k, a)] := by
  induction es with
  | nil => rfl
  | cons e es ih =>
    have hlt : e.1 < k := h e List.mem_cons_self
    have hne : k ≠ e.1 := fun hk ↦ String.lt_irrefl k (hk ▸ hlt)
    rw [insertEntry, if_neg (String.lt_asymm hlt), if_neg hne,
      ih fun e he ↦ h e (List.mem_cons_of_mem _ he), List.cons_append]

/-- The entries of a dictionary make up that dictionary. -/
theorem ofList_entries (d : Dictionary α) : ofList d.entries = d := by
  -- what has been inserted so far lies below what is still to come
  suffices h : ∀ (es : List (String × α)) (acc : Dictionary α),
      (acc.entries ++ es).Pairwise (fun a b ↦ a.1 < b.1) →
        (es.foldl (fun d e ↦ d.insert e.1 e.2) acc).entries = acc.entries ++ es from
    ext (h d.entries empty d.sorted)
  intro es
  induction es with
  | nil => simp
  | cons e es ih =>
    intro acc hsorted
    have hlast : (acc.insert e.1 e.2).entries = acc.entries ++ [e] :=
      insertEntry_of_forall_lt fun x hx ↦
        (List.pairwise_append.mp hsorted).2.2 x hx e List.mem_cons_self
    rw [List.foldl_cons, ih _ (by rw [hlast]; simpa using hsorted), hlast]
    simp

/-- What stands under a key. -/
def get? (d : Dictionary α) (k : String) : Option α :=
  (d.entries.find? fun e ↦ e.1 == k).map Prod.snd

theorem mem_entries_of_get? {d : Dictionary α} {k : String} {a : α} (h : d.get? k = some a) :
    (k, a) ∈ d.entries := by
  obtain ⟨e, he, rfl⟩ := Option.map_eq_some_iff.1 h
  have hk : e.1 = k := by simpa using List.find?_some he
  exact hk ▸ List.mem_of_find?_eq_some he

/-- What stands beside a key among sorted entries is found under it. -/
theorem find?_of_mem {es : List (String × α)} (h : es.Pairwise fun a b ↦ a.1 < b.1)
    {k : String} {a : α} (hmem : (k, a) ∈ es) : es.find? (fun e ↦ e.1 == k) = some (k, a) := by
  induction es with
  | nil => cases hmem
  | cons e es ih =>
    obtain ⟨hbelow, hsorted⟩ := List.pairwise_cons.1 h
    rw [List.find?_cons]
    rcases List.mem_cons.1 hmem with rfl | hmem
    · rw [beq_self_eq_true]
    · -- the keys that come first are smaller
      have hne : (e.1 == k) = false := by
        rw [beq_eq_false_iff_ne]
        rintro rfl
        exact String.lt_irrefl _ (hbelow (e.1, a) hmem)
      rw [hne]
      exact ih hsorted hmem

theorem get?_eq_some_iff {d : Dictionary α} {k : String} {a : α} :
    d.get? k = some a ↔ (k, a) ∈ d.entries := by
  refine ⟨mem_entries_of_get?, fun h ↦ ?_⟩
  rw [get?, find?_of_mem d.sorted h, Option.map_some]

theorem find?_insertEntry (k l : String) (a : α) (es : List (String × α)) :
    (insertEntry k a es).find? (fun e ↦ e.1 == l) =
      if l = k then some (k, a) else es.find? (fun e ↦ e.1 == l) := by
  induction es with
  | nil =>
    rw [insertEntry, List.find?_cons, List.find?_nil]
    by_cases hl : l = k
    · simp [hl]
    · simp [hl, beq_false_of_ne (Ne.symm hl)]
  | cons e es ih =>
    obtain ⟨m, b⟩ := e
    rw [insertEntry]
    by_cases hl : l = k
    · -- what comes first under the key is what has been inserted
      rw [if_pos hl] at ih ⊢
      subst hl
      split
      · simp
      · split
        · simp
        · rename_i _ hne
          rw [List.find?_cons, beq_false_of_ne (Ne.symm hne)]
          exact ih
    · have hkl : (k == l) = false := beq_false_of_ne (Ne.symm hl)
      rw [if_neg hl] at ih ⊢
      split
      · rw [List.find?_cons, hkl]
      · split
        · rename_i _ hkm
          rw [List.find?_cons, hkl, List.find?_cons, ← hkm, hkl]
        · rw [List.find?_cons, List.find?_cons, ih]

/-- The inserted key gives what was inserted, and every other one what it gave before. -/
theorem get?_insert (d : Dictionary α) (k l : String) (a : α) :
    (d.insert k a).get? l = if l = k then some a else d.get? l := by
  rw [get?, insert, find?_insertEntry, apply_ite (Option.map Prod.snd)]
  rfl

/-- A dictionary is determined by what stands under each key. -/
theorem ext_get? {d e : Dictionary α} (h : ∀ k, d.get? k = e.get? k) : d = e := by
  have hnodup : ∀ d : Dictionary α, d.entries.Nodup := by
    intro d
    refine d.sorted.imp fun {a b} hlt heq ↦ ?_
    rw [heq] at hlt
    exact String.lt_irrefl _ hlt
  have hperm : d.entries.Perm e.entries := by
    rw [List.perm_ext_iff_of_nodup (hnodup d) (hnodup e)]
    rintro ⟨k, a⟩
    rw [← get?_eq_some_iff, ← get?_eq_some_iff, h]
  exact ext (hperm.eq_of_pairwise (fun a b _ _ hab hba ↦ absurd hba (String.lt_asymm hab))
    d.sorted e.sorted)

/-- Entries with different keys may be inserted in either order. -/
theorem insert_comm (d : Dictionary α) {k l : String} (h : k ≠ l) (a b : α) :
    (d.insert k a).insert l b = (d.insert l b).insert k a := by
  refine ext_get? fun m ↦ ?_
  simp only [get?_insert]
  by_cases hl : m = l
  · rw [if_pos hl, if_neg (fun hk ↦ h (hk.symm.trans hl)), if_pos hl]
  · rw [if_neg hl, if_neg hl]

/-- Whether something stands under a key. -/
def contains (d : Dictionary α) (k : String) : Bool :=
  d.entries.any fun e ↦ e.1 == k

/-- Something stands under a key if the key is found. -/
theorem contains_eq_isSome_get? (d : Dictionary α) (k : String) :
    d.contains k = (d.get? k).isSome := by
  rw [contains, get?, Option.isSome_map, List.isSome_find?]

/-- The keys in increasing order. -/
def keys (d : Dictionary α) : List String :=
  d.entries.map Prod.fst

theorem contains_iff_mem_keys {d : Dictionary α} {k : String} :
    d.contains k = true ↔ k ∈ d.keys := by
  simp [contains, keys, List.any_eq_true]

theorem pairwise_keys (d : Dictionary α) : d.keys.Pairwise (· < ·) :=
  List.pairwise_map.2 d.sorted

/-- What stands under the keys, in the order of the keys. -/
def values (d : Dictionary α) : List α :=
  d.entries.map Prod.snd

/-- The number of entries. -/
def size (d : Dictionary α) : Nat :=
  d.entries.length

/-- Every entry replaced by a function of its key and of what stands under it. -/
def mapEntries (f : String → α → β) (d : Dictionary α) : Dictionary β where
  entries := d.entries.map fun e ↦ (e.1, f e.1 e.2)
  sorted := List.pairwise_map.2 (d.sorted.imp fun h ↦ h)

theorem get?_mapEntries (f : String → α → β) (d : Dictionary α) (k : String) :
    (d.mapEntries f).get? k = (d.get? k).map (f k) := by
  rw [get?, get?, mapEntries, List.find?_map, Option.map_map, Option.map_map]
  refine Option.map_congr fun e he ↦ ?_
  have hk : e.1 = k := by simpa using List.find?_some he
  rw [← hk]
  rfl

end Dictionary

end BuildFleet
