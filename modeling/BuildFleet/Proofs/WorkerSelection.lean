import BuildFleet.Table.Basic

/-!
# The worker that a selector picks

A selector is a text that may be the name of a worker or the index of one, and names come first. The
same rule is wanted for the workers of a host and for the rows of its entry in the table, so it is
laid down for rows of any kind that have a name and an index. Rows that are made of others by a
function are picked as those are, which carries a selection from a host back to the table.
-/

namespace BuildFleet

/-! ## The rule -/

/-- The row that a selector picks out of rows with names and indices; `home` is the name that counts
when there is no selector. -/
inductive Picks {α : Type} (name index : α → String) (home : String) (rows : List α) :
    Option String → α → Prop
  /-- The first row with that name. -/
  | named {selector : String} {row : α} (h : rows.find? (fun a ↦ name a == selector) = some row) :
    Picks name index home rows (some selector) row
  /-- The first row with that index, if no row has that name. -/
  | indexed {selector : String} {row : α} (hn : ∀ a ∈ rows, name a ≠ selector)
    (h : rows.find? (fun a ↦ index a == selector) = some row) :
    Picks name index home rows (some selector) row
  /-- Without a selector, the first row with the name of the home. -/
  | homonymous {row : α} (h : rows.find? (fun a ↦ name a == home) = some row) :
    Picks name index home rows none row
  /-- Without a selector, the first row of all, if no row has the name of the home. -/
  | leading {row : α} (hn : ∀ a ∈ rows, name a ≠ home) (h : rows.head? = some row) :
    Picks name index home rows none row

namespace Picks

variable {α β : Type} {name index : α → String} {home : String} {rows : List α}
  {selector : Option String} {row row' : α}

theorem find?_eq_none {key : α → String} {s : String} :
    rows.find? (fun a ↦ key a == s) = none ↔ ∀ a ∈ rows, key a ≠ s := by
  simp [List.find?_eq_none]

theorem unique (h : Picks name index home rows selector row)
    (h' : Picks name index home rows selector row') : row = row' := by
  cases h with
  | named h =>
    cases h' with
    | named h' => exact Option.some.inj (h.symm.trans h')
    | indexed hn _ =>
      rw [find?_eq_none.mpr hn] at h
      cases h
  | indexed hn h =>
    cases h' with
    | named h' =>
      rw [find?_eq_none.mpr hn] at h'
      cases h'
    | indexed _ h' => exact Option.some.inj (h.symm.trans h')
  | homonymous h =>
    cases h' with
    | homonymous h' => exact Option.some.inj (h.symm.trans h')
    | leading hn _ =>
      rw [find?_eq_none.mpr hn] at h
      cases h
  | leading hn h =>
    cases h' with
    | homonymous h' =>
      rw [find?_eq_none.mpr hn] at h'
      cases h'
    | leading _ h' => exact Option.some.inj (h.symm.trans h')

theorem mem (h : Picks name index home rows selector row) : row ∈ rows := by
  cases h with
  | named h | indexed _ h | homonymous h => exact List.mem_of_find?_eq_some h
  | leading _ h => exact List.mem_of_head? h

theorem answers {s : String} (h : Picks name index home rows (some s) row) :
    name row = s ∨ index row = s := by
  cases h with
  | named h => exact .inl (by simpa using List.find?_some h)
  | indexed _ h => exact .inr (by simpa using List.find?_some h)

/-- What is picked out of rows made by a function is made of what is picked out of the others. -/
theorem of_map {f : β → α} {rows : List β} (h : Picks name index home (rows.map f) selector row) :
    ∃ row', Picks (name ∘ f) (index ∘ f) home rows selector row' ∧ f row' = row := by
  -- a search through the made rows is one through the others
  have hsearch : ∀ {key : α → String} {s : String},
      (rows.map f).find? (fun a ↦ key a == s) = some row →
        ∃ row', rows.find? (fun b ↦ key (f b) == s) = some row' ∧ f row' = row := by
    intro key s hs
    rw [List.find?_map] at hs
    exact Option.map_eq_some_iff.mp hs
  have hnone : ∀ {s : String}, (∀ a ∈ rows.map f, name a ≠ s) →
      ∀ b ∈ rows, name (f b) ≠ s := fun hn b hb ↦ hn (f b) (List.mem_map_of_mem hb)
  cases h with
  | named h =>
    obtain ⟨row', hs, hrow⟩ := hsearch h
    exact ⟨row', .named hs, hrow⟩
  | indexed hn h =>
    obtain ⟨row', hs, hrow⟩ := hsearch h
    exact ⟨row', .indexed (hnone hn) hs, hrow⟩
  | homonymous h =>
    obtain ⟨row', hs, hrow⟩ := hsearch h
    exact ⟨row', .homonymous hs, hrow⟩
  | leading hn h =>
    rw [List.head?_map] at h
    obtain ⟨row', hs, hrow⟩ := Option.map_eq_some_iff.mp h
    exact ⟨row', .leading (hnone hn) hs, hrow⟩

end Picks

/-! ## Hosts -/

namespace Host

/-- The worker of a host that a selector picks. -/
def Selects (h : Host) : Option String → Worker → Prop :=
  Picks Worker.name Worker.index h.hostname h.workers

def Lacks (h : Host) (selector : String) : Prop :=
  ∀ w ∈ h.workers, w.name ≠ selector ∧ w.index ≠ selector

/-- Every selection ends in one of three ways. -/
theorem selectWorker_cases (h : Host) (selector : Option String) :
    (h.workers = [] ∧ h.selectWorker selector =
        .error (.configuration ("host '" ++ h.hostname ++ "' has no provisioned workers"))) ∨
      (h.workers ≠ [] ∧ ∃ s, selector = some s ∧ h.Lacks s ∧ h.selectWorker selector =
        .error (.configuration
          ("host '" ++ h.hostname ++ "' has no worker named or indexed '" ++ s ++ "'"))) ∨
      ∃ w, h.Selects selector w ∧ h.selectWorker selector = .ok w := by
  rw [selectWorker]
  split
  · rename_i hnil
    exact .inl ⟨hnil, rfl⟩
  · rename_i first rest hcons
    refine .inr ?_
    cases selector with
    | none =>
      refine .inr ?_
      cases hw : h.worker? h.hostname with
      | some w => exact ⟨w, .homonymous hw, rfl⟩
      | none =>
        exact ⟨first, .leading (Picks.find?_eq_none.mp hw) (by rw [hcons]; rfl), rfl⟩
    | some s =>
      dsimp only
      cases hw : h.worker? s with
      | some w => exact .inr ⟨w, .named hw, rfl⟩
      | none =>
        have hnames := Picks.find?_eq_none.mp hw
        rw [Option.none_or]
        cases hi : h.workerByIndex? s with
        | some w => exact .inr ⟨w, .indexed hnames hi, rfl⟩
        | none =>
          have hindices := Picks.find?_eq_none.mp hi
          exact .inl ⟨by rw [hcons]; exact List.cons_ne_nil _ _, s, rfl,
            fun w hm ↦ ⟨hnames w hm, hindices w hm⟩, rfl⟩

/-- A run acts as the worker that the selector picks. -/
theorem selects_of_selectWorker {h : Host} {selector : Option String} {w : Worker}
    (hw : h.selectWorker selector = .ok w) : h.Selects selector w := by
  rcases h.selectWorker_cases selector with ⟨-, herror⟩ | ⟨-, s, -, -, herror⟩ | ⟨w', hs, hok⟩
  · rw [herror] at hw
    cases hw
  · rw [herror] at hw
    cases hw
  · rw [hok] at hw
    cases hw
    exact hs

end Host

/-! ## Entries of the table -/

/-- The row of an entry that a selector picks, for a host of that name. -/
def HostEntry.Selects (e : HostEntry) (hostname : String) : Option String → WorkerEntry → Prop :=
  Picks WorkerEntry.name WorkerEntry.index hostname e.workers

/-- The worker that is picked of a host of the table stands for the row that is picked. -/
theorem HostEntry.selects_of_toHost {e : HostEntry} {hostname : String} {selector : Option String}
    {w : Worker} (h : (e.toHost hostname).Selects selector w) :
    ∃ row, e.Selects hostname selector row ∧ row.toWorker = w :=
  Picks.of_map h

end BuildFleet
