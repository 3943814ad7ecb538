import BuildFleet.Proofs.SoundTables
import BuildFleet.Table.Document

/-!
# The first fault of a table

A table can be wrong in many places at once, and only one of them is told. Which one it is depends
on an order of places: by the names of the hosts, and within an entry by what is looked at first.
The order is laid down for places alone, and what is wrong at a place is said without regard to any
other fault, so that there is a first fault whether or not anybody looks for it. Looking through the
table finds that one.

Rows and rules are numbered, since two rows of one host can be equal and still be two places. The
indices that are carried along when the rows are looked through are those of the rows in front, and
of them no more is needed here than that nothing was wrong with them.

## How the first fault is found

Looking through goes from left to right and stops at the first thing that is wrong. That what it
stops at is the first fault in the order of places is shown layer by layer: for the rows of an entry
by an induction that keeps the rows in front of the current one, for its copy rules by one that
keeps the rules, for the entry by putting the two behind the name, and for the table by the order of
its keys. What a layer has to tell the next one is that nothing is wrong in front, and where nothing
is wrong is said by the soundness of entries, which knows no places.

A repeated index is a fault of the later row, and it counts only rows of the same host. This is the
one fault that cannot be seen in a row itself, and the reason why the rows in front are kept.
-/

namespace BuildFleet

/-! ## Places -/

/-- A place of an entry at which something can be wrong. -/
inductive EntryPlace where
  | hostname
  | name (row : Nat)
  | index (row : Nat)
  | rule (number : Nat)
  deriving DecidableEq, Repr

/-- Whether a place of an entry comes before another: the name of the host comes first, then the
rows, each with its name before its index, and then the copy rules. -/
def EntryPlace.Before : EntryPlace → EntryPlace → Prop
  | hostname, other => other ≠ hostname
  | name i, name j | index i, name j | index i, index j | rule i, rule j => i < j
  | name i, index j => i ≤ j
  | name _, rule _ | index _, rule _ => True
  | _, _ => False

theorem EntryPlace.Before.asymm {a b : EntryPlace} (h : a.Before b) : ¬ b.Before a := by
  cases a <;> cases b <;> simp only [Before, ne_eq, reduceCtorEq, not_true_eq_false,
    not_false_eq_true] at h ⊢ <;> omega

/-- A place of a table: a host, and a place of its entry. -/
structure TablePlace where
  host : String
  place : EntryPlace
  deriving DecidableEq, Repr

/-- Whether a place of a table comes before another: by the names of the hosts, and for one host by
the places of its entry. -/
def TablePlace.Before (a b : TablePlace) : Prop :=
  a.host < b.host ∨ a.host = b.host ∧ a.place.Before b.place

theorem TablePlace.Before.asymm {a b : TablePlace} (h : a.Before b) : ¬ b.Before a := by
  rintro (hlt | ⟨heq, hplace⟩) <;> rcases h with hlt' | ⟨heq', hplace'⟩
  · exact String.lt_irrefl _ (String.lt_trans hlt hlt')
  · exact String.lt_irrefl _ (heq' ▸ hlt)
  · exact String.lt_irrefl _ (heq ▸ hlt')
  · exact hplace.asymm hplace'

/-! ## Faults -/

/-- What is wrong at a place of an entry that stands under a name. -/
inductive HostEntry.FaultyAt (hostname : String) (e : HostEntry) : EntryPlace → String → Prop
  /-- Nothing is left of the name when it is trimmed. -/
  | hostname (h : Text.trim hostname = "") :
    FaultyAt hostname e .hostname "Host table contains an empty hostname"
  /-- Nothing is left of the name of a worker when it is trimmed. -/
  | name {i : Nat} {row : WorkerEntry} (hrow : e.workers[i]? = some row)
    (h : Text.trim row.name = "") :
    FaultyAt hostname e (.name i) ("Host '" ++ hostname ++ "' declares a worker with an empty name")
  /-- A row has the index of a row above it. -/
  | index {i j : Nat} {row above : WorkerEntry} (hrow : e.workers[i]? = some row)
    (habove : e.workers[j]? = some above) (hlt : j < i) (h : above.index = row.index) :
    FaultyAt hostname e (.index i)
      ("Host '" ++ hostname ++ "' declares worker index '" ++ row.index ++ "' more than once")
  /-- A rule that is listed lacks one of its two ends. -/
  | rule {i : Nat} {rs : List CopyRule} {r : CopyRule} (hrules : e.copies = some (.rules rs))
    (hr : rs[i]? = some r) (h : r.source = "" ∨ r.destination = "") :
    FaultyAt hostname e (.rule i)
      ("Host '" ++ hostname ++ "' has a copy rule with an empty source or destination")

/-- What is wrong at a place of a table. -/
def HostTable.FaultyAt (t : HostTable) (place : TablePlace) (text : String) : Prop :=
  ∃ e, t.hosts.get? place.host = some e ∧ e.FaultyAt place.host place.place text

/-- Of all places where something is wrong, a place comes first, and this is what is wrong there. -/
structure ComesFirst {α : Type} (before : α → α → Prop) (wrong : α → String → Prop) (place : α)
    (text : String) : Prop where
  here : wrong place text
  others : ∀ other text', wrong other text' → other = place ∨ before place other

def HostEntry.IsFirstFault (hostname : String) (e : HostEntry) : EntryPlace → String → Prop :=
  ComesFirst EntryPlace.Before (e.FaultyAt hostname)

/-- The first fault of a table. -/
def HostTable.IsFirstFault (t : HostTable) : TablePlace → String → Prop :=
  ComesFirst TablePlace.Before t.FaultyAt

/-- There is no more than one thing wrong at a place. -/
theorem HostEntry.FaultyAt.unique {hostname : String} {e : HostEntry} {place : EntryPlace}
    {text text' : String} (h : e.FaultyAt hostname place text)
    (h' : e.FaultyAt hostname place text') : text = text' := by
  cases h with
  | hostname | name | rule =>
    cases h'
    rfl
  | index hrow =>
    cases h' with
    | index hrow' => rw [Option.some.inj (hrow.symm.trans hrow')]

theorem HostTable.IsFirstFault.unique {t : HostTable} {place place' : TablePlace}
    {text text' : String} (h : t.IsFirstFault place text) (h' : t.IsFirstFault place' text') :
    text = text' := by
  have hplace : place' = place := by
    rcases h.others _ _ h'.here with heq | hbefore
    · exact heq
    · rcases h'.others _ _ h.here with heq | hbefore'
      · exact heq.symm
      · exact absurd hbefore' hbefore.asymm
  subst hplace
  obtain ⟨e, he, hfaulty⟩ := h.here
  obtain ⟨e', he', hfaulty'⟩ := h'.here
  cases he.symm.trans he'
  exact hfaulty.unique hfaulty'

theorem HostEntry.IsSound.not_faultyAt {hostname : String} {e : HostEntry}
    (h : e.IsSound hostname) (place : EntryPlace) (text : String) :
    ¬ e.FaultyAt hostname place text := by
  intro hfaulty
  cases hfaulty with
  | hostname hblank => exact h.hostname hblank
  | @name i row hrow hblank => exact h.names row (List.mem_of_getElem? hrow) hblank
  | @index i j row above hrow habove hlt heq =>
    -- the column of the indices would hold one of them twice
    have hcolumn : (e.workers.map WorkerEntry.index)[j]? =
        (e.workers.map WorkerEntry.index)[i]? := by
      rw [List.getElem?_map, List.getElem?_map, hrow, habove, Option.map_some, Option.map_some, heq]
    have hbound : i < (e.workers.map WorkerEntry.index).length := by
      rw [List.length_map]
      exact (List.getElem?_eq_some_iff.mp hrow).1
    exact List.nodup_iff_getElem?_ne_getElem?.mp h.indices j i hlt hbound hcolumn
  | @rule i rs r hrules hr hends =>
    have hcomplete := h.rules rs hrules r (List.mem_of_getElem? hr)
    exact hends.elim hcomplete.source hcomplete.destination

/-! ## Looking through a table -/

/-- If a fault is found in rows that come after others, it is that of a row with nothing wrong in
front of it. -/
theorem exists_row_of_workersFault? {hostname : String} {seen : List String}
    {rows : List WorkerEntry} {fault : TableFault}
    (h : workersFault? hostname seen rows = some fault) :
    ∃ before row after, rows = before ++ row :: after ∧ workersFault? hostname seen before = none ∧
      ((Text.trim row.name = "" ∧ fault = .blankWorkerName hostname) ∨
        (Text.trim row.name ≠ "" ∧
          (row.index ∈ seen ∨ row.index ∈ before.map WorkerEntry.index) ∧
          fault = .repeatedIndex hostname row.index)) := by
  induction rows generalizing seen with
  | nil => cases h
  | cons row rows ih =>
    rw [workersFault?] at h
    by_cases hname : Text.allBlank row.name = true
    · rw [if_pos hname] at h
      cases h
      exact ⟨[], row, rows, rfl, rfl, .inl ⟨Text.trim_eq_empty_iff.mpr hname, rfl⟩⟩
    · have hnamed : Text.trim row.name ≠ "" := fun hblank ↦ hname (Text.trim_eq_empty_iff.mp hblank)
      rw [if_neg hname] at h
      by_cases hseen : seen.contains row.index = true
      · rw [if_pos hseen] at h
        cases h
        exact ⟨[], row, rows, rfl, rfl,
          .inr ⟨hnamed, .inl (by simpa using hseen), rfl⟩⟩
      · rw [if_neg hseen] at h
        obtain ⟨before, other, after, rfl, hbefore, hother⟩ := ih h
        refine ⟨row :: before, other, after, rfl, ?_, ?_⟩
        · rw [workersFault?, if_neg hname, if_neg hseen, hbefore]
        · rcases hother with hblank | ⟨hnamed', hrepeated, hfault⟩
          · exact .inl hblank
          · refine .inr ⟨hnamed', ?_, hfault⟩
            -- what the row has added to the indices is now in front
            rw [List.map_cons, List.mem_cons, ← or_assoc, or_comm (a := other.index ∈ seen)]
            rwa [List.mem_cons] at hrepeated

/-- If a fault is found in the copy rules, it is that of a rule with nothing wrong in front of it.
-/
theorem exists_rule_of_copiesFault? {hostname : String} {copies : Option CopiesEntry}
    {fault : TableFault} (h : copiesFault? hostname copies = some fault) :
    ∃ before r after, copies = some (.rules (before ++ r :: after)) ∧
      (∀ other ∈ before, other.IsComplete) ∧ (r.source = "" ∨ r.destination = "") ∧
      fault = .incompleteRule hostname := by
  match copies with
  | none => cases h
  | some .standard => cases h
  | some (.rules rs) =>
    rw [copiesFault?] at h
    split at h
    · rename_i hany
      cases h
      obtain ⟨r, hr⟩ := Option.isSome_iff_exists.mp
        (List.find?_isSome.mpr (List.any_eq_true.mp hany))
      obtain ⟨hincomplete, before, after, rfl, hbefore⟩ := List.find?_eq_some_iff_append.mp hr
      refine ⟨before, r, after, rfl, fun other hother ↦ ?_, ?_, rfl⟩
      · rw [← CopyRule.isIncomplete_eq_false_iff]
        simpa using hbefore other hother
      · simpa [CopyRule.isIncomplete] using hincomplete
    · cases h

namespace HostEntry

variable {hostname : String} {e : HostEntry}

def HasFaultyRow (hostname : String) (e : HostEntry) (i : Nat) : Prop :=
  ∃ text, e.FaultyAt hostname (.name i) text ∨ e.FaultyAt hostname (.index i) text

/-- Where nothing is wrong with the first rows, the rows with a fault come after them. -/
theorem length_le_of_hasFaultyRow (hname : Text.trim hostname ≠ "")
    {before after : List WorkerEntry} (hrows : e.workers = before ++ after)
    (hbefore : workersFault? hostname [] before = none) {i : Nat} (h : e.HasFaultyRow hostname i) :
    before.length ≤ i := by
  by_contra hlt
  have habove : ∀ j ≤ i, e.workers[j]? = before[j]? := by
    intro j hj
    rw [hrows, List.getElem?_append_left (by omega)]
  -- the first rows make a sound entry of their own, which would have the fault as well
  obtain ⟨hnames, hindices, -⟩ := workersFault?_eq_none_iff.mp hbefore
  have hsound : HostEntry.IsSound hostname { workers := before, copies := none } :=
    ⟨hname, hnames, hindices, fun rs hrs ↦ by cases hrs⟩
  obtain ⟨text, h | h⟩ := h
  · cases h with
    | name hrow hblank =>
      rw [habove i (Nat.le_refl i)] at hrow
      exact hsound.not_faultyAt (.name i) _ (.name hrow hblank)
  · cases h with
    | index hrow hother hji heq =>
      rw [habove i (Nat.le_refl i)] at hrow
      rw [habove _ (Nat.le_of_lt hji)] at hother
      exact hsound.not_faultyAt (.index i) _ (.index hrow hother hji heq)

theorem not_faultyAt_hostname (hname : Text.trim hostname ≠ "") (text : String) :
    ¬ e.FaultyAt hostname .hostname text := by
  intro h
  cases h with
  | hostname h => exact hname h

theorem isFirstFault_name (hname : Text.trim hostname ≠ "") {n : Nat} {text : String}
    (h : e.FaultyAt hostname (.name n) text)
    (habove : ∀ i, e.HasFaultyRow hostname i → n ≤ i) :
    e.IsFirstFault hostname (.name n) text := by
  refine ⟨h, fun other text' hother ↦ ?_⟩
  cases other with
  | hostname => exact absurd hother (not_faultyAt_hostname hname text')
  | name i =>
    rcases Nat.eq_or_lt_of_le (habove i ⟨text', .inl hother⟩) with rfl | hlt
    · exact .inl rfl
    · exact .inr hlt
  | index i => exact .inr (habove i ⟨text', .inr hother⟩)
  | rule => exact .inr trivial

theorem isFirstFault_index (hname : Text.trim hostname ≠ "") {n : Nat} {text : String}
    (h : e.FaultyAt hostname (.index n) text)
    (hnamed : ∀ text', ¬ e.FaultyAt hostname (.name n) text')
    (habove : ∀ i, e.HasFaultyRow hostname i → n ≤ i) :
    e.IsFirstFault hostname (.index n) text := by
  refine ⟨h, fun other text' hother ↦ ?_⟩
  cases other with
  | hostname => exact absurd hother (not_faultyAt_hostname hname text')
  | name i =>
    rcases Nat.eq_or_lt_of_le (habove i ⟨text', .inl hother⟩) with rfl | hlt
    · exact absurd hother (hnamed text')
    · exact .inr hlt
  | index i =>
    rcases Nat.eq_or_lt_of_le (habove i ⟨text', .inr hother⟩) with rfl | hlt
    · exact .inl rfl
    · exact .inr hlt
  | rule => exact .inr trivial

/-- The fault that is found in the rows is the first one of the entry, if the host has a name. -/
theorem exists_isFirstFault_of_workersFault? {fault : TableFault}
    (hname : Text.trim hostname ≠ "") (h : workersFault? hostname [] e.workers = some fault) :
    ∃ place, e.IsFirstFault hostname place fault.message := by
  obtain ⟨before, row, after, hrows, hbefore, hrow⟩ := exists_row_of_workersFault? h
  have hplace : e.workers[before.length]? = some row := by
    rw [hrows, List.getElem?_append_right (Nat.le_refl _), Nat.sub_self, List.getElem?_cons_zero]
  have habove : ∀ i, e.HasFaultyRow hostname i → before.length ≤ i :=
    fun _ ↦ length_le_of_hasFaultyRow hname hrows hbefore
  rcases hrow with ⟨hblank, rfl⟩ | ⟨hnamed, hrepeated, rfl⟩
  · exact ⟨_, isFirstFault_name hname (.name hplace hblank) habove⟩
  · rw [List.mem_map, or_iff_right List.not_mem_nil] at hrepeated
    obtain ⟨earlier, hearlier, heq⟩ := hrepeated
    obtain ⟨j, hj⟩ := List.mem_iff_getElem?.mp hearlier
    have hlt : j < before.length := (List.getElem?_eq_some_iff.mp hj).1
    have hplace' : e.workers[j]? = some earlier := by rw [hrows, List.getElem?_append_left hlt, hj]
    refine ⟨_, isFirstFault_index hname (.index hplace hplace' hlt heq) ?_ habove⟩
    intro text' hfaulty
    cases hfaulty with
    | name hrow' hblank =>
      cases hplace.symm.trans hrow'
      exact hnamed hblank

/-- The fault that is found in the copy rules is the first one of the entry, if the host has a name
and nothing is wrong with its rows. -/
theorem exists_isFirstFault_of_copiesFault? {fault : TableFault} (hname : Text.trim hostname ≠ "")
    (hworkers : workersFault? hostname [] e.workers = none)
    (h : copiesFault? hostname e.copies = some fault) :
    ∃ place, e.IsFirstFault hostname place fault.message := by
  obtain ⟨before, r, after, hrules, hbefore, hends, rfl⟩ := exists_rule_of_copiesFault? h
  have hplace : (before ++ r :: after)[before.length]? = some r := by
    rw [List.getElem?_append_right (Nat.le_refl _), Nat.sub_self, List.getElem?_cons_zero]
  -- no row is left for a fault
  have hrows : ∀ i, ¬ e.HasFaultyRow hostname i := by
    intro i hfaulty
    have hle := length_le_of_hasFaultyRow hname (List.append_nil _).symm hworkers hfaulty
    obtain ⟨row, hrow⟩ : ∃ row, e.workers[i]? = some row := by
      obtain ⟨text, hfaulty | hfaulty⟩ := hfaulty
      · cases hfaulty with
        | name hrow => exact ⟨_, hrow⟩
      · cases hfaulty with
        | index hrow => exact ⟨_, hrow⟩
    exact absurd (List.getElem?_eq_some_iff.mp hrow).1 (Nat.not_lt.mpr hle)
  refine ⟨.rule before.length, .rule hrules hplace hends, fun other text' hother ↦ ?_⟩
  cases other with
  | hostname => exact absurd hother (not_faultyAt_hostname hname text')
  | name i => exact absurd ⟨text', .inl hother⟩ (hrows i)
  | index i => exact absurd ⟨text', .inr hother⟩ (hrows i)
  | rule i =>
    cases hother with
    | rule hrules' hr' hends' =>
      cases hrules.symm.trans hrules'
      rcases Nat.lt_trichotomy i before.length with hlt | rfl | hlt
      · rw [List.getElem?_append_left hlt] at hr'
        have hcomplete := hbefore _ (List.mem_of_getElem? hr')
        exact absurd hends' (not_or.mpr ⟨hcomplete.source, hcomplete.destination⟩)
      · exact .inl rfl
      · exact .inr hlt

theorem exists_isFirstFault {fault : TableFault} (h : e.fault? hostname = some fault) :
    ∃ place, e.IsFirstFault hostname place fault.message := by
  rw [fault?] at h
  by_cases hblank : Text.allBlank hostname = true
  · rw [if_pos hblank] at h
    cases h
    refine ⟨.hostname, .hostname (Text.trim_eq_empty_iff.mpr hblank), fun other text' _ ↦ ?_⟩
    -- every other place comes after the name of the host
    exact Decidable.or_iff_not_imp_left.mpr id
  · have hname : Text.trim hostname ≠ "" := fun h ↦ hblank (Text.trim_eq_empty_iff.mp h)
    rw [if_neg hblank, Option.or_eq_some_iff] at h
    rcases h with hworkers | ⟨hworkers, hcopies⟩
    · exact exists_isFirstFault_of_workersFault? hname hworkers
    · exact exists_isFirstFault_of_copiesFault? hname hworkers hcopies

end HostEntry

namespace HostTable

variable {t : HostTable}

/-- The fault that is found in a table is the first one that it has. -/
theorem exists_isFirstFault {fault : TableFault} (h : t.fault? = some fault) :
    ∃ place, t.IsFirstFault place fault.message := by
  rw [fault?, List.findSome?_eq_some_iff] at h
  obtain ⟨before, ⟨hostname, e⟩, after, hentries, hfault, hbefore⟩ := h
  obtain ⟨place, hfaulty, hothers⟩ := HostEntry.exists_isFirstFault hfault
  have hget : t.hosts.get? hostname = some e := by
    rw [Dictionary.get?_eq_some_iff, hentries]
    exact List.mem_append_right _ List.mem_cons_self
  refine ⟨⟨hostname, place⟩, ⟨e, hget, hfaulty⟩, ?_⟩
  rintro ⟨other, place'⟩ text' ⟨e', hget', hfaulty'⟩
  have hmem := Dictionary.get?_eq_some_iff.mp hget'
  rw [hentries, List.mem_append, List.mem_cons] at hmem
  rcases hmem with hmem | heq | hmem
  · -- nothing is wrong with the hosts that come first
    have hsound := HostEntry.fault?_eq_none_iff.mp (hbefore _ hmem)
    exact absurd hfaulty' (hsound.not_faultyAt place' text')
  · cases heq
    rcases hothers place' text' hfaulty' with rfl | hlt
    · exact .inl rfl
    · exact .inr (.inr ⟨rfl, hlt⟩)
  · have hsorted := t.hosts.sorted
    rw [hentries] at hsorted
    exact .inr (.inl ((List.pairwise_cons.mp (List.pairwise_append.mp hsorted).2.1).1 _ hmem))

/-- A table is accepted if it is sound. If it is not, it has a first fault, and this is what is told
of it. -/
theorem checked_tells_first_fault (t : HostTable) :
    (t.checked = .ok t ↔ t.IsSound) ∧
      (t.IsSound ∨ ∃ place text, t.IsFirstFault place text) ∧
      ∀ text, (∃ fault, t.checked = .error (.faulty fault) ∧ fault.message = text) ↔
        ∃ place, t.IsFirstFault place text := by
  cases h : t.fault? with
  | none =>
    have hsound := fault?_eq_none_iff.mp h
    have hchecked : t.checked = .ok t := by rw [checked, h]
    refine ⟨iff_of_true hchecked hsound, .inl hsound, fun text ↦ ?_⟩
    rw [hchecked]
    refine iff_of_false (by rintro ⟨fault, hfault, -⟩; cases hfault) ?_
    rintro ⟨place, ⟨e, he, hfaulty⟩, -⟩
    exact (hsound.of_get? he).not_faultyAt place.place text hfaulty
  | some fault =>
    have hunsound : ¬ t.IsSound := by
      rw [← fault?_eq_none_iff, h]
      exact Option.some_ne_none _
    have hchecked : t.checked = .error (.faulty fault) := by rw [checked, h]
    obtain ⟨place, hfirst⟩ := exists_isFirstFault h
    refine ⟨iff_of_false (by rw [hchecked]; exact fun h ↦ by cases h) hunsound,
      .inr ⟨place, _, hfirst⟩, fun text ↦ ⟨?_, ?_⟩⟩
    · rintro ⟨fault', hfault', rfl⟩
      cases hchecked.symm.trans hfault'
      exact ⟨place, hfirst⟩
    · rintro ⟨place', hfirst'⟩
      exact ⟨fault, hchecked, hfirst.unique hfirst'⟩

/-- Of a host with a repeated index, a blank name further down and an empty rule, and of another one
with a blank worker, only the index is told. -/
example : checked ⟨(Dictionary.empty.insert "b" { workers := [⟨"", "0", false⟩] }).insert "a"
      { workers := [⟨"x", "1", false⟩, ⟨"y", "1", true⟩, ⟨" ", "2", true⟩],
        copies := some (.rules [⟨"", ""⟩]) }⟩ =
    .error (.faulty (.repeatedIndex "a" "1")) := by decide

end HostTable

end BuildFleet
