import BuildFleet.Table.Basic
import Mathlib.Data.List.Nodup

/-!
# Sound tables

A table is looked through in a certain order, host by host and row by row, and the first fault that
is met is reported. That nothing is met says more simply what the table is like: no name is blank,
no host gives an index twice, and every explicit rule has both of its ends.

The indices met so far are carried along when the rows of a host are looked through, so what is
shown by induction is about rows that come after others.
-/

namespace BuildFleet

structure CopyRule.IsComplete (r : CopyRule) : Prop where
  source : r.source ≠ ""
  destination : r.destination ≠ ""

theorem CopyRule.isIncomplete_eq_false_iff {r : CopyRule} :
    r.isIncomplete = false ↔ r.IsComplete := by
  rw [isIncomplete, Bool.or_eq_false_iff]
  constructor
  · rintro ⟨hs, hd⟩
    exact ⟨by simpa using hs, by simpa using hd⟩
  · rintro ⟨hs, hd⟩
    exact ⟨by simpa using hs, by simpa using hd⟩

/-- Nothing is wrong with an entry that stands under a name. -/
structure HostEntry.IsSound (hostname : String) (e : HostEntry) : Prop where
  hostname : Text.trim hostname ≠ ""
  names : ∀ row ∈ e.workers, Text.trim row.name ≠ ""
  indices : (e.workers.map WorkerEntry.index).Nodup
  rules : ∀ rs, e.copies = some (.rules rs) → ∀ r ∈ rs, r.IsComplete

/-- Nothing is wrong with any entry of a table. -/
def HostTable.IsSound (t : HostTable) : Prop :=
  ∀ e ∈ t.hosts.entries, e.2.IsSound e.1

theorem Text.allBlank_eq_false_iff {s : String} : allBlank s = false ↔ trim s ≠ "" := by
  rw [Ne, trim_eq_empty_iff, Bool.not_eq_true]

/-- Rows that come after others of the same host are found without fault if their names and their
indices are in order, and none of their indices has been met before. -/
theorem workersFault?_eq_none_iff {hostname : String} {seen : List String}
    {rows : List WorkerEntry} :
    workersFault? hostname seen rows = none ↔
      (∀ row ∈ rows, Text.trim row.name ≠ "") ∧ (rows.map WorkerEntry.index).Nodup ∧
        ∀ row ∈ rows, row.index ∉ seen := by
  induction rows generalizing seen with
  | nil => simp [workersFault?]
  | cons row rows ih =>
    rw [workersFault?]
    cases hname : Text.allBlank row.name with
    | true =>
      have hblank := Text.trim_eq_empty_iff.mpr hname
      simp [hblank]
    | false =>
      have hnamed := Text.allBlank_eq_false_iff.mp hname
      by_cases hseen : row.index ∈ seen
      · simp [hseen]
      · -- the index of the row joins those that have been met
        have hfresh : ∀ other : WorkerEntry, other.index ∉ row.index :: seen ↔
            other.index ≠ row.index ∧ other.index ∉ seen := by
          intro other
          rw [List.mem_cons, not_or]
        have hcontains : seen.contains row.index = false := by simpa using hseen
        rw [if_neg Bool.false_ne_true, hcontains, if_neg Bool.false_ne_true, ih,
          List.forall_mem_cons, List.forall_mem_cons, List.map_cons, List.nodup_cons]
        simp only [hfresh, forall_and]
        constructor
        · rintro ⟨hnames, hnodup, hne, hunseen⟩
          refine ⟨⟨hnamed, hnames⟩, ⟨?_, hnodup⟩, hseen, hunseen⟩
          intro hmem
          obtain ⟨other, hother, heq⟩ := List.mem_map.mp hmem
          exact hne other hother heq
        · rintro ⟨⟨-, hnames⟩, ⟨hne, hnodup⟩, -, hunseen⟩
          exact ⟨hnames, hnodup,
            fun other hother heq ↦ hne (heq ▸ List.mem_map_of_mem hother), hunseen⟩

theorem copiesFault?_eq_none_iff {hostname : String} {copies : Option CopiesEntry} :
    copiesFault? hostname copies = none ↔
      ∀ rs, copies = some (.rules rs) → ∀ r ∈ rs, r.IsComplete := by
  match copies with
  | none => simp [copiesFault?]
  | some .standard => simp [copiesFault?]
  | some (.rules rs) =>
    have hany : rs.any CopyRule.isIncomplete = false ↔ ∀ r ∈ rs, r.IsComplete := by
      simp only [List.any_eq_false, Bool.not_eq_true, CopyRule.isIncomplete_eq_false_iff]
    rw [copiesFault?]
    constructor
    · intro h rs' heq
      cases heq
      refine hany.mp ?_
      cases hc : rs.any CopyRule.isIncomplete with
      | true => simp [hc] at h
      | false => rfl
    · intro h
      rw [hany.mpr (h rs rfl), if_neg Bool.false_ne_true]

theorem HostEntry.fault?_eq_none_iff {hostname : String} {e : HostEntry} :
    e.fault? hostname = none ↔ e.IsSound hostname := by
  rw [fault?]
  cases hname : Text.allBlank hostname with
  | true =>
    have hblank := Text.trim_eq_empty_iff.mpr hname
    exact ⟨fun h ↦ by simp at h, fun h ↦ absurd hblank h.hostname⟩
  | false =>
    rw [if_neg Bool.false_ne_true, Option.or_eq_none_iff, workersFault?_eq_none_iff,
      copiesFault?_eq_none_iff]
    constructor
    · rintro ⟨⟨hnames, hindices, -⟩, hrules⟩
      exact ⟨Text.allBlank_eq_false_iff.mp hname, hnames, hindices, hrules⟩
    · intro h
      exact ⟨⟨h.names, h.indices, fun _ _ ↦ List.not_mem_nil⟩, h.rules⟩

/-- A table is found without fault if it is sound. -/
theorem HostTable.fault?_eq_none_iff {t : HostTable} : t.fault? = none ↔ t.IsSound := by
  simp only [fault?, List.findSome?_eq_none_iff, HostEntry.fault?_eq_none_iff, IsSound]

theorem HostTable.IsSound.of_get? {t : HostTable} (h : t.IsSound) {hostname : String}
    {e : HostEntry} (he : t.hosts.get? hostname = some e) : e.IsSound hostname :=
  h _ (Dictionary.mem_entries_of_get? he)

end BuildFleet
