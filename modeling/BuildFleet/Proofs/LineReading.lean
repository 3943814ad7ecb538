import BuildFleet.CommandLine.Grammar
import Mathlib.Data.List.Nodup
import Mathlib.Data.List.Perm.Basic

/-!
# Lines in any order

A line gives a parameter by an option with its value attached, or by a word of its own. If no
parameter is given twice, each step of the reading only adds what its word gives, so the order of
the words shows in nothing but the order of the findings, and a name is looked up in these by its
own entry. What is left out is then filled in, parameter by parameter, from the environment and from
the defaults.

## What the reading keeps

The state of the reading holds what it has found and what it is waiting for. With values attached to
their options nothing is ever awaited between two words, and `LineState.Holds` says so together with
the list of what has been found. One lemma for an option and one for a word of its own say what the
next step adds. The positional words have to come in the order of their parameters, which is the one
thing about the order of a line that is left, and a grammar with one of them has no order at all.

## What completing adds

The environment is asked for all parameters that have not been found, in the order of the grammar,
and the first value that breaks a rule ends everything. Defaults come last and cannot fail. Since
names are found at most once in each of the three places, what a name gets is the first of the line,
the environment and the default that has something for it.
-/

namespace BuildFleet.CommandLine

/-! ## Looking up findings -/

namespace Findings

variable {fs fs' : Findings} {name : String}

theorem get?_append (fs fs' : Findings) (name : String) :
    get? (fs ++ fs') name = (fs.get? name).or (fs'.get? name) :=
  List.find?_append

theorem get?_cons (f : Found) (fs : Findings) (name : String) :
    get? (f :: fs) name = if f.name = name then some f else fs.get? name := by
  rw [get?, List.find?_cons]
  by_cases h : f.name = name
  · simp [h]
  · rw [if_neg h, beq_eq_false_iff_ne.mpr h]
    rfl

theorem name_of_get? {f : Found} (h : fs.get? name = some f) : f.name = name := by
  simpa using List.find?_some h

theorem get?_eq_none_iff : fs.get? name = none ↔ name ∉ fs.map Found.name := by
  rw [get?, List.find?_eq_none]
  simp

theorem get?_eq_some_iff (hnodup : (fs.map Found.name).Nodup) {f : Found} :
    fs.get? name = some f ↔ f ∈ fs ∧ f.name = name := by
  constructor
  · intro h
    exact ⟨List.mem_of_find?_eq_some h, name_of_get? h⟩
  · rintro ⟨hmem, rfl⟩
    match hget : fs.get? f.name with
    | none => exact absurd (List.mem_map_of_mem hmem) (get?_eq_none_iff.mp hget)
    | some f' =>
      rw [List.inj_on_of_nodup_map hnodup (List.mem_of_find?_eq_some hget) hmem (name_of_get? hget)]

theorem get?_of_perm (h : fs.Perm fs') (hnodup : (fs.map Found.name).Nodup) (name : String) :
    fs.get? name = fs'.get? name := by
  have hnodup' : (fs'.map Found.name).Nodup := (h.map Found.name).nodup_iff.mp hnodup
  refine Option.ext fun f ↦ ?_
  rw [get?_eq_some_iff hnodup, get?_eq_some_iff hnodup', h.mem_iff]

end Findings

/-! ## Words -/

/-- A parameter with the value that a line gives it. -/
structure Given where
  parameter : Parameter
  value : String

def Given.found (x : Given) : Found := ⟨x.parameter.name, .line, x.value⟩

/-- The ways in which one word gives a parameter its value. -/
inductive Grammar.Spells (g : Grammar) : Given → String → Prop
  | option {p : Parameter} {value : String} (hshape : p.shape = .option)
    (hnamed : g.named? p.name.toList = some p) (hname : '=' ∉ p.name.toList) :
    Spells g ⟨p, value⟩ ("--" ++ p.name ++ "=" ++ value)
  | word {p : Parameter} {value : String} (hshape : p.shape = .positional)
    (hvalue : value.toList.head? ≠ some '-') : Spells g ⟨p, value⟩ value

namespace LineState

variable {g : Grammar} {s : LineState} {found : Findings} {free : List Parameter} {p : Parameter}
  {value : String}

/-- Nothing is awaited on the line, and with the value that has been collected, if there is one,
this is what has been found. -/
structure Holds (s : LineState) (found : Findings) (free : List Parameter) : Prop where
  settle : s.settle = .ok ⟨found, none, false, false, free⟩
  awaiting : s.awaiting = false
  trailing : s.trailing = false
  free : s.free = free

theorem accept_new {s : LineState} (hnew : s.found.get? p.name = none)
    (hrule : p.rule.check value = .ok ()) :
    s.accept p (some value) = .ok { s with found := ⟨p.name, .line, value⟩ :: s.found } := by
  simp only [accept, hnew, hrule]
  rfl

theorem long_attached (hshape : p.shape = .option) (hnamed : g.named? p.name.toList = some p)
    (hname : '=' ∉ p.name.toList) (value : List Char) :
    long g s (p.name.toList ++ '=' :: value) = option s p (some (String.ofList value)) := by
  have hletters : ∀ c ∈ p.name.toList, (c != '=') = true := by
    intro c hc
    rw [bne_iff_ne]
    rintro rfl
    exact hname hc
  rw [long, List.takeWhile_append_of_pos hletters, List.dropWhile_append_of_pos hletters,
    List.takeWhile_cons_of_neg (by simp), List.dropWhile_cons_of_neg (by simp), List.append_nil,
    hnamed]
  simp [hshape]

theorem Holds.next_option (hs : s.Holds found free) (hshape : p.shape = .option)
    (hnamed : g.named? p.name.toList = some p) (hname : '=' ∉ p.name.toList)
    (hnew : found.get? p.name = none) (hrule : p.rule.check value = .ok ()) :
    next g s ("--" ++ p.name ++ "=" ++ value) =
      .ok ⟨⟨p.name, .line, value⟩ :: found, none, false, false, free⟩ := by
  have hword : ("--" ++ p.name ++ "=" ++ value).toList =
      '-' :: '-' :: (p.name.toList ++ '=' :: value.toList) := by simp
  obtain ⟨c, cs, hcs⟩ := List.exists_cons_of_ne_nil
    (l := p.name.toList ++ '=' :: value.toList) (by simp)
  have hlong : next g s ("--" ++ p.name ++ "=" ++ value) =
      long g s (p.name.toList ++ '=' :: value.toList) := by
    rw [next, hs.trailing, hword, hcs]
    rfl
  rw [hlong, long_attached hshape hnamed hname, String.ofList_toList, option, hs.settle]
  exact congrArg (Except.map fun s ↦ { s with awaiting := false })
    (accept_new (s := ⟨found, none, false, false, free⟩) hnew hrule)

theorem Holds.exists_next_word (hs : s.Holds found (p :: free))
    (hvalue : value.toList.head? ≠ some '-') (hnew : found.get? p.name = none)
    (hrule : p.rule.check value = .ok ()) :
    ∃ s', next g s value = .ok s' ∧ s'.Holds (⟨p.name, .line, value⟩ :: found) free := by
  refine ⟨⟨found, some (p, some value), false, false, free⟩, ?_, ?_, rfl, rfl, rfl⟩
  · have hword : next g s value = word g s value := by
      rw [next, hs.trailing, hs.awaiting, if_neg Bool.false_ne_true]
      split
      case h_4 => rfl
      all_goals
        rename_i hchars
        exact absurd (congrArg List.head? hchars) hvalue
    rw [hword, word, hs.free, hs.settle]
    rfl
  · exact accept_new (s := ⟨found, none, false, false, free⟩) hnew hrule

/-- Words that give parameters their values, none of them twice and the positional ones in order,
add just that. -/
theorem exists_words (hcommands : g.subcommands = []) {xs : List Given} {ws : List String}
    (hspells : List.Forall₂ g.Spells xs ws)
    (hs : s.Holds found ((xs.map Given.parameter).filter (·.shape == .positional) ++ free))
    (hnodup : ((xs.map Given.parameter).map Parameter.name ++ found.map Found.name).Nodup)
    (hrules : ∀ x ∈ xs, x.parameter.rule.check x.value = .ok ()) :
    ∃ s', words g s ws = .ok (s', none) ∧
      s'.Holds ((xs.map Given.found).reverse ++ found) free := by
  induction hspells generalizing s found with
  | nil => exact ⟨s, rfl, hs⟩
  | @cons x w xs ws hx _ ih =>
    obtain ⟨hrule, hrules⟩ := List.forall_mem_cons.mp hrules
    have hnew : found.get? x.parameter.name = none := by
      rw [Findings.get?_eq_none_iff]
      intro hmem
      exact (List.nodup_cons.mp hnodup).1 (List.mem_append_right _ hmem)
    have hnodup' : ((xs.map Given.parameter).map Parameter.name ++
        (x.found :: found).map Found.name).Nodup :=
      List.perm_middle.nodup_iff.mpr hnodup
    obtain ⟨s', hnext, hs'⟩ : ∃ s', next g s w = .ok s' ∧ s'.Holds (x.found :: found)
        ((xs.map Given.parameter).filter (·.shape == .positional) ++ free) := by
      match hx with
      | .option hshape hnamed hname =>
        rw [List.map_cons, List.filter_cons_of_neg (by simp [hshape])] at hs
        exact ⟨_, hs.next_option hshape hnamed hname hnew hrule, rfl, rfl, rfl, rfl⟩
      | .word hshape hvalue =>
        rw [List.map_cons, List.filter_cons_of_pos (by simp [hshape])] at hs
        exact hs.exists_next_word hvalue hnew hrule
    obtain ⟨s'', hwords, hs''⟩ := ih hs' hnodup' hrules
    refine ⟨s'', ?_, ?_⟩
    · rw [words, hcommands, List.contains_nil, Bool.and_false, if_neg Bool.false_ne_true, hnext]
      exact hwords
    · rw [List.map_cons, List.reverse_cons, List.append_assoc]
      exact hs''

end LineState

/-! ## What the line leaves out -/

def valueFor? (ps : List Parameter) (value? : Parameter → Option String) (name : String) :
    Option String :=
  (ps.find? (·.name == name)).bind value?

def findingFor? (ps : List Parameter) (origin : Origin) (value? : Parameter → Option String)
    (name : String) : Option Found :=
  (valueFor? ps value? name).map (⟨name, origin, ·⟩)

theorem findingFor?_cons (p : Parameter) (ps : List Parameter) (origin : Origin)
    (value? : Parameter → Option String) (name : String) :
    findingFor? (p :: ps) origin value? name =
      if p.name = name then (value? p).map (⟨name, origin, ·⟩)
      else findingFor? ps origin value? name := by
  rw [findingFor?, valueFor?, List.find?_cons]
  by_cases h : p.name = name
  · simp [h]
  · rw [if_neg h, beq_eq_false_iff_ne.mpr h]
    rfl

theorem findingFor?_of_forall_ne {ps : List Parameter} {name : String}
    (h : ∀ p ∈ ps, p.name ≠ name) (origin : Origin) (value? : Parameter → Option String) :
    findingFor? ps origin value? name = none := by
  rw [findingFor?, valueFor?, List.find?_eq_none.mpr (by simpa using h)]
  rfl

/-- The environment gives what the line has left out, and nothing else. -/
theorem exists_fromEnvironment (env : Environment) {ps : List Parameter} {found : Findings}
    (hnodup : (ps.map Parameter.name).Nodup)
    (hrules : ∀ p ∈ ps, found.get? p.name = none →
      ∀ v ∈ p.variableName?.bind env, p.rule.check v = .ok ()) :
    ∃ found', fromEnvironment env ps found = .ok found' ∧
      ∀ name, found'.get? name = (found.get? name).or
        (findingFor? ps .environment (fun p ↦ p.variableName?.bind env) name) := by
  induction ps generalizing found with
  | nil => exact ⟨found, rfl, fun name ↦ (Option.or_none).symm⟩
  | cons p ps ih =>
    obtain ⟨hp, hnodup⟩ := List.nodup_cons.mp hnodup
    have hother : ∀ q ∈ ps, q.name ≠ p.name := fun q hq heq ↦
      hp (List.mem_map.mpr ⟨q, hq, heq⟩)
    obtain ⟨hrule, hrules⟩ := List.forall_mem_cons.mp hrules
    rw [fromEnvironment]
    match hv : p.variableName?.bind env with
    | none =>
      obtain ⟨found', hfound', hget⟩ := ih hnodup hrules
      refine ⟨found', hfound', fun name ↦ ?_⟩
      rw [hget, findingFor?_cons, hv]
      by_cases hname : p.name = name
      · rw [← hname, findingFor?_of_forall_ne hother]
        simp
      · rw [if_neg hname]
    | some v =>
      match hp' : found.get? p.name with
      | some f =>
        obtain ⟨found', hfound', hget⟩ := ih hnodup hrules
        refine ⟨found', hfound', fun name ↦ ?_⟩
        rw [hget, findingFor?_cons]
        by_cases hname : p.name = name
        · rw [← hname, hp']
          rfl
        · rw [if_neg hname]
      | none =>
        have hrules' : ∀ q ∈ ps, Findings.get? (⟨p.name, .environment, v⟩ :: found) q.name = none →
            ∀ u ∈ q.variableName?.bind env, q.rule.check u = .ok () := by
          intro q hq hnone
          rw [Findings.get?_cons, if_neg (hother q hq).symm] at hnone
          exact hrules q hq hnone
        obtain ⟨found', hfound', hget⟩ := ih hnodup hrules'
        refine ⟨found', ?_, fun name ↦ ?_⟩
        · dsimp only
          rw [hrule hp' v hv]
          exact hfound'
        · rw [hget, Findings.get?_cons, findingFor?_cons, hv]
          by_cases hname : p.name = name
          · rw [if_pos hname, if_pos hname, ← hname, hp']
            rfl
          · rw [if_neg hname, if_neg hname]

theorem fromEnvironment_append (env : Environment) (ps qs : List Parameter) (found : Findings) :
    fromEnvironment env (ps ++ qs) found =
      (fromEnvironment env ps found).bind (fromEnvironment env qs) := by
  induction ps generalizing found with
  | nil => rfl
  | cons p ps ih =>
    rw [List.cons_append, fromEnvironment, fromEnvironment]
    match p.variableName?.bind env with
    | none => exact ih found
    | some v =>
      dsimp only
      split
      · exact ih found
      · match p.rule.check v with
        | .error e => rfl
        | .ok () => exact ih _

theorem get?_filterMap {ps : List Parameter} (hnodup : (ps.map Parameter.name).Nodup)
    (origin : Origin) (value? : Parameter → Option String) (name : String) :
    Findings.get? (ps.filterMap fun p ↦ (value? p).map (⟨p.name, origin, ·⟩)) name =
      findingFor? ps origin value? name := by
  induction ps with
  | nil => rfl
  | cons p ps ih =>
    obtain ⟨hp, hnodup⟩ := List.nodup_cons.mp hnodup
    rw [findingFor?_cons, List.filterMap_cons]
    match value? p with
    | none =>
      rw [Option.map_none, ih hnodup]
      by_cases hname : p.name = name
      · rw [if_pos hname, ← hname, Option.map_none]
        exact findingFor?_of_forall_ne (fun q hq heq ↦ hp (List.mem_map.mpr ⟨q, hq, heq⟩)) _ _
      · rw [if_neg hname]
    | some v =>
      rw [Option.map_some, Findings.get?_cons, ih hnodup]
      by_cases hname : p.name = name
      · rw [if_pos hname, if_pos hname, hname, Option.map_some]
      · rw [if_neg hname, if_neg hname]

theorem findingFor?_unless (ps : List Parameter) (origin : Origin) (taken : String → Bool)
    (value? : Parameter → Option String) (name : String) :
    findingFor? ps origin (fun p ↦ if taken p.name then none else value? p) name =
      if taken name then none else findingFor? ps origin value? name := by
  induction ps with
  | nil => exact (ite_self none).symm
  | cons p ps ih =>
    rw [findingFor?_cons, findingFor?_cons, ih]
    by_cases hname : p.name = name
    · rw [if_pos hname, if_pos hname, hname, apply_ite (Option.map _), Option.map_none]
    · rw [if_neg hname, if_neg hname]

theorem get?_withDefaults {ps : List Parameter} (hnodup : (ps.map Parameter.name).Nodup)
    (found : Findings) (name : String) :
    (withDefaults ps found).get? name =
      (found.get? name).or (findingFor? ps .default Parameter.default? name) := by
  have hdefaults : (fun p : Parameter ↦
      if (found.get? p.name).isSome then none
      else p.default?.map fun v ↦ (⟨p.name, .default, v⟩ : Found)) =
        fun p ↦ (if (found.get? p.name).isSome then none else p.default?).map
          (⟨p.name, .default, ·⟩) := by
    funext p
    rw [apply_ite (Option.map _), Option.map_none]
  rw [withDefaults, hdefaults, Findings.get?_append, get?_filterMap hnodup,
    findingFor?_unless ps .default fun name ↦ (found.get? name).isSome]
  match found.get? name with
  | none => simp
  | some f => simp

/-- What is found on a line that has been completed is what the line gives, else what the
environment gives, else a default. -/
theorem LineState.Holds.exists_complete {g : Grammar} {s : LineState} {found : Findings}
    {free : List Parameter} (hs : s.Holds found free) (env : Environment)
    (hnodup : (g.parameters.map Parameter.name).Nodup)
    (hrules : ∀ p ∈ g.parameters, found.get? p.name = none →
      ∀ v ∈ p.variableName?.bind env, p.rule.check v = .ok ()) :
    ∃ found', complete g env s = .ok found' ∧ ∀ name, found'.get? name =
      ((found.get? name).or
        (findingFor? g.parameters .environment (fun p ↦ p.variableName?.bind env) name)).or
          (findingFor? g.parameters .default Parameter.default? name) := by
  obtain ⟨found', hfound', hget⟩ := exists_fromEnvironment env hnodup hrules
  refine ⟨withDefaults g.parameters found', ?_, fun name ↦ ?_⟩
  · rw [complete, hs.settle, Except.bind, hfound']
    rfl
  · rw [get?_withDefaults hnodup, hget]

/-- The first variable that is needed and breaks its rule ends the reading. -/
theorem LineState.Holds.complete_of_broken {g : Grammar} {s : LineState} {found : Findings}
    {free : List Parameter} (hs : s.Holds found free) {env : Environment}
    {before after : List Parameter} {p : Parameter} (hps : g.parameters = before ++ p :: after)
    (hnodup : (g.parameters.map Parameter.name).Nodup)
    (hrules : ∀ q ∈ before, found.get? q.name = none →
      ∀ v ∈ q.variableName?.bind env, q.rule.check v = .ok ())
    (hnone : found.get? p.name = none) {v : String} (hv : p.variableName?.bind env = some v)
    {e : UsageError} (hrule : p.rule.check v = .error e) : complete g env s = .error e := by
  rw [hps, List.map_append, List.map_cons, List.nodup_append] at hnodup
  obtain ⟨found', hfound', hget⟩ := exists_fromEnvironment env hnodup.1 hrules
  have hnone' : found'.get? p.name = none := by
    rw [hget, hnone, findingFor?_of_forall_ne fun q hq heq ↦
      hnodup.2.2 q.name (List.mem_map_of_mem hq) p.name List.mem_cons_self heq]
    rfl
  rw [complete, hs.settle, Except.bind, hps, fromEnvironment_append, hfound', Except.bind,
    fromEnvironment, hv]
  dsimp only
  rw [hnone', hrule]
  rfl

end BuildFleet.CommandLine
