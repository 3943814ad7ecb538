import BuildFleet.Document.Source
import Mathlib.Data.List.Forall2

/-!
# Readings that are alike

The questions of a reading share one allowance of references, so that what one of them uses up is
missing for those after it. Still it makes no difference in which order questions are asked whose
answers do not depend on each other: each uses up so many references whatever is left, and all of
them are answered if there are enough for all.

Two readings are alike if neither gives anything or if both use up the same and give values that are
related. Whether a reading does either of the two, and nothing less regular, is part of being alike,
and so the readings that are like themselves are those whose order can be changed.

## Why equality is not enough

Of a rearranged document, the reading does not give what it gave before: a mapping is read in the
order of its keys, so the hosts come out as another list. What stays is a relation between the two
lists, and it has to be carried through everything that is read around them. `Alike` takes that
relation as a parameter, and there is one lemma for each way in which readings are put together, so
that a reader is shown to be alike by the same steps by which it is defined. Where the relation is
equality, `Alike.eq` turns it back into an equation.
-/

namespace BuildFleet

variable {α β γ δ ι : Type}

/-! ## Lists in another order

New items may turn up besides the old ones, since a mapping may gain a key that nobody asks for. To
find out that they do no harm, it has to be possible to speak of them, so a reordering is told with
a predicate for the items that are new. With an empty one it is a permutation up to the relation. -/

/-- The items of one list are related to those of the other one in some order, in which the other
one may have new items besides. -/
def Reorders (R : α → β → Prop) (new : β → Prop) (as : List α) (bs : List β) : Prop :=
  ∃ cs ns, List.Forall₂ R as cs ∧ (∀ n ∈ ns, new n) ∧ (cs ++ ns).Perm bs

namespace Reorders

variable {R : α → β → Prop} {new : β → Prop} {as : List α} {bs : List β}

theorem imp {R' : α → β → Prop} (h : Reorders R new as bs) (hR : ∀ a b, R a b → R' a b) :
    Reorders R' new as bs := by
  obtain ⟨cs, ns, hall, h⟩ := h
  exact ⟨cs, ns, hall.imp hR, h⟩

theorem of_not_new (h : Reorders R new as bs) (hnew : ∀ b, ¬ new b) :
    Reorders R (fun _ ↦ False) as bs := by
  obtain ⟨cs, ns, hall, hns, hperm⟩ := h
  exact ⟨cs, ns, hall, fun n hn ↦ hnew n (hns n hn), hperm⟩

theorem exists_forall₂ (h : Reorders R (fun _ ↦ False) as bs) :
    ∃ cs, List.Forall₂ R as cs ∧ cs.Perm bs := by
  obtain ⟨cs, ns, hall, hns, hperm⟩ := h
  obtain rfl : ns = [] := List.eq_nil_iff_forall_not_mem.mpr hns
  exact ⟨cs, hall, by rwa [List.append_nil] at hperm⟩

theorem perm {as bs : List α} (h : Reorders Eq (fun _ ↦ False) as bs) : as.Perm bs := by
  obtain ⟨cs, hall, hperm⟩ := h.exists_forall₂
  rw [List.forall₂_eq_eq_eq] at hall
  rwa [hall]

theorem few_or_many (h : Reorders R (fun _ ↦ False) as bs) :
    (as = [] ∧ bs = []) ∨ (∃ a b, R a b ∧ as = [a] ∧ bs = [b]) ∨
      ∃ a a' as' b b' bs', as = a :: a' :: as' ∧ bs = b :: b' :: bs' := by
  obtain ⟨cs, hall, hperm⟩ := h.exists_forall₂
  rcases hall with _ | ⟨hab, _ | ⟨-, hrest⟩⟩
  · exact .inl ⟨rfl, hperm.nil_eq.symm⟩
  · exact .inr (.inl ⟨_, _, hab, rfl, hperm.singleton_eq.symm⟩)
  · right; right
    match bs, hperm.length_eq with
    | b :: b' :: bs', _ => exact ⟨_, _, _, b, b', bs', rfl, rfl⟩

theorem filter {p : α → Bool} {q : β → Bool} (h : Reorders R new as bs)
    (hpq : ∀ a b, R a b → p a = q b) (hnew : ∀ b, new b → q b = false) :
    Reorders R (fun _ ↦ False) (as.filter p) (bs.filter q) := by
  obtain ⟨cs, ns, hall, hns, hperm⟩ := h
  have hnone : ns.filter q = [] := List.filter_eq_nil_iff.mpr fun n hn ↦ by
    rw [hnew n (hns n hn)]
    exact Bool.false_ne_true
  have hfilter := hperm.filter q
  rw [List.filter_append, hnone] at hfilter
  exact ⟨cs.filter q, [], List.rel_filter (fun {a b} hab ↦ by simp only [hpq a b hab]) hall,
    fun _ h ↦ (List.not_mem_nil h).elim, hfilter⟩

end Reorders

namespace Reading

/-- Gives a value and uses up so many references; it fails if so many may not be followed. -/
def giving (a : α) (cost : Nat) : Reading α := fun allowance ↦
  if cost ≤ allowance then some (a, allowance - cost) else none

/-- Two readings that fail, or that use up the same number of references and give related values.
-/
def Alike (R : α → β → Prop) (r : Reading α) (s : Reading β) : Prop :=
  (r = failure ∧ s = failure) ∨
    ∃ a b cost, R a b ∧ r = giving a cost ∧ s = giving b cost

/-- A reading that always fails or always gives the same at the same cost. -/
def IsSteady (r : Reading α) : Prop := Alike Eq r r

/-! ## Giving at a cost -/

theorem follow_eq : follow = giving () 1 := by
  funext allowance
  cases allowance <;> rfl

theorem giving_bind_failure (a : α) (cost : Nat) {f : α → Reading β} (h : f a = failure) :
    giving a cost >>= f = failure := by
  funext allowance
  change (giving a cost allowance).bind (fun x ↦ f x.1 x.2) = none
  rw [giving]
  split
  · exact congrFun h _
  · rfl

/-- What two readings use up one after the other is what both use up. -/
theorem giving_bind (a : α) (cost : Nat) {f : α → Reading β} {b : β} {cost' : Nat}
    (h : f a = giving b cost') : giving a cost >>= f = giving b (cost + cost') := by
  funext allowance
  change (giving a cost allowance).bind (fun x ↦ f x.1 x.2) = giving b (cost + cost') allowance
  rw [giving, giving]
  split
  · rw [Option.bind_some, h, giving]
    dsimp only
    by_cases hleft : cost' ≤ allowance - cost
    · rw [if_pos hleft, if_pos (by omega), Nat.sub_add_eq]
    · rw [if_neg hleft, if_neg (by omega)]
  · rw [Option.bind_none, if_neg (by omega)]

theorem giving_inj {a b : α} {cost cost' : Nat} (h : giving a cost = giving b cost') :
    a = b ∧ cost = cost' := by
  -- with just enough references nothing is left of them
  have hat := congrFun h cost
  rw [giving, giving, if_pos (Nat.le_refl _)] at hat
  by_cases hle : cost' ≤ cost
  · rw [if_pos hle] at hat
    obtain ⟨hab, hleft⟩ := Prod.mk.inj (Option.some.inj hat)
    exact ⟨hab, by omega⟩
  · rw [if_neg hle] at hat
    cases hat

theorem giving_ne_failure (a : α) (cost : Nat) : giving a cost ≠ failure := by
  intro h
  have hat := congrFun h cost
  rw [giving, if_pos (Nat.le_refl _)] at hat
  cases hat

theorem result?_giving (a : α) (cost allowance : Nat) :
    (giving a cost).result? allowance = if cost ≤ allowance then some a else none := by
  change (giving a cost allowance).map Prod.fst = _
  rw [giving]
  split <;> rfl

namespace Alike

variable {R : α → β → Prop} {Q : γ → δ → Prop} {r : Reading α} {s : Reading β}

theorem pure {a : α} {b : β} (h : R a b) : Alike R (pure a) (pure b) :=
  .inr ⟨a, b, 0, h, rfl, rfl⟩

theorem failure : Alike R failure failure := .inl ⟨rfl, rfl⟩

theorem follow : IsSteady follow := .inr ⟨(), (), 1, rfl, follow_eq, follow_eq⟩

theorem ofOption {a : Option α} {b : Option β} (h : Option.Rel R a b) :
    Alike R (ofOption a) (ofOption b) := by
  cases h with
  | some h => exact .pure h
  | none => exact .failure

theorem mono {R' : α → β → Prop} (h : Alike R r s) (hR : ∀ a b, R a b → R' a b) :
    Alike R' r s :=
  h.imp_right fun ⟨a, b, cost, hab, hr, hs⟩ ↦ ⟨a, b, cost, hR a b hab, hr, hs⟩

theorem right (h : Alike R r s) : IsSteady s :=
  h.imp (fun h ↦ ⟨h.2, h.2⟩) fun ⟨_, b, cost, _, _, hs⟩ ↦ ⟨b, b, cost, rfl, hs, hs⟩

/-- Readings that give the same are the same. -/
theorem eq {r s : Reading α} (h : Alike Eq r s) : r = s := by
  rcases h with ⟨rfl, rfl⟩ | ⟨a, _, cost, rfl, rfl, rfl⟩
  · rfl
  · rfl

theorem comp {P : β → γ → Prop} {t : Reading γ} (h : Alike R r s) (h' : Alike P s t) :
    Alike (fun a c ↦ ∃ b, R a b ∧ P b c) r t := by
  rcases h with ⟨rfl, rfl⟩ | ⟨a, b, cost, hab, rfl, rfl⟩
  · rcases h' with ⟨-, rfl⟩ | ⟨b', c, cost', -, hs, -⟩
    · exact .failure
    · exact absurd hs.symm (giving_ne_failure b' cost')
  · rcases h' with ⟨hs, -⟩ | ⟨b', c, cost', hbc, hs, rfl⟩
    · exact absurd hs (giving_ne_failure b cost)
    · obtain ⟨rfl, rfl⟩ := giving_inj hs
      exact .inr ⟨a, c, cost, ⟨b, hab, hbc⟩, rfl, rfl⟩

/-- Readings that go on alike from related values are alike. -/
theorem bind {f : α → Reading γ} {g : β → Reading δ} (h : Alike R r s)
    (hfg : ∀ a b, R a b → Alike Q (f a) (g b)) : Alike Q (r >>= f) (s >>= g) := by
  rcases h with ⟨rfl, rfl⟩ | ⟨a, b, cost, hab, rfl, rfl⟩
  · exact .failure
  · rcases hfg a b hab with ⟨hf, hg⟩ | ⟨c, d, cost', hcd, hf, hg⟩
    · rw [giving_bind_failure a cost hf, giving_bind_failure b cost hg]
      exact .failure
    · exact .inr ⟨c, d, cost + cost', hcd, giving_bind a cost hf, giving_bind b cost hg⟩

/-! ## Lists

The main step is that two steady readings may change places. From there a list can be read in the
order of any permutation of it, by induction on the permutation, where each swap is one such step.
-/

/-- Reading two lists gives related lists if each item is read like the one in its place, and what
is known about the items of the one list is known about its values. -/
theorem mapM_labelled {f : γ → Reading α} {g : δ → Reading β} {cs : List γ} {ds : List δ}
    (label : γ → ι) (label' : α → ι)
    (h : List.Forall₂ (fun c d ↦ Alike (fun a b ↦ label' a = label c ∧ R a b) (f c) (g d)) cs ds) :
    Alike (fun as bs ↦ as.map label' = cs.map label ∧ List.Forall₂ R as bs)
      (cs.mapM f) (ds.mapM g) := by
  induction h with
  | nil => exact .pure ⟨rfl, .nil⟩
  | @cons c d cs ds hcd _ ih =>
    rw [List.mapM_cons, List.mapM_cons]
    refine hcd.bind fun a b hab ↦ ih.bind fun as bs habs ↦ .pure ?_
    exact ⟨by rw [List.map_cons, List.map_cons, hab.1, habs.1], .cons hab.2 habs.2⟩

theorem mapM {f : γ → Reading α} {g : δ → Reading β} {cs : List γ} {ds : List δ}
    (h : List.Forall₂ (fun c d ↦ Alike R (f c) (g d)) cs ds) :
    Alike (List.Forall₂ R) (cs.mapM f) (ds.mapM g) := by
  have hall := h.imp fun _ _ hcd ↦ hcd.mono fun _ _ hab ↦ (⟨rfl, hab⟩ : () = () ∧ _)
  exact (mapM_labelled (fun _ ↦ ()) (fun _ ↦ ()) hall).mono fun _ _ h ↦ h.2

end Alike

theorem isSteady_ofOption (a : Option α) : (ofOption a).IsSteady := by
  cases a with
  | none => exact .failure
  | some a => exact .pure rfl

/-- Two readings that do not depend on each other may change places. -/
theorem bind_comm {r : Reading α} {s : Reading β} (hr : r.IsSteady) (hs : s.IsSteady)
    {f : α → β → Reading γ} (hf : ∀ a b, (f a b).IsSteady) :
    (r >>= fun a ↦ s >>= fun b ↦ f a b) = s >>= fun b ↦ r >>= fun a ↦ f a b := by
  rcases hr with ⟨rfl, -⟩ | ⟨a, -, cost, -, rfl, -⟩
  · rcases hs with ⟨rfl, -⟩ | ⟨b, -, cost', -, rfl, -⟩
    · rfl
    · exact (giving_bind_failure b cost' rfl).symm
  · rcases hs with ⟨rfl, -⟩ | ⟨b, -, cost', -, rfl, -⟩
    · exact giving_bind_failure a cost rfl
    · rcases hf a b with ⟨h, -⟩ | ⟨c, -, cost'', -, h, -⟩
      · rw [giving_bind_failure a cost (giving_bind_failure b cost' h),
          giving_bind_failure b cost' (giving_bind_failure a cost h)]
      · rw [giving_bind a cost (giving_bind b cost' h),
          giving_bind b cost' (giving_bind a cost h), Nat.add_left_comm]

theorem isSteady_mapM {f : α → Reading β} {as : List α} (hf : ∀ a ∈ as, (f a).IsSteady) :
    (as.mapM f).IsSteady := by
  have hall : List.Forall₂ (fun a b ↦ Alike Eq (f a) (f b)) as as := List.forall₂_same.mpr hf
  refine (Alike.mapM hall).mono fun xs ys hxy ↦ ?_
  rwa [List.forall₂_eq_eq_eq] at hxy

/-- Reading a list in another order gives the same values in that order. -/
theorem Alike.mapM_perm {f : α → Reading β} {as bs : List α} (h : as.Perm bs)
    (hf : ∀ a ∈ as, (f a).IsSteady) : Alike List.Perm (as.mapM f) (bs.mapM f) := by
  induction h with
  | nil => exact .pure .nil
  | cons a _ ih =>
    obtain ⟨ha, hrest⟩ := List.forall_mem_cons.mp hf
    rw [List.mapM_cons, List.mapM_cons]
    refine ha.bind fun x y hxy ↦ (ih hrest).bind fun xs ys hperm ↦ .pure ?_
    rw [hxy]
    exact hperm.cons y
  | swap a b rest =>
    obtain ⟨hb, ha, hrest⟩ : (f b).IsSteady ∧ (f a).IsSteady ∧ ∀ c ∈ rest, (f c).IsSteady := by
      simpa [List.forall_mem_cons] using hf
    simp only [List.mapM_cons, bind_assoc, pure_bind]
    rw [bind_comm hb ha fun x y ↦ (isSteady_mapM hrest).bind fun _ _ hxy ↦ .pure (hxy ▸ rfl)]
    refine ha.bind fun x _ hx ↦ hb.bind fun y _ hy ↦ (isSteady_mapM hrest).bind fun xs _ hxs ↦
      .pure ?_
    subst hx hy hxs
    exact .swap x y xs
  | trans h _ ih ih' =>
    refine ((ih hf).comp (ih' fun b hb ↦ hf b (h.mem_iff.mpr hb))).mono fun xs zs hxz ↦ ?_
    obtain ⟨ys, hxy, hyz⟩ := hxz
    exact hxy.trans hyz

section Reorders

variable {R : α → β → Prop} {new : δ → Prop} {new' : β → Prop} {f : γ → Reading α}
  {g : δ → Reading β} {cs : List γ} {ds : List δ}

theorem exists_mapM_eq (hnew : ∀ d, new d → ∃ b, g d = Pure.pure b ∧ new' b) :
    (∀ d ∈ ds, new d) → ∃ bs, ds.mapM g = Pure.pure bs ∧ ∀ b ∈ bs, new' b := by
  intro hds
  induction ds with
  | nil => exact ⟨[], rfl, fun _ h ↦ (List.not_mem_nil h).elim⟩
  | cons d ds ih =>
    obtain ⟨hd, hds⟩ := List.forall_mem_cons.mp hds
    obtain ⟨b, hb, hbnew⟩ := hnew d hd
    obtain ⟨bs, hbs, hbsnew⟩ := ih hds
    refine ⟨b :: bs, ?_, List.forall_mem_cons.mpr ⟨hbnew, hbsnew⟩⟩
    rw [List.mapM_cons, hb, hbs]
    rfl

/-- Reading the items of a list and those of its reordering gives values in that order, with new
values for the new items. -/
theorem Alike.mapM_reorders_labelled (label : γ → ι) (label' : α → ι)
    (h : Reorders (fun c d ↦ Alike (fun a b ↦ label' a = label c ∧ R a b) (f c) (g d)) new cs ds)
    (hnew : ∀ d, new d → ∃ b, g d = Pure.pure b ∧ new' b) :
    Alike (fun as bs ↦ as.map label' = cs.map label ∧ Reorders R new' as bs)
      (cs.mapM f) (ds.mapM g) := by
  obtain ⟨ms, ns, hall, hns, hperm⟩ := h
  obtain ⟨ys, hys, hysnew⟩ := exists_mapM_eq hnew hns
  have hms : List.Forall₂ (fun d c ↦ (g d).IsSteady ∧ True) ms cs :=
    List.Forall₂.flip (hall.imp fun _ _ h ↦ ⟨h.right, trivial⟩)
  have hsteady : ∀ d ∈ ms ++ ns, (g d).IsSteady := by
    intro d hd
    rcases List.mem_append.mp hd with hd | hd
    · exact ((List.forall₂_and_left ms cs).mp hms).1 d hd
    · obtain ⟨b, hb, -⟩ := hnew d (hns d hd)
      rw [hb]
      exact .pure rfl
  -- first the related items and the new ones in their own order, then the order of the list
  have hjoined : Alike (fun as bs ↦ as.map label' = cs.map label ∧
      ∃ xs, List.Forall₂ R as xs ∧ bs = xs ++ ys) (cs.mapM f) ((ms ++ ns).mapM g) := by
    rw [List.mapM_append, hys, ← bind_pure (cs.mapM f)]
    exact (Alike.mapM_labelled label label' hall).bind fun as xs hxs ↦ .pure ⟨hxs.1, xs, hxs.2, rfl⟩
  refine (hjoined.comp (.mapM_perm hperm hsteady)).mono fun as bs h ↦ ?_
  obtain ⟨_, ⟨hlabels, xs, hxs, rfl⟩, hbs⟩ := h
  exact ⟨hlabels, xs, ys, hxs, hysnew, hbs⟩

theorem Alike.mapM_reorders
    (h : Reorders (fun c d ↦ Alike R (f c) (g d)) (fun _ ↦ False) cs ds) :
    Alike (Reorders R fun _ ↦ False) (cs.mapM f) (ds.mapM g) := by
  have hall := h.imp fun _ _ hcd ↦ hcd.mono fun _ _ hab ↦ (⟨rfl, hab⟩ : () = () ∧ _)
  exact (mapM_reorders_labelled (fun _ ↦ ()) (fun _ ↦ ()) hall fun _ h ↦ h.elim).mono
    fun _ _ h ↦ h.2

/-! ### Values that are there or not -/

theorem ofOption_mapM (f : γ → Option α) (cs : List γ) :
    ofOption (cs.mapM f) = cs.mapM fun c ↦ ofOption (f c) := by
  induction cs with
  | nil => rfl
  | cons c cs ih =>
    rw [List.mapM_cons, List.mapM_cons, ← ih]
    cases f c with
    | none => rfl
    | some a =>
      cases cs.mapM f with
      | none => rfl
      | some as => rfl

theorem rel_of_alike_ofOption {R : α → β → Prop} {a : Option α} {b : Option β}
    (h : Alike R (ofOption a) (ofOption b)) : Option.Rel R a b := by
  match a, b with
  | none, none => exact .none
  | none, some b =>
    rcases h with ⟨-, hb⟩ | ⟨a, _, cost, -, ha, -⟩
    · exact absurd hb (giving_ne_failure b 0)
    · exact absurd ha.symm (giving_ne_failure a cost)
  | some a, none =>
    rcases h with ⟨ha, -⟩ | ⟨_, b, cost, -, -, hb⟩
    · exact absurd ha (giving_ne_failure a 0)
    · exact absurd hb.symm (giving_ne_failure b cost)
  | some a, some b =>
    rcases h with ⟨ha, -⟩ | ⟨a', b', cost, hab, ha, hb⟩
    · exact absurd ha (giving_ne_failure a 0)
    · obtain ⟨rfl, -⟩ : a = a' ∧ 0 = cost := giving_inj ha
      obtain ⟨rfl, -⟩ : b = b' ∧ 0 = cost := giving_inj hb
      exact .some hab

theorem rel_mapM_of_reorders {R : α → β → Prop} {f : γ → Option α} {g : δ → Option β}
    {cs : List γ} {ds : List δ}
    (h : Reorders (fun c d ↦ Option.Rel R (f c) (g d)) (fun _ ↦ False) cs ds) :
    Option.Rel (Reorders R fun _ ↦ False) (cs.mapM f) (ds.mapM g) := by
  apply rel_of_alike_ofOption
  rw [ofOption_mapM, ofOption_mapM]
  exact .mapM_reorders (h.imp fun _ _ h ↦ .ofOption h)

end Reorders

/-! ## More references -/

theorem IsSteady.result?_of_le {r : Reading α} (h : r.IsSteady) {allowance more : Nat}
    (hle : allowance ≤ more) {a : α} (ha : r.result? allowance = some a) :
    r.result? more = some a := by
  rcases h with ⟨rfl, -⟩ | ⟨b, -, cost, -, rfl, -⟩
  · cases ha
  · rw [result?_giving] at ha ⊢
    by_cases hcost : cost ≤ allowance
    · rw [if_pos hcost] at ha
      rwa [if_pos (by omega)]
    · rw [if_neg hcost] at ha
      cases ha

end Reading

end BuildFleet
