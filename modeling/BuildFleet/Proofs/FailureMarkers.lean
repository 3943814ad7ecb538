import BuildFleet.Device.Error

/-!
# Failure markers

An installer prints for people to read. If something has gone wrong there should be a marker with a
code in what it prints, but there may be several, some of them may be broken off or hold no code,
and one may run on over the lines that follow. The first position where a marker starts decides, and
whether one starts at a position depends on all of the text from there on. So what starts at a
position is said of what is left of the text there, and broken markers need no word of their own:
they are positions like any other.

A marker speaks of a failure, as any text does that holds the word, and without a marker the text
itself is the reason.

## What is compared with what

The search walks along the text and tries at each position to follow a pattern: a word, an opening
bracket, the longest run of characters that a code can have, and what must come after it. What a
marker is says nothing of a longest run, only that a code stands in front of one of the things that
can end it. The two agree because nothing that ends a code could go on with it, so a code has just
one end in a text. With that settled for a single position, the walk is an induction on the text, in
which a position without a marker passes the question on to the next one.
-/

namespace BuildFleet.InstallOutput

/-! ## Markers -/

/-- The code of a failure. -/
structure IsCode (code : List Char) : Prop where
  nonempty : code ≠ []
  chars : ∀ c ∈ code, ('A' ≤ c ∧ c ≤ 'Z') ∨ ('0' ≤ c ∧ c ≤ '9') ∨ c = '_'

/-- A text starts with a failure marker of this code. -/
inductive StartsMarker (code : List Char) : List Char → Prop
  | bare (hcode : IsCode code) (rest : List Char) :
    StartsMarker code ("Failure [".toList ++ (code ++ ']' :: rest))
  /-- There can be more in a marker than its code, up to the first bracket. -/
  | explained (hcode : IsCode code) {mark : Char} (hmark : mark = ':' ∨ Text.isBlank mark = true)
    {explanation : List Char} (hexplanation : ']' ∉ explanation) (rest : List Char) :
    StartsMarker code ("Failure [".toList ++ (code ++ mark :: (explanation ++ ']' :: rest)))

/-- A marker with this code starts in a text, and none starts further to the left. -/
def IsFirstCode (text code : List Char) : Prop :=
  ∃ n, StartsMarker code (text.drop n) ∧ ∀ m < n, ∀ other, ¬ StartsMarker other (text.drop m)

theorem isCodeChar_iff {c : Char} :
    isCodeChar c = true ↔ ('A' ≤ c ∧ c ≤ 'Z') ∨ ('0' ≤ c ∧ c ≤ '9') ∨ c = '_' := by
  simp only [isCodeChar, Bool.or_eq_true, Bool.and_eq_true, decide_eq_true_eq, beq_iff_eq, or_assoc]

theorem toNat_of_isCodeChar {c : Char} (h : isCodeChar c = true) :
    48 ≤ c.toNat ∧ c.toNat ≤ 95 := by
  rcases isCodeChar_iff.mp h with ⟨hlow, hhigh⟩ | ⟨hlow, hhigh⟩ | rfl
  · have hlow' : 65 ≤ c.toNat := hlow
    have hhigh' : c.toNat ≤ 90 := hhigh
    omega
  · have hlow' : 48 ≤ c.toNat := hlow
    have hhigh' : c.toNat ≤ 57 := hhigh
    omega
  · decide

theorem isCodeChar_of_ends {c : Char} (h : c = ']' ∨ c = ':' ∨ Text.isBlank c = true) :
    isCodeChar c = false := by
  rcases h with rfl | rfl | hblank
  · decide
  · decide
  · cases hcode : isCodeChar c with
    | false => rfl
    | true =>
      have hrange := toNat_of_isCodeChar hcode
      simp only [Text.isBlank, Bool.or_eq_true, Bool.and_eq_true, decide_eq_true_eq,
        beq_iff_eq] at hblank
      omega

/-! ## What starts at a position -/

theorem codeAtStart?_append {code : List Char} (hcode : IsCode code) {c : Char}
    (hc : isCodeChar c = false) (rest : List Char) :
    codeAtStart? ("Failure [".toList ++ (code ++ c :: rest)) =
      if c == ']' then some code
      else if (c == ':' || Text.isBlank c) && rest.contains ']' then some code
      else none := by
  have hchars : ∀ d ∈ code, isCodeChar d = true := fun d hd ↦ isCodeChar_iff.mpr (hcode.chars d hd)
  have hnone : ¬ isCodeChar c = true := by rw [hc]; exact Bool.false_ne_true
  have hstart : markerStart.isPrefixOf (markerStart ++ (code ++ c :: rest)) = true :=
    List.isPrefixOf_iff_prefix.mpr (List.prefix_append _ _)
  change codeAtStart? (markerStart ++ (code ++ c :: rest)) = _
  rw [codeAtStart?, if_pos hstart, List.drop_left]
  dsimp only
  rw [List.takeWhile_append_of_pos hchars, List.takeWhile_cons_of_neg hnone, List.append_nil,
    List.dropWhile_append_of_pos hchars, List.dropWhile_cons_of_neg hnone]
  dsimp only
  rw [if_neg (by simpa using hcode.nonempty)]

theorem exists_of_codeAtStart? {cs code : List Char} (h : codeAtStart? cs = some code) :
    ∃ c rest, IsCode code ∧ isCodeChar c = false ∧
      cs = "Failure [".toList ++ (code ++ c :: rest) := by
  rw [codeAtStart?] at h
  split at h
  case isFalse => cases h
  case isTrue hstart =>
    obtain ⟨body, rfl⟩ := List.isPrefixOf_iff_prefix.mp hstart
    rw [List.drop_left] at h
    dsimp only at h
    cases htail : body.dropWhile isCodeChar with
    | nil =>
      rw [htail] at h
      cases h
    | cons c rest =>
      rw [htail] at h
      dsimp only at h
      have hbody : body = body.takeWhile isCodeChar ++ c :: rest := by
        rw [← htail, List.takeWhile_append_dropWhile]
      have hc : isCodeChar c = false := by
        have hhead := List.head?_dropWhile_not isCodeChar body
        rwa [htail] at hhead
      by_cases hempty : (body.takeWhile isCodeChar).isEmpty = true
      · rw [if_pos hempty] at h
        cases h
      · rw [if_neg hempty] at h
        have hcode : body.takeWhile isCodeChar = code := by
          split at h
          · exact Option.some.inj h
          · split at h
            · exact Option.some.inj h
            · cases h
        rw [hcode] at hbody hempty
        refine ⟨c, rest, ⟨by simpa using hempty, fun d hd ↦ ?_⟩, hc, congrArg (_ ++ ·) hbody⟩
        exact isCodeChar_iff.mp (List.all_eq_true.mp List.all_takeWhile d (hcode ▸ hd))

/-- A code is found at the start of a text if a marker with it starts there. -/
theorem codeAtStart?_eq_some_iff {cs code : List Char} :
    codeAtStart? cs = some code ↔ StartsMarker code cs := by
  constructor
  · intro h
    obtain ⟨c, rest, hcode, hc, rfl⟩ := exists_of_codeAtStart? h
    rw [codeAtStart?_append hcode hc] at h
    by_cases hbracket : c = ']'
    · rw [hbracket]
      exact .bare hcode rest
    · rw [if_neg (by simpa using hbracket)] at h
      split at h
      case isFalse => cases h
      case isTrue hmore =>
        rw [Bool.and_eq_true, Bool.or_eq_true, beq_iff_eq, List.contains_iff_mem] at hmore
        obtain ⟨explanation, rest, rfl, hexplanation⟩ := List.eq_append_cons_of_mem hmore.2
        exact .explained hcode hmore.1 hexplanation rest
  · intro h
    cases h with
    | bare hcode rest =>
      rw [codeAtStart?_append hcode (isCodeChar_of_ends (.inl rfl)), if_pos (by rfl)]
    | @explained hcode mark hmark explanation hexplanation rest =>
      have hcontains : (explanation ++ ']' :: rest).contains ']' = true := by
        rw [List.contains_iff_mem]
        exact List.mem_append_right _ List.mem_cons_self
      have hmore : (mark == ':' || Text.isBlank mark) = true := by
        rw [Bool.or_eq_true, beq_iff_eq]
        exact hmark
      rw [codeAtStart?_append hcode (isCodeChar_of_ends (.inr hmark)), hcontains, hmore]
      split
      · rfl
      · rfl

theorem codeAtStart?_eq_none_iff {cs : List Char} :
    codeAtStart? cs = none ↔ ∀ code, ¬ StartsMarker code cs := by
  rw [Option.eq_none_iff_forall_ne_some]
  exact forall_congr' fun code ↦ not_congr codeAtStart?_eq_some_iff

/-! ## The first position -/

theorem not_startsMarker_nil (code : List Char) : ¬ StartsMarker code [] :=
  codeAtStart?_eq_none_iff.mp rfl code

/-- The code that is found in a text is that of the first marker. -/
theorem code?_eq_some_iff {cs code : List Char} : code? cs = some code ↔ IsFirstCode cs code := by
  induction cs with
  | nil =>
    constructor
    · intro h
      cases h
    · rintro ⟨n, h, -⟩
      rw [List.drop_nil] at h
      exact absurd h (not_startsMarker_nil code)
  | cons c cs ih =>
    rw [code?, Option.or_eq_some_iff, ih, codeAtStart?_eq_some_iff, codeAtStart?_eq_none_iff]
    constructor
    · rintro (h | ⟨hnone, n, h, hfirst⟩)
      · exact ⟨0, h, fun m hm ↦ absurd hm (Nat.not_lt_zero m)⟩
      · refine ⟨n + 1, h, fun m hm ↦ ?_⟩
        cases m with
        | zero => exact hnone
        | succ m => exact hfirst m (Nat.lt_of_succ_lt_succ hm)
    · rintro ⟨n, h, hfirst⟩
      cases n with
      | zero => exact .inl h
      | succ n =>
        exact .inr ⟨hfirst 0 (Nat.zero_lt_succ n), n, h,
          fun m hm ↦ hfirst (m + 1) (Nat.succ_lt_succ hm)⟩

theorem code?_eq_none_iff {cs : List Char} :
    code? cs = none ↔ ∀ n code, ¬ StartsMarker code (cs.drop n) := by
  induction cs with
  | nil =>
    refine iff_of_true rfl fun n code ↦ ?_
    rw [List.drop_nil]
    exact not_startsMarker_nil code
  | cons c cs ih =>
    rw [code?, Option.or_eq_none_iff, ih, codeAtStart?_eq_none_iff]
    constructor
    · rintro ⟨hstart, hrest⟩ n
      cases n with
      | zero => exact hstart
      | succ n => exact hrest n
    · intro h
      exact ⟨h 0, fun n ↦ h (n + 1)⟩

theorem IsFirstCode.not_forall {text code : List Char} (h : IsFirstCode text code) :
    ¬ ∀ n other, ¬ StartsMarker other (text.drop n) := by
  obtain ⟨n, hstarts, -⟩ := h
  exact fun hnone ↦ hnone n code hstarts

/-! ## Reasons -/

/-- The reason that is in a text for a failure. -/
inductive IsReason (output reason : String) : Prop
  /-- It is the code of the first marker. -/
  | marked (h : IsFirstCode output.toList reason.toList)
  /-- Without a marker, a text that speaks of a failure is itself the reason, when it is trimmed. -/
  | unmarked (hfailure : "Failure".toList <:+: output.toList)
    (hnone : ∀ n code, ¬ StartsMarker code (output.toList.drop n))
    (htrimmed : Text.IsTrimmed output.toList reason.toList)

theorem StartsMarker.isCode {code cs : List Char} (h : StartsMarker code cs) : IsCode code := by
  cases h with
  | bare hcode => exact hcode
  | explained hcode => exact hcode

theorem IsReason.ne_empty {output reason : String} (h : IsReason output reason) : reason ≠ "" := by
  intro hempty
  cases h with
  | marked h =>
    obtain ⟨n, hstarts, -⟩ := h
    exact hstarts.isCode.nonempty (String.toList_eq_nil_iff.mpr hempty)
  | unmarked hfailure _ htrimmed =>
    -- a text of which nothing is left has no letters
    have hblank := Text.trim_eq_empty_iff.mp (hempty ▸ Text.trim_eq_iff.mpr htrimmed)
    have hletter : 'F' ∈ output.toList := hfailure.subset (by decide)
    have hF := List.all_eq_true.mp hblank 'F' hletter
    exact absurd hF (by decide)

/-- The first marker makes the reason, and if there is none, a text that speaks of a failure does.
-/
theorem check_eq_rejected_iff {output reason : String} :
    check output = .error (.rejected reason) ↔ IsReason output reason := by
  rw [check]
  cases hcode : code? output.toList with
  | some code =>
    have hfirst := code?_eq_some_iff.mp hcode
    dsimp only
    constructor
    · intro h
      cases h
      refine .marked ?_
      rwa [String.toList_ofList]
    · intro h
      cases h with
      | marked h =>
        cases hcode.symm.trans (code?_eq_some_iff.mpr h)
        rw [String.ofList_toList]
      | unmarked _ hnone _ => exact absurd hnone hfirst.not_forall
  | none =>
    have hnone := code?_eq_none_iff.mp hcode
    dsimp only
    by_cases hfailure : "Failure".toList <:+: output.toList
    · rw [if_pos (Text.occursIn_iff.mpr hfailure)]
      constructor
      · intro h
        cases h
        exact .unmarked hfailure hnone (Text.trim_eq_iff.mp rfl)
      · intro h
        cases h with
        | marked h => exact absurd hnone h.not_forall
        | unmarked _ _ htrimmed => rw [Text.trim_eq_iff.mpr htrimmed]
    · rw [if_neg (by rwa [Text.occursIn_iff])]
      refine iff_of_false (fun h ↦ by cases h) fun h ↦ ?_
      cases h with
      | marked h => exact absurd hnone h.not_forall
      | unmarked h => exact absurd h hfailure

/-- A text is rejected if it speaks of a failure, and it is never rejected without a reason. -/
theorem check_tells_reason (output : String) :
    (check output = .ok () ↔ ¬ "Failure".toList <:+: output.toList) ∧
      (∀ e, check output = .error e ↔ ∃ reason, e = .rejected reason ∧ IsReason output reason) ∧
      ∀ reason, IsReason output reason → reason ≠ "" := by
  refine ⟨check_eq_ok_iff, fun e ↦ ⟨fun h ↦ ?_, ?_⟩, fun reason ↦ IsReason.ne_empty⟩
  · have hfailure : "Failure".toList <:+: output.toList := by
      refine Decidable.byContradiction fun hnone ↦ ?_
      cases h.symm.trans (check_eq_ok_iff.mpr hnone)
    obtain ⟨reason, hreason⟩ := exists_rejected hfailure
    cases h.symm.trans hreason
    exact ⟨reason, rfl, check_eq_rejected_iff.mp hreason⟩
  · rintro ⟨reason, rfl, hreason⟩
    exact check_eq_rejected_iff.mpr hreason

/-- A marker whose code has small letters is passed over. The next one runs on into the following
line, up to a bracket of a marker that it holds, and its code counts. -/
example : code? "Failure [low] Failure [A: Failure [B_1 on\ntwo lines] Failure [C]".toList =
    some ['A'] := by decide

end BuildFleet.InstallOutput
