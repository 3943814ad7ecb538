/-!
# Blank characters and trimming

A character is blank when it has the Unicode property `White_Space`. A text is blank when it holds
nothing else, which is the test every name in a host table has to pass, and trimming removes blank
characters from both ends.
-/

namespace BuildFleet.Text

/-- Whether a character has the Unicode property `White_Space`. -/
def isBlank (c : Char) : Bool :=
  let n := c.toNat
  (9 ≤ n && n ≤ 13) || n == 0x20 || n == 0x85 || n == 0xA0 || n == 0x1680 ||
    (0x2000 ≤ n && n ≤ 0x200A) || n == 0x2028 || n == 0x2029 || n == 0x202F || n == 0x205F ||
    n == 0x3000

/-- Every blank character of the ASCII range that the core library knows is blank here too. -/
theorem isBlank_of_isWhitespace {c : Char} (h : c.isWhitespace = true) : isBlank c = true := by
  simp only [Char.isWhitespace, Bool.or_eq_true, decide_eq_true_eq] at h
  rcases h with ((rfl | rfl) | rfl) | rfl <;> decide

/-- A text without any character that is not blank. -/
def allBlank (s : String) : Bool :=
  s.toList.all isBlank

/-- The characters that are left when blank ones are taken off both ends. -/
def trimChars (cs : List Char) : List Char :=
  ((cs.dropWhile isBlank).reverse.dropWhile isBlank).reverse

/-- A text without the blank characters at its two ends. -/
def trim (s : String) : String :=
  String.ofList (trimChars s.toList)

theorem dropWhile_isBlank_eq_nil_iff {cs : List Char} :
    cs.dropWhile isBlank = [] ↔ ∀ c ∈ cs, isBlank c = true := by
  induction cs with
  | nil => simp
  | cons c cs ih => cases h : isBlank c <;> simp [h, ih]

/-- Nothing is left of a text when it is trimmed, if all of it is blank. -/
theorem trim_eq_empty_iff {s : String} : trim s = "" ↔ allBlank s = true := by
  rw [trim, ← String.toList_inj, String.toList_ofList, String.toList_empty, trimChars,
    List.reverse_eq_nil_iff, dropWhile_isBlank_eq_nil_iff, allBlank, List.all_eq_true]
  constructor
  · -- what the first pass leaves is blank as well, so it leaves nothing
    intro h c hc
    rw [← List.takeWhile_append_dropWhile (p := isBlank) (l := s.toList)] at hc
    rcases List.mem_append.1 hc with hc | hc
    · exact List.all_eq_true.1 List.all_takeWhile c hc
    · exact h c (List.mem_reverse.2 hc)
  · intro h c hc
    exact h c ((List.dropWhile_sublist isBlank).mem (List.mem_reverse.1 hc))

/-! ### What trimming leaves -/

/-- Blank characters have been taken off both ends of a text, and none is left at either. -/
structure IsTrimmed (cs rest : List Char) : Prop where
  /-- Nothing else has been taken off. -/
  within : ∃ before after, cs = before ++ (rest ++ after) ∧
    (∀ c ∈ before, isBlank c = true) ∧ ∀ c ∈ after, isBlank c = true
  front : ∀ c, rest.head? = some c → isBlank c = false
  back : ∀ c, rest.getLast? = some c → isBlank c = false

/-- Blank characters in front of a text that does not start with one are dropped, and no others. -/
theorem dropWhile_isBlank_append {before cs : List Char} (hbefore : ∀ c ∈ before, isBlank c = true)
    (hcs : ∀ c, cs.head? = some c → isBlank c = false) :
    (before ++ cs).dropWhile isBlank = cs := by
  rw [List.dropWhile_append_of_pos hbefore]
  cases cs with
  | nil => rfl
  | cons c cs => rw [List.dropWhile_cons, hcs c rfl, if_neg Bool.false_ne_true]

theorem isBlank_of_head?_dropWhile {cs : List Char} {c : Char}
    (h : (cs.dropWhile isBlank).head? = some c) : isBlank c = false := by
  have hhead := List.head?_dropWhile_not isBlank cs
  rw [h] at hhead
  exact hhead

theorem isTrimmed_trimChars (cs : List Char) : IsTrimmed cs (trimChars cs) := by
  -- what the first pass leaves is taken apart once more, from its end
  obtain ⟨after, hsplit, hafter⟩ : ∃ after, cs.dropWhile isBlank = trimChars cs ++ after ∧
      ∀ c ∈ after, isBlank c = true := by
    refine ⟨((cs.dropWhile isBlank).reverse.takeWhile isBlank).reverse, ?_, fun c hc ↦ ?_⟩
    · rw [trimChars, ← List.reverse_append, List.takeWhile_append_dropWhile, List.reverse_reverse]
    · exact List.all_eq_true.1 List.all_takeWhile c (List.mem_reverse.1 hc)
  refine ⟨⟨cs.takeWhile isBlank, after, ?_, List.all_eq_true.1 List.all_takeWhile, hafter⟩, ?_, ?_⟩
  · rw [← hsplit, List.takeWhile_append_dropWhile]
  · intro c hc
    have hhead : (cs.dropWhile isBlank).head? = some c := by
      rw [hsplit, List.head?_append, hc, Option.some_or]
    exact isBlank_of_head?_dropWhile hhead
  · intro c hc
    rw [trimChars, List.getLast?_reverse] at hc
    exact isBlank_of_head?_dropWhile hc

theorem IsTrimmed.trimChars_eq {cs rest : List Char} (h : IsTrimmed cs rest) :
    trimChars cs = rest := by
  obtain ⟨⟨before, after, rfl, hbefore, hafter⟩, hfront, hback⟩ := h
  rw [trimChars]
  by_cases hrest : rest = []
  · -- all of the text is blank
    have hblank : ∀ c ∈ before ++ (rest ++ after), isBlank c = true := by
      rw [hrest]
      exact fun c hc ↦ (List.mem_append.1 hc).elim (hbefore c) (hafter c)
    rw [dropWhile_isBlank_eq_nil_iff.2 hblank, hrest]
    rfl
  · have hfirst : ∀ c, (rest ++ after).head? = some c → isBlank c = false := by
      rwa [List.head?_append, Option.or_of_isSome (List.isSome_head?.2 hrest)]
    have hlast : ∀ c, rest.reverse.head? = some c → isBlank c = false := by
      rwa [List.head?_reverse]
    rw [dropWhile_isBlank_append hbefore hfirst, List.reverse_append,
      dropWhile_isBlank_append (fun c hc ↦ hafter c (List.mem_reverse.1 hc)) hlast,
      List.reverse_reverse]

/-- Trimming takes off what there is to be taken off. -/
theorem trim_eq_iff {s t : String} : trim s = t ↔ IsTrimmed s.toList t.toList := by
  rw [trim, ← String.toList_inj, String.toList_ofList]
  exact ⟨fun h ↦ h ▸ isTrimmed_trimChars _, IsTrimmed.trimChars_eq⟩

/-! ### Texts inside texts -/

/-- Whether one text stands somewhere inside another. -/
def occursIn (part : List Char) : List Char → Bool
  | [] => part.isEmpty
  | c :: cs => part.isPrefixOf (c :: cs) || occursIn part cs

theorem occursIn_iff {part cs : List Char} : occursIn part cs = true ↔ part <:+: cs := by
  induction cs with
  | nil => rw [occursIn, List.isEmpty_iff, List.infix_nil]
  | cons c cs ih =>
    rw [occursIn, Bool.or_eq_true, List.isPrefixOf_iff_prefix, ih, List.infix_cons_iff]

end BuildFleet.Text
