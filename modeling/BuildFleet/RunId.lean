import BuildFleet.Decimal

/-!
# Identifiers of runs

A run is known by 128 bits, written as 32 hexadecimal digits in five groups with hyphens between
them. Reading takes three other forms too: without hyphens, in braces, and as a name in the
`urn:uuid:` space. In none of them does the case of letters matter.
-/

namespace BuildFleet

/-- The identifier of a run. -/
structure RunId where
  bits : BitVec 128
  deriving DecidableEq, Inhabited

namespace RunId

/-- The identifier that is made from a random number: six of its bits are set so as to say that the
others are random. -/
def random (n : Nat) : RunId :=
  let bits := BitVec.ofNat 128 n
  let kept := ~~~(0xF#128 <<< 76 ||| 0x3#128 <<< 62)
  ⟨(bits &&& kept) ||| 0x4#128 <<< 76 ||| 0x2#128 <<< 62⟩

/-- The sizes of the groups of digits. -/
def groups : List Nat := [8, 4, 4, 4, 12]

/-- The last of a number's digits in base sixteen, so many of them, in lower case. -/
def hexDigits : (digits : Nat) → Nat → List Char
  | 0, _ => []
  | digits + 1, n =>
    let d := n % 16
    hexDigits digits (n / 16) ++ [if d < 10 then Char.ofNat (48 + d) else Char.ofNat (87 + d)]

/-- Puts a hyphen after each group of digits but the last. -/
def hyphenate : List Nat → List Char → List Char
  | [], cs => cs
  | [_], cs => cs
  | size :: sizes, cs => cs.take size ++ '-' :: hyphenate sizes (cs.drop size)

/-- The text of an identifier. -/
def text (id : RunId) : String :=
  String.ofList (hyphenate groups (hexDigits 32 id.bits.toNat))

/-- The digits in groups with hyphens between them. -/
def unhyphenate? : List Nat → List Char → Option (List Char)
  | [], cs => if cs.isEmpty then some [] else none
  | [size], cs => if cs.length == size then some cs else none
  | size :: sizes, cs =>
    if (cs.drop size).head? == some '-' then
      (unhyphenate? sizes (cs.drop (size + 1))).map (cs.take size ++ ·)
    else none

/-- The identifier with so many digits. -/
def ofDigits? (cs : List Char) : Option RunId :=
  if cs.length == 32 then (natOfDigits? 16 cs).map fun n ↦ ⟨BitVec.ofNat 128 n⟩ else none

/-- The characters between braces. -/
def unbrace? (cs : List Char) : Option (List Char) :=
  if cs.head? == some '{' && cs.getLast? == some '}' then some (cs.drop 1).dropLast else none

/-- The space of names that identifiers belong to. -/
def urn : List Char := "urn:uuid:".toList

/-- The identifier that a text is. -/
def parse? (s : String) : Option RunId :=
  let cs := s.toList
  if cs.length == 32 then ofDigits? cs
  else
    let hyphenated? : Option (List Char) :=
      if cs.length == 36 then some cs
      else if cs.length == 38 then unbrace? cs
      else if (cs.take urn.length).map Char.toLower == urn then some (cs.drop urn.length)
      else none
    hyphenated?.bind fun cs ↦ (unhyphenate? groups cs).bind ofDigits?

/-! ## The text is read back -/

theorem length_hexDigits (digits n : Nat) : (hexDigits digits n).length = digits := by
  induction digits generalizing n with
  | zero => rfl
  | succ digits ih => rw [hexDigits, List.length_append, ih, List.length_singleton]

/-- The digits of a number denote what is left of it in so many digits. -/
theorem foldlM_hexDigits (digits n value : Nat) :
    (hexDigits digits n).foldlM (fun n d ↦ (digitValue? 16 d).map (n * 16 + ·)) value =
      some (value * Nat.pow 16 digits + n % Nat.pow 16 digits) := by
  have hdigit : ∀ d < 16,
      digitValue? 16 (if d < 10 then Char.ofNat (48 + d) else Char.ofNat (87 + d)) = some d := by
    decide
  induction digits generalizing n with
  | zero =>
    have hpow : Nat.pow 16 0 = 1 := rfl
    rw [hpow, Nat.mul_one, Nat.mod_one]
    rfl
  | succ digits ih =>
    have hpow : Nat.pow 16 (digits + 1) = 16 * Nat.pow 16 digits := Nat.pow_succ'
    have hlast := hdigit (n % 16) (Nat.mod_lt n (by decide))
    rw [hexDigits, List.foldlM_append, ih, hpow, Nat.mod_mul, Nat.mul_left_comm]
    simp only [Option.bind_eq_bind, Option.bind_some, List.foldlM_cons, List.foldlM_nil, hlast,
      Option.map_some, Option.pure_def, Option.some.injEq]
    omega

/-- The number of digits in groups of these sizes. -/
def digitCount : List Nat → Nat
  | [] => 0
  | size :: sizes => size + digitCount sizes

/-- One hyphen less than there are groups is put in. -/
theorem length_hyphenate {sizes : List Nat} {cs : List Char} (hne : sizes ≠ [])
    (h : cs.length = digitCount sizes) :
    (hyphenate sizes cs).length + 1 = cs.length + sizes.length := by
  induction sizes generalizing cs with
  | nil => exact absurd rfl hne
  | cons size sizes ih =>
    cases sizes with
    | nil => rfl
    | cons next sizes =>
      rw [digitCount] at h
      have hdrop : (cs.drop size).length = digitCount (next :: sizes) := by
        rw [List.length_drop]
        omega
      have hrest := ih (List.cons_ne_nil next sizes) hdrop
      have hsplit : hyphenate (size :: next :: sizes) cs =
          cs.take size ++ '-' :: hyphenate (next :: sizes) (cs.drop size) := rfl
      rw [hsplit]
      simp only [List.length_append, List.length_cons, List.length_take, List.length_drop]
        at hrest ⊢
      omega

/-- Hyphens between the groups are taken out again. -/
theorem unhyphenate?_hyphenate {sizes : List Nat} {cs : List Char} (hne : sizes ≠ [])
    (h : cs.length = digitCount sizes) : unhyphenate? sizes (hyphenate sizes cs) = some cs := by
  induction sizes generalizing cs with
  | nil => exact absurd rfl hne
  | cons size sizes ih =>
    cases sizes with
    | nil => simp_all [hyphenate, unhyphenate?, digitCount]
    | cons next sizes =>
      rw [digitCount] at h
      have htake : (cs.take size).length = size := by
        rw [List.length_take]
        omega
      have hdrop : (cs.drop size).length = digitCount (next :: sizes) := by
        rw [List.length_drop]
        omega
      have hrest := ih (List.cons_ne_nil next sizes) hdrop
      have hsplit : hyphenate (size :: next :: sizes) cs =
          cs.take size ++ '-' :: hyphenate (next :: sizes) (cs.drop size) := rfl
      have hunfold : ∀ ds, unhyphenate? (size :: next :: sizes) ds =
          if (ds.drop size).head? == some '-' then
            (unhyphenate? (next :: sizes) (ds.drop (size + 1))).map (ds.take size ++ ·)
          else none := fun _ ↦ rfl
      rw [hunfold, hsplit, ← List.drop_drop, List.drop_left' htake, List.take_left' htake,
        List.drop_one, List.tail_cons, hrest, Option.map_some, List.take_append_drop]
      rfl

/-- The text of an identifier is read as the identifier. -/
theorem parse?_text (id : RunId) : parse? id.text = some id := by
  have hlength : (hexDigits 32 id.bits.toNat).length = 32 := length_hexDigits 32 _
  have hhyphens : (hyphenate groups (hexDigits 32 id.bits.toNat)).length = 36 := by
    have h : (hyphenate groups _).length + 1 = _ := length_hyphenate (by decide) hlength
    rw [hlength] at h
    exact Nat.succ.inj h
  have hof : ofDigits? (hexDigits 32 id.bits.toNat) = some id := by
    obtain ⟨c, cs, hcs⟩ := List.exists_cons_of_length_eq_add_one hlength
    have hvalue := foldlM_hexDigits 32 id.bits.toNat 0
    have hlt : id.bits.toNat % Nat.pow 16 32 = id.bits.toNat := Nat.mod_eq_of_lt id.bits.isLt
    rw [hlt, Nat.zero_mul, Nat.zero_add] at hvalue
    have hnat : natOfDigits? 16 (hexDigits 32 id.bits.toNat) = some id.bits.toNat := by
      rw [← hvalue, hcs]
      rfl
    rw [ofDigits?, hlength, hnat]
    simp
  have hgroups : unhyphenate? groups (hyphenate groups _) = some _ :=
    unhyphenate?_hyphenate (by decide) hlength
  rw [parse?, text, String.toList_ofList]
  simp [hhyphens, hgroups, hof]

end RunId

end BuildFleet
