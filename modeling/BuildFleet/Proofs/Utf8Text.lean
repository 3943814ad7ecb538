import BuildFleet.Text.Utf8

/-!
# Bytes that spell a text

Strict reading accepts exactly the bytes that spell a text in UTF-8, and gives back that text. So a
text has one spelling, and whatever else is read is a fault. Lenient reading gives the same text for
such bytes. For others it does what strict reading does up to the fault, puts U+FFFD in the place of
it and goes on behind it, so that it is described by the faults that strict reading would find.

A character is spelt in one of four shapes, by its code. The shapes stand between the encoder, which
cuts a code into groups of six bits, and the reader, which looks at a first byte and at ranges for
the bytes after it: each of the two is compared with the shapes, and never with the other one.

## Ranges

There are more first bytes than shapes. After four of them the second byte has a range of its own,
which leaves out what could be spelt with fewer bytes, the codes that are set aside for pairs, and
what is above the last code. In the shapes these are bounds on the leading groups of the code, and
it is arithmetic that a bound and a range say the same.
-/

namespace BuildFleet.Text.Utf8

/-- The bytes that spell a text. -/
def encode (s : String) : List UInt8 := s.toList.flatMap String.utf8EncodeChar

/-! ## Shapes -/

/-- A byte that goes on with a character, by the six bits of the code that it holds. -/
def tail (x : Nat) : UInt8 := UInt8.ofNat (x + 0x80)

/-- The shapes in which characters are spelt, by the groups of bits of their codes. -/
inductive Shape : Char → List UInt8 → Prop
  | one {n : Nat} (h : n < 0x80) : Shape (Char.ofNat n) [UInt8.ofNat n]
  | two {a x : Nat} (h : 2 ≤ a) (ha : a < 32) (hx : x < 64) :
    Shape (Char.ofNat (a * 64 + x)) [UInt8.ofNat (a + 0xC0), tail x]
  | three {a x y : Nat} (h : 32 ≤ a * 64 + x) (ha : a < 16) (hx : x < 64) (hy : y < 64)
    (hs : a * 64 + x < 0x360 ∨ 0x380 ≤ a * 64 + x) :
    Shape (Char.ofNat ((a * 64 + x) * 64 + y)) [UInt8.ofNat (a + 0xE0), tail x, tail y]
  | four {a x y z : Nat} (h : 16 ≤ a * 64 + x) (ha : a * 64 + x < 0x110) (hx : x < 64)
    (hy : y < 64) (hz : z < 64) :
    Shape (Char.ofNat (((a * 64 + x) * 64 + y) * 64 + z))
      [UInt8.ofNat (a + 0xF0), tail x, tail y, tail z]

theorem val_ofNat {n : Nat} (h : n.isValidChar) : (Char.ofNat n).val.toNat = n := by
  rw [Char.ofNat, dif_pos h]
  rfl

namespace Shape

theorem eq_utf8EncodeChar {c : Char} {bs : List UInt8} (h : Shape c bs) :
    bs = String.utf8EncodeChar c := by
  cases h with
  | @one n h =>
    rw [String.utf8EncodeChar, val_ofNat (.inl (by omega)), if_pos (by omega)]
  | @two a x h ha hx =>
    rw [String.utf8EncodeChar, val_ofNat (.inl (by omega)), if_neg (by omega), if_pos (by omega)]
    have hfirst : (a * 64 + x) / 64 % 32 = a := by omega
    have hlast : (a * 64 + x) % 64 = x := by omega
    rw [hfirst, hlast, tail]
  | @three a x y h ha hx hy hs =>
    have hvalid : ((a * 64 + x) * 64 + y).isValidChar := by
      rcases hs with hs | hs
      · exact .inl (by omega)
      · exact .inr ⟨by omega, by omega⟩
    rw [String.utf8EncodeChar, val_ofNat hvalid, if_neg (by omega), if_neg (by omega),
      if_pos (by omega)]
    have hfirst : ((a * 64 + x) * 64 + y) / 4096 % 16 = a := by omega
    have hmiddle : ((a * 64 + x) * 64 + y) / 64 % 64 = x := by omega
    have hlast : ((a * 64 + x) * 64 + y) % 64 = y := by omega
    rw [hfirst, hmiddle, hlast, tail, tail]
  | @four a x y z h ha hx hy hz =>
    rw [String.utf8EncodeChar, val_ofNat (.inr ⟨by omega, by omega⟩), if_neg (by omega),
      if_neg (by omega), if_neg (by omega)]
    have hfirst : (((a * 64 + x) * 64 + y) * 64 + z) / 262144 % 8 = a := by omega
    have hsecond : (((a * 64 + x) * 64 + y) * 64 + z) / 4096 % 64 = x := by omega
    have hthird : (((a * 64 + x) * 64 + y) * 64 + z) / 64 % 64 = y := by omega
    have hlast : (((a * 64 + x) * 64 + y) * 64 + z) % 64 = z := by omega
    rw [hfirst, hsecond, hthird, hlast, tail, tail, tail]

theorem exists_shape (c : Char) : ∃ bs, Shape c bs := by
  have hc : Char.ofNat c.toNat = c := Char.ofNat_toNat c
  have hvalid : c.toNat.isValidChar := c.valid
  generalize c.toNat = n at hc hvalid
  by_cases h1 : n < 0x80
  · exact ⟨_, hc ▸ one h1⟩
  · by_cases h2 : n < 0x800
    · have hn : n / 64 * 64 + n % 64 = n := by omega
      have hshape := two (a := n / 64) (x := n % 64) (by omega) (by omega) (by omega)
      rw [hn, hc] at hshape
      exact ⟨_, hshape⟩
    · by_cases h3 : n < 0x10000
      · have hn : (n / 4096 * 64 + n / 64 % 64) * 64 + n % 64 = n := by omega
        have hshape := three (a := n / 4096) (x := n / 64 % 64) (y := n % 64) (by omega) (by omega)
          (by omega) (by omega) (by rcases hvalid with hlow | hhigh <;> omega)
        rw [hn, hc] at hshape
        exact ⟨_, hshape⟩
      · have hn : ((n / 262144 * 64 + n / 4096 % 64) * 64 + n / 64 % 64) * 64 + n % 64 = n := by
          omega
        have hbound : n < 0x110000 := by rcases hvalid with hlow | hhigh <;> omega
        have hshape := four (a := n / 262144) (x := n / 4096 % 64) (y := n / 64 % 64)
          (z := n % 64) (by omega) (by omega) (by omega) (by omega) (by omega)
        rw [hn, hc] at hshape
        exact ⟨_, hshape⟩

theorem shape_utf8EncodeChar (c : Char) : Shape c (String.utf8EncodeChar c) := by
  obtain ⟨bs, hbs⟩ := exists_shape c
  rw [← hbs.eq_utf8EncodeChar]
  exact hbs

end Shape

/-! ## Units

Both directions are needed. Bytes that start with a shape have its character as their first unit,
and a unit that is a character stands in a shape of it. The second one goes through the first bytes
in the order in which the reader does. -/

theorem toNat_ofNat_byte {n : Nat} (h : n < 256) : (UInt8.ofNat n).toNat = n :=
  UInt8.toNat_ofNat_of_lt h

theorem continued_tail {low high x : Nat} (hx : x < 64) (hlow : low ≤ x + 0x80)
    (hhigh : x + 0x80 ≤ high) (width code : Nat) (ranges : List (Nat × Nat)) (bs : List UInt8) :
    continued width code ((low, high) :: ranges) (tail x :: bs) =
      continued (width + 1) (code * 64 + x) ranges bs := by
  have htail : (tail x).toNat = x + 0x80 := toNat_ofNat_byte (by omega)
  have hwithin : within low high (tail x) = true := by
    rw [within, htail]
    simp [hlow, hhigh]
  have hpayload : payload (tail x) = x := by
    rw [payload, htail]
    omega
  rw [continued, if_pos hwithin, hpayload]

theorem exists_tail {low high width code n : Nat} {ranges : List (Nat × Nat)} {bs : List UInt8}
    {c : Char} (h : continued width code ((low, high) :: ranges) bs = .char c n)
    (hlow : 0x80 ≤ low) (hhigh : high ≤ 0xBF) :
    ∃ x rest, bs = tail x :: rest ∧ x < 64 ∧ low ≤ x + 0x80 ∧ x + 0x80 ≤ high ∧
      continued (width + 1) (code * 64 + x) ranges rest = .char c n := by
  cases bs with
  | nil => cases h
  | cons b bs =>
    rw [continued] at h
    split at h
    · rename_i hwithin
      simp only [within, Bool.and_eq_true, decide_eq_true_eq] at hwithin
      have hx : b.toNat - 0x80 + 0x80 = b.toNat := by omega
      have hb : b = tail (b.toNat - 0x80) := by
        rw [tail, hx, UInt8.ofNat_toNat]
      have hpayload : payload b = b.toNat - 0x80 := by
        rw [payload]
        omega
      rw [hpayload] at h
      exact ⟨_, bs, by rw [← hb], by omega, by omega, by omega, h⟩
    · cases h

namespace Shape

/-- Of bytes that start with a shape, the first unit is its character. -/
theorem unit_append {c : Char} {b : UInt8} {bs : List UInt8} (h : Shape c (b :: bs))
    (rest : List UInt8) : unit b (bs ++ rest) = .char c (bs.length + 1) := by
  cases h with
  | one h =>
    rw [unit, toNat_ofNat_byte (by omega), if_pos h]
    rfl
  | two h ha hx =>
    rw [unit, toNat_ofNat_byte (by omega), if_neg (by omega), if_neg (by omega), if_pos (by omega),
      List.cons_append, continued_tail hx (by omega) (by omega), Nat.add_sub_cancel]
    rfl
  | @three a x y h ha hx hy hs =>
    rw [unit, toNat_ofNat_byte (by omega), if_neg (by omega), if_neg (by omega), if_neg (by omega),
      List.cons_append, List.cons_append]
    -- two first bytes have a range of their own after them
    by_cases hzero : a = 0
    · rw [if_pos (by omega), continued_tail hx (by omega) (by omega),
        continued_tail hy (by omega) (by omega), hzero]
      rfl
    · rw [if_neg (by omega)]
      by_cases hsurrogates : a = 0xD
      · rw [if_pos (by omega), continued_tail hx (by omega) (by omega),
          continued_tail hy (by omega) (by omega), hsurrogates]
        rfl
      · rw [if_neg (by omega), if_pos (by omega), continued_tail hx (by omega) (by omega),
          continued_tail hy (by omega) (by omega), Nat.add_sub_cancel]
        rfl
  | @four a x y z h ha hx hy hz =>
    rw [unit, toNat_ofNat_byte (by omega), if_neg (by omega), if_neg (by omega), if_neg (by omega),
      if_neg (by omega), if_neg (by omega), if_neg (by omega), List.cons_append, List.cons_append,
      List.cons_append]
    by_cases hzero : a = 0
    · rw [if_pos (by omega), continued_tail hx (by omega) (by omega),
        continued_tail hy (by omega) (by omega), continued_tail hz (by omega) (by omega), hzero]
      rfl
    · rw [if_neg (by omega)]
      by_cases hlast : a = 4
      · rw [if_neg (by omega), if_pos (by omega), continued_tail hx (by omega) (by omega),
          continued_tail hy (by omega) (by omega), continued_tail hz (by omega) (by omega), hlast]
        rfl
      · rw [if_pos (by omega), continued_tail hx (by omega) (by omega),
          continued_tail hy (by omega) (by omega), continued_tail hz (by omega) (by omega),
          Nat.add_sub_cancel]
        rfl

/-- What is asked of the start of a list of bytes: it is so many bytes long, and they make a
character with the byte before them. -/
def Starts (c : Char) (b : UInt8) (bs : List UInt8) (width : Nat) : Prop :=
  ∃ more rest, bs = more ++ rest ∧ Shape c (b :: more) ∧ width = more.length + 1

variable {c : Char} {b : UInt8} {bs : List UInt8} {a low high width : Nat}

theorem starts_of_three (ha : a < 16) (hlow : 0x80 ≤ low) (hhigh : high ≤ 0xBF)
    (hcode : ∀ x < 64, low ≤ x + 0x80 → x + 0x80 ≤ high →
      32 ≤ a * 64 + x ∧ (a * 64 + x < 0x360 ∨ 0x380 ≤ a * 64 + x))
    (h : continued 1 a [(low, high), (0x80, 0xBF)] bs = .char c width) :
    Starts c (UInt8.ofNat (a + 0xE0)) bs width := by
  obtain ⟨x, rest, rfl, hx, hxlow, hxhigh, h⟩ := exists_tail h hlow hhigh
  obtain ⟨y, rest, rfl, hy, -, -, h⟩ := exists_tail h (by omega) (by omega)
  obtain ⟨hmin, hs⟩ := hcode x hx hxlow hxhigh
  cases h
  exact ⟨[tail x, tail y], rest, rfl, three hmin ha hx hy hs, rfl⟩

theorem starts_of_four (hlow : 0x80 ≤ low) (hhigh : high ≤ 0xBF)
    (hcode : ∀ x < 64, low ≤ x + 0x80 → x + 0x80 ≤ high →
      16 ≤ a * 64 + x ∧ a * 64 + x < 0x110)
    (h : continued 1 a [(low, high), (0x80, 0xBF), (0x80, 0xBF)] bs = .char c width) :
    Starts c (UInt8.ofNat (a + 0xF0)) bs width := by
  obtain ⟨x, rest, rfl, hx, hxlow, hxhigh, h⟩ := exists_tail h hlow hhigh
  obtain ⟨y, rest, rfl, hy, -, -, h⟩ := exists_tail h (by omega) (by omega)
  obtain ⟨z, rest, rfl, hz, -, -, h⟩ := exists_tail h (by omega) (by omega)
  obtain ⟨hmin, hmax⟩ := hcode x hx hxlow hxhigh
  cases h
  exact ⟨[tail x, tail y, tail z], rest, rfl, four hmin hmax hx hy hz, rfl⟩

/-- A unit that is a character stands in a shape of it. -/
theorem starts_of_unit (h : unit b bs = .char c width) : Starts c b bs width := by
  obtain ⟨n, hn, rfl⟩ : ∃ n < 256, b = UInt8.ofNat n :=
    ⟨b.toNat, b.toNat_lt, UInt8.ofNat_toNat.symm⟩
  rw [unit, toNat_ofNat_byte hn] at h
  -- the order of the cases is that of the first bytes
  by_cases hone : n < 0x80
  · rw [if_pos hone] at h
    cases h
    exact ⟨[], bs, rfl, one hone, rfl⟩
  rw [if_neg hone] at h
  by_cases hstray : n < 0xC2
  · rw [if_pos hstray] at h
    cases h
  rw [if_neg hstray] at h
  by_cases htwo : n < 0xE0
  · obtain ⟨a, rfl⟩ : ∃ a, n = a + 0xC0 := ⟨n - 0xC0, by omega⟩
    rw [if_pos htwo, Nat.add_sub_cancel] at h
    obtain ⟨x, rest, rfl, hx, -, -, h⟩ := exists_tail h (by omega) (by omega)
    cases h
    exact ⟨[tail x], rest, rfl, two (by omega) (by omega) hx, rfl⟩
  rw [if_neg htwo] at h
  by_cases hzero : n = 0xE0
  · rw [if_pos hzero] at h
    rw [hzero]
    exact starts_of_three (a := 0) (by omega) (by omega) (by omega) (by omega) h
  rw [if_neg hzero] at h
  by_cases hsurrogates : n = 0xED
  · rw [if_pos hsurrogates] at h
    rw [hsurrogates]
    exact starts_of_three (a := 0xD) (by omega) (by omega) (by omega) (by omega) h
  rw [if_neg hsurrogates] at h
  by_cases hthree : n < 0xF0
  · obtain ⟨a, rfl⟩ : ∃ a, n = a + 0xE0 := ⟨n - 0xE0, by omega⟩
    rw [if_pos hthree, Nat.add_sub_cancel] at h
    exact starts_of_three (by omega) (by omega) (by omega) (by omega) h
  rw [if_neg hthree] at h
  by_cases hplanes : n = 0xF0
  · rw [if_pos hplanes] at h
    rw [hplanes]
    exact starts_of_four (a := 0) (by omega) (by omega) (by omega) h
  rw [if_neg hplanes] at h
  by_cases hfour : n < 0xF4
  · obtain ⟨a, rfl⟩ : ∃ a, n = a + 0xF0 := ⟨n - 0xF0, by omega⟩
    rw [if_pos hfour, Nat.add_sub_cancel] at h
    exact starts_of_four (by omega) (by omega) (by omega) h
  rw [if_neg hfour] at h
  by_cases hlast : n = 0xF4
  · rw [if_pos hlast] at h
    rw [hlast]
    exact starts_of_four (a := 4) (by omega) (by omega) (by omega) h
  · rw [if_neg hlast] at h
    cases h

end Shape

/-! ## Texts

A character takes up the bytes of its shape, and the reader passes over them one by one while it
counts. So the induction is on the number of bytes, and its step takes off a whole character. It
shows at once where reading stops: at the end, or behind a text at a unit that is no character. -/

theorem decodeFrom_append (index : Nat) (more rest : List UInt8) :
    decodeFrom index more.length (more ++ rest) = decodeFrom (index + more.length) 0 rest := by
  induction more generalizing index with
  | nil => rfl
  | cons b more ih =>
    rw [List.length_cons, List.cons_append, decodeFrom, ih, Nat.add_assoc, Nat.add_comm 1]

theorem decodeFrom_shape {c : Char} {bs : List UInt8} (h : Shape c bs) (index : Nat)
    (rest : List UInt8) :
    decodeFrom index 0 (bs ++ rest) =
      (decodeFrom (index + bs.length) 0 rest).map (c :: ·) := by
  cases bs with
  | nil => cases h
  | cons b more =>
    rw [List.cons_append, decodeFrom, h.unit_append]
    dsimp only
    rw [Nat.add_sub_cancel, decodeFrom_append, List.length_cons, Nat.add_assoc, Nat.add_comm 1]

theorem decodeFrom_flatMap (index : Nat) (cs : List Char) :
    decodeFrom index 0 (cs.flatMap String.utf8EncodeChar) = .ok cs := by
  induction cs generalizing index with
  | nil => rfl
  | cons c cs ih =>
    rw [List.flatMap_cons, decodeFrom_shape (Shape.shape_utf8EncodeChar c), ih]
    rfl

/-- The fault that a unit is at an index, unless it is a character. -/
def Unit.fault? (index : Nat) : Unit → Option Fault
  | .char .. => none
  | .illFormed width => some (.illFormed width index)
  | .cutOff => some (.cutOff index)

/-- Strict reading comes to the end of a text, or stops behind one at a unit that is at fault. -/
theorem decodeFrom_cases (index : Nat) (bytes : List UInt8) :
    (∃ cs : List Char, bytes = cs.flatMap String.utf8EncodeChar ∧
        decodeFrom index 0 bytes = .ok cs) ∨
      ∃ (cs : List Char) (b : UInt8) (bs : List UInt8) (fault : Fault),
        bytes = cs.flatMap String.utf8EncodeChar ++ b :: bs ∧
          (unit b bs).fault? (index + (cs.flatMap String.utf8EncodeChar).length) = some fault ∧
            decodeFrom index 0 bytes = .error fault := by
  induction hn : bytes.length using Nat.strongRecOn generalizing bytes index with
  | ind n ih =>
    cases bytes with
    | nil => exact .inl ⟨[], rfl, rfl⟩
    | cons b bs =>
      cases hunit : unit b bs with
      | illFormed width =>
        exact .inr ⟨[], b, bs, .illFormed width index, rfl, by rw [hunit]; rfl,
          by rw [decodeFrom, hunit]⟩
      | cutOff =>
        exact .inr ⟨[], b, bs, .cutOff index, rfl, by rw [hunit]; rfl, by rw [decodeFrom, hunit]⟩
      | char c width =>
        -- the first character takes up its bytes, and the rest is shorter
        obtain ⟨more, rest, rfl, hshape, -⟩ := Shape.starts_of_unit hunit
        have hspelt := hshape.eq_utf8EncodeChar
        have hlt : rest.length < n := by
          rw [← hn, List.length_cons, List.length_append]
          omega
        rw [← List.cons_append, decodeFrom_shape hshape]
        rcases ih rest.length hlt (index + (b :: more).length) rest rfl with
          ⟨cs, hrest, hread⟩ | ⟨cs, b', bs', fault, hrest, hfault, hread⟩
        · refine .inl ⟨c :: cs, ?_, by rw [hread]; rfl⟩
          rw [List.flatMap_cons, ← hspelt, hrest]
        · refine .inr ⟨c :: cs, b', bs', fault, ?_, ?_, by rw [hread]; rfl⟩
          · rw [List.flatMap_cons, ← hspelt, hrest, List.append_assoc]
          · rw [List.flatMap_cons, ← hspelt, List.length_append, ← Nat.add_assoc]
            exact hfault

/-- Nothing but the spelling of a text is read as the text. -/
theorem eq_flatMap_of_decodeFrom {bytes : List UInt8} {index : Nat} {cs : List Char}
    (h : decodeFrom index 0 bytes = .ok cs) : bytes = cs.flatMap String.utf8EncodeChar := by
  rcases decodeFrom_cases index bytes with ⟨cs', hbytes, hread⟩ | ⟨_, _, _, _, -, -, hread⟩
  · rw [hread] at h
    cases h
    exact hbytes
  · rw [hread] at h
    cases h

/-- Bytes are read as a text if they spell it, and only then. -/
theorem decode_eq_ok_iff {bytes : List UInt8} {s : String} :
    decode bytes = .ok s ↔ bytes = encode s := by
  rw [decode, encode]
  constructor
  · intro h
    cases hchars : decodeFrom 0 0 bytes with
    | error fault =>
      rw [hchars] at h
      cases h
    | ok cs =>
      rw [hchars] at h
      cases h
      rw [String.toList_ofList]
      exact eq_flatMap_of_decodeFrom hchars
  · rintro rfl
    rw [decodeFrom_flatMap]
    exact congrArg Except.ok (String.ofList_toList)

-- a euro sign, and the same with a byte missing
example : decode [0xE2, 0x82, 0xAC] = .ok "€" ∧ decode [0xE2, 0x82] = .error (.cutOff 0) :=
  ⟨rfl, rfl⟩

/-! ## Lenient reading -/

def Fault.index : Fault → Nat
  | .illFormed _ index => index
  | .cutOff index => index

/-- The bytes behind the unit that is at fault. -/
def Fault.behind (bytes : List UInt8) : Fault → List UInt8
  | .illFormed width index => bytes.drop (index + width)
  | .cutOff _ => []

theorem lenientFrom_eq_drop (skip : Nat) (bytes : List UInt8) :
    lenientFrom skip bytes = lenientFrom 0 (bytes.drop skip) := by
  induction bytes generalizing skip with
  | nil =>
    rw [List.drop_nil]
    rfl
  | cons b bs ih =>
    cases skip with
    | zero => rfl
    | succ k =>
      rw [lenientFrom, List.drop_succ_cons]
      exact ih k

theorem lenientFrom_flatMap_append (cs : List Char) (rest : List UInt8) :
    lenientFrom 0 (cs.flatMap String.utf8EncodeChar ++ rest) = cs ++ lenientFrom 0 rest := by
  induction cs with
  | nil => rfl
  | cons c cs ih =>
    obtain ⟨b, more, hspelt⟩ := List.exists_cons_of_ne_nil (String.utf8EncodeChar_ne_nil (c := c))
    have hshape := Shape.shape_utf8EncodeChar c
    rw [hspelt] at hshape
    rw [List.flatMap_cons, hspelt, List.append_assoc, List.cons_append, lenientFrom,
      hshape.unit_append]
    dsimp only
    rw [lenientFrom_eq_drop, Nat.add_sub_cancel, List.drop_left, ih, List.cons_append]

theorem le_width_of_continued {width code n : Nat} {ranges : List (Nat × Nat)} {bs : List UInt8}
    (h : continued width code ranges bs = .illFormed n) : width ≤ n := by
  induction ranges generalizing width code bs with
  | nil => cases h
  | cons range ranges ih =>
    cases bs with
    | nil => cases h
    | cons b bs =>
      rw [continued] at h
      split at h
      · exact Nat.le_of_succ_le (ih h)
      · cases h
        exact Nat.le_refl _

/-- An ill-formed part is at least one byte long. -/
theorem pos_of_unit {b : UInt8} {bs : List UInt8} {width : Nat}
    (h : unit b bs = .illFormed width) : 0 < width := by
  -- a unit is a byte on its own, or what the bytes after it continue
  simp only [unit] at h
  repeat' split at h
  any_goals exact le_width_of_continued h
  all_goals cases h
  all_goals exact Nat.one_pos

theorem decodeLenient_encode (s : String) : decodeLenient (encode s) = s := by
  have hread := lenientFrom_flatMap_append s.toList []
  rw [List.append_nil] at hread
  rw [decodeLenient, encode, hread, lenientFrom, List.append_nil, String.ofList_toList]

/-- Where strict reading stops, lenient reading has read the same text. It puts U+FFFD in the place
of the unit that is at fault, and goes on behind it. -/
theorem decodeLenient_of_fault {bytes : List UInt8} {fault : Fault}
    (h : decode bytes = .error fault) :
    ∃ text, encode text = bytes.take fault.index ∧
      decodeLenient bytes = text ++ "\uFFFD" ++ decodeLenient (fault.behind bytes) := by
  rw [decode] at h
  rcases decodeFrom_cases 0 bytes with ⟨cs, -, hread⟩ | ⟨cs, b, bs, fault', rfl, hunit, hread⟩
  · rw [hread] at h
    cases h
  rw [hread] at h
  cases h
  rw [Nat.zero_add] at hunit
  refine ⟨String.ofList cs, ?_⟩
  rw [encode, decodeLenient, lenientFrom_flatMap_append, lenientFrom, String.toList_ofList]
  cases hb : unit b bs with
  | char c width =>
    rw [hb] at hunit
    cases hunit
  | illFormed width =>
    rw [hb] at hunit
    cases hunit
    obtain ⟨k, rfl⟩ : ∃ k, width = k + 1 := ⟨width - 1, by have := pos_of_unit hb; omega⟩
    dsimp only
    rw [lenientFrom_eq_drop, Fault.index, Fault.behind, List.take_left, decodeLenient,
      ← List.drop_drop, List.drop_left, List.drop_succ_cons, Nat.add_sub_cancel]
    exact ⟨rfl, by simp [← String.toList_inj]⟩
  | cutOff =>
    rw [hb] at hunit
    cases hunit
    rw [Fault.index, Fault.behind, List.take_left, decodeLenient]
    exact ⟨rfl, by simp [lenientFrom]⟩

end BuildFleet.Text.Utf8
