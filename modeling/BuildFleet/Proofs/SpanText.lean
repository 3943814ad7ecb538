import BuildFleet.Span
import Mathlib.Data.List.TakeWhile

/-!
# Spans read back

A span is shown as a number of the largest unit that it reaches, and of the decimal places only
those are written that are needed. Nothing is lost by this: the digits, read as a whole number,
denote the nanoseconds once the places that were left out are put back. So spans are told apart by
their texts, and with them the failures that name a span. Nor is more written than that: no zero
stands at the end of the decimal places.

## A reader of its own

The program never reads a span, so the reader is made up here to say what a text denotes. It looks
for the digits in front of the point and behind it, and takes what comes after them for the unit. It
knows how many places each unit leaves to the nanoseconds and nothing of how a span is written, and
it takes any number of places that the unit has room for. That there is such a reader, and that it
finds the span again, is more than that texts differ: it says what each of them means.

The digits behind the point are the ones in which something could go wrong. They are written with
the zeros in front that make up the number of places, and without those at the end, and the lemmas
on digits put both back.
-/

namespace BuildFleet.Span

/-! ## Reading -/

def units : List (List Char × Nat) :=
  [("s".toList, 9), ("ms".toList, 6), ("µs".toList, 3), ("ns".toList, 0)]

/-- The digits before and after the point of the number that a text starts with, and what comes
after the number. -/
def splitNumber (cs : List Char) : List Char × List Char × List Char :=
  match cs.dropWhile Char.isDigit with
  | '.' :: rest =>
    (cs.takeWhile Char.isDigit, rest.takeWhile Char.isDigit, rest.dropWhile Char.isDigit)
  | rest => (cs.takeWhile Char.isDigit, [], rest)

/-- The span that a number and a unit denote, if the number has no more places than the unit. -/
def denoted? (whole fraction unit : List Char) : Option Span :=
  match units.find? (·.1 == unit) with
  | some (_, places) =>
    if fraction.length ≤ places then
      some ⟨Nat.ofDigitChars 10 (whole ++ fraction) 0 * Nat.pow 10 (places - fraction.length)⟩
    else none
  | none => none

/-- The span that a text denotes. -/
def ofText? (s : String) : Option Span :=
  let (whole, fraction, unit) := splitNumber s.toList
  denoted? whole fraction unit

/-! ## Digits -/

theorem length_paddedDigits (places n : Nat) : (paddedDigits places n).length = places := by
  induction places generalizing n with
  | zero => rfl
  | succ places ih => rw [paddedDigits, List.length_append, ih, List.length_singleton]

theorem isDigit_of_mem_paddedDigits {places n : Nat} {c : Char} (h : c ∈ paddedDigits places n) :
    c.isDigit = true := by
  have hdigit : ∀ d < 10, (Char.ofNat (48 + d)).isDigit = true := by decide
  induction places generalizing n with
  | zero => cases h
  | succ places ih =>
    rw [paddedDigits, List.mem_append, List.mem_singleton] at h
    rcases h with h | rfl
    · exact ih h
    · exact hdigit (n % 10) (Nat.mod_lt n (by decide))

theorem ofDigitChars_paddedDigits (places n value : Nat) :
    Nat.ofDigitChars 10 (paddedDigits places n) value =
      value * Nat.pow 10 places + n % Nat.pow 10 places := by
  have hdigit : ∀ d < 10, (Char.ofNat (48 + d)).toNat - '0'.toNat = d := by decide
  induction places generalizing n with
  | zero =>
    have hpow : Nat.pow 10 0 = 1 := rfl
    rw [hpow, Nat.mul_one, Nat.mod_one]
    rfl
  | succ places ih =>
    have hpow : Nat.pow 10 (places + 1) = 10 * Nat.pow 10 places := Nat.pow_succ'
    rw [paddedDigits, Nat.ofDigitChars_append, ih, Nat.ofDigitChars_cons, Nat.ofDigitChars_nil,
      hdigit (n % 10) (Nat.mod_lt n (by decide)), hpow, Nat.mod_mul, Nat.mul_left_comm]
    omega

theorem dropTrailingZeros_append (digits : List Char) :
    dropTrailingZeros digits ++
      List.replicate (digits.length - (dropTrailingZeros digits).length) '0' = digits := by
  let zeros := digits.reverse.takeWhile (· == '0')
  have hsplit : zeros ++ (dropTrailingZeros digits).reverse = digits.reverse := by
    rw [dropTrailingZeros, List.reverse_reverse]
    exact List.takeWhile_append_dropWhile
  have hlength : zeros.length = digits.length - (dropTrailingZeros digits).length := by
    have h := congrArg List.length hsplit
    rw [List.length_append, List.length_reverse, List.length_reverse] at h
    omega
  have hzeros : zeros = List.replicate zeros.length '0' :=
    List.eq_replicate_of_mem fun c hc ↦ by simpa using List.mem_takeWhile_imp hc
  rw [← hlength, ← List.reverse_inj, List.reverse_append, List.reverse_replicate, ← hzeros]
  exact hsplit

theorem length_dropTrailingZeros_le (digits : List Char) :
    (dropTrailingZeros digits).length ≤ digits.length := by
  have h := congrArg List.length (dropTrailingZeros_append digits)
  rw [List.length_append] at h
  omega

theorem mem_of_mem_dropTrailingZeros {digits : List Char} {c : Char}
    (h : c ∈ dropTrailingZeros digits) : c ∈ digits := by
  rw [← dropTrailingZeros_append digits]
  exact List.mem_append_left _ h

theorem getLast?_dropTrailingZeros_ne (digits : List Char) :
    (dropTrailingZeros digits).getLast? ≠ some '0' := by
  intro h
  rw [dropTrailingZeros, List.getLast?_reverse] at h
  have hzero := List.head?_dropWhile_not (· == '0') digits.reverse
  rw [h] at hzero
  exact Bool.noConfusion hzero

/-! ## Numbers -/

/-- The decimal places that are written for a number. -/
def fractionDigits (places n : Nat) : List Char :=
  dropTrailingZeros (paddedDigits places (n % Nat.pow 10 places))

theorem length_fractionDigits_le (places n : Nat) : (fractionDigits places n).length ≤ places := by
  have h := length_dropTrailingZeros_le (paddedDigits places (n % Nat.pow 10 places))
  rw [length_paddedDigits] at h
  exact h

theorem isDigit_of_mem_fractionDigits {places n : Nat} {c : Char}
    (h : c ∈ fractionDigits places n) : c.isDigit = true :=
  isDigit_of_mem_paddedDigits (mem_of_mem_dropTrailingZeros h)

def pointed (fraction : List Char) : List Char :=
  if fraction = [] then [] else '.' :: fraction

theorem toList_decimal (places n : Nat) :
    (decimal places n).toList =
      Nat.toDigits 10 (n / Nat.pow 10 places) ++ pointed (fractionDigits places n) := by
  rw [decimal, fractionDigits]
  cases dropTrailingZeros (paddedDigits places (n % Nat.pow 10 places)) with
  | nil => simp [pointed]
  | cons c cs => simp [pointed]

/-- All digits of a number together denote it, when the places that were left out are put back. -/
theorem ofDigitChars_decimal (places n : Nat) :
    Nat.ofDigitChars 10 (Nat.toDigits 10 (n / Nat.pow 10 places) ++ fractionDigits places n) 0 *
      Nat.pow 10 (places - (fractionDigits places n).length) = n := by
  have hzeros := dropTrailingZeros_append (paddedDigits places (n % Nat.pow 10 places))
  rw [length_paddedDigits] at hzeros
  have hvalue := ofDigitChars_paddedDigits places (n % Nat.pow 10 places) (n / Nat.pow 10 places)
  rw [← hzeros, Nat.ofDigitChars_append, Nat.ofDigitChars_replicate_zero, Nat.mod_mod,
    Nat.mul_comm (n / _), Nat.div_add_mod] at hvalue
  rw [Nat.ofDigitChars_append, Nat.ofDigitChars_ten_toDigits, Nat.mul_comm]
  exact hvalue

/-! ## Texts -/

theorem span_digits {digits : List Char} (h : ∀ c ∈ digits, c.isDigit = true) {u : Char}
    (hu : u.isDigit = false) (rest : List Char) :
    (digits ++ u :: rest).takeWhile Char.isDigit = digits ∧
      (digits ++ u :: rest).dropWhile Char.isDigit = u :: rest := by
  have hstop : ¬ u.isDigit = true := by simp [hu]
  rw [List.takeWhile_append_of_pos h, List.dropWhile_append_of_pos h,
    List.takeWhile_cons_of_neg hstop, List.dropWhile_cons_of_neg hstop, List.append_nil]
  exact ⟨rfl, rfl⟩

/-- The parts of a text are found again if a unit follows that cannot be taken for more of the
number. -/
theorem splitNumber_append {whole fraction : List Char} {u : Char} {us : List Char}
    (hwhole : ∀ c ∈ whole, c.isDigit = true) (hfraction : ∀ c ∈ fraction, c.isDigit = true)
    (hdigit : u.isDigit = false) (hpoint : u ≠ '.') :
    splitNumber (whole ++ pointed fraction ++ u :: us) = (whole, fraction, u :: us) := by
  rw [splitNumber, pointed]
  by_cases hnil : fraction = []
  · obtain ⟨htake, hdrop⟩ := span_digits hwhole hdigit us
    rw [if_pos hnil, List.append_nil, htake, hdrop, hnil]
    split
    · rename_i heq
      exact absurd (List.cons.inj heq).1 hpoint
    · rfl
  · obtain ⟨htake, hdrop⟩ := span_digits (u := '.') hwhole rfl (fraction ++ u :: us)
    obtain ⟨htake', hdrop'⟩ := span_digits hfraction hdigit us
    rw [if_neg hnil, List.append_assoc, List.cons_append, htake, hdrop]
    simp only [htake', hdrop']

/-- The number of a span and its unit are told apart again, and denote the span. -/
theorem denoted?_decimal {unit : List Char} {places : Nat}
    (hunit : units.find? (·.1 == unit) = some (unit, places)) (n : Nat) :
    denoted? (Nat.toDigits 10 (n / Nat.pow 10 places)) (fractionDigits places n) unit =
      some ⟨n⟩ := by
  rw [denoted?, hunit]
  dsimp only
  rw [if_pos (length_fractionDigits_le places n), ofDigitChars_decimal]

/-- A unit with its number of places, whose letters cannot be taken for more of a number. -/
structure IsTimeUnit (unit : List Char) (places : Nat) : Prop where
  known : units.find? (·.1 == unit) = some (unit, places)
  letters : ∃ u us, unit = u :: us ∧ u.isDigit = false ∧ u ≠ '.'

theorem exists_unit (s : Span) : ∃ unit places,
    IsTimeUnit unit places ∧ s.text = decimal places s.nanoseconds ++ String.ofList unit := by
  rw [text]
  split
  · exact ⟨['s'], 9, ⟨rfl, 's', [], rfl, rfl, by decide⟩, rfl⟩
  · split
    · exact ⟨['m', 's'], 6, ⟨rfl, 'm', ['s'], rfl, rfl, by decide⟩, rfl⟩
    · split
      · exact ⟨['µ', 's'], 3, ⟨rfl, 'µ', ['s'], rfl, rfl, by decide⟩, rfl⟩
      · exact ⟨['n', 's'], 0, ⟨rfl, 'n', ['s'], rfl, rfl, by decide⟩, rfl⟩

theorem splitNumber_decimal {unit : List Char} {places : Nat} (hunit : IsTimeUnit unit places)
    (n : Nat) :
    splitNumber (decimal places n ++ String.ofList unit).toList =
      (Nat.toDigits 10 (n / Nat.pow 10 places), fractionDigits places n, unit) := by
  obtain ⟨u, us, rfl, hdigit, hpoint⟩ := hunit.letters
  have hwhole : ∀ c ∈ Nat.toDigits 10 (n / Nat.pow 10 places), c.isDigit = true := fun c hc ↦
    Nat.isDigit_of_mem_toDigits (by decide) (by decide) hc
  have hfraction : ∀ c ∈ fractionDigits places n, c.isDigit = true := fun c hc ↦
    isDigit_of_mem_fractionDigits hc
  rw [String.toList_append, String.toList_ofList, toList_decimal,
    splitNumber_append hwhole hfraction hdigit hpoint]

/-- The text of a span denotes it. -/
theorem ofText?_text (s : Span) : ofText? s.text = some s := by
  obtain ⟨unit, places, hunit, htext⟩ := s.exists_unit
  rw [htext, ofText?, splitNumber_decimal hunit]
  exact denoted?_decimal hunit.known s.nanoseconds

/-- Spans are told apart by their texts. -/
theorem text_inj {s t : Span} : s.text = t.text ↔ s = t := by
  constructor
  · intro h
    have hs := ofText?_text s
    rw [h, ofText?_text] at hs
    exact (Option.some.inj hs).symm
  · intro h
    rw [h]

/-! ## Exact texts -/

/-- A text says how long a span is, to the nanosecond and without a digit that says nothing. -/
structure IsToldBy (s : Span) (t : String) : Prop where
  /-- The number and its unit denote the span: nothing has been rounded. -/
  readBack : ofText? t = some s
  /-- The number has digits in front of its point. -/
  whole : (splitNumber t.toList).1 ≠ []
  /-- Its decimal places do not end in a zero. -/
  tidy : (splitNumber t.toList).2.1.getLast? ≠ some '0'

theorem isToldBy_text (s : Span) : s.IsToldBy s.text := by
  obtain ⟨unit, places, hunit, htext⟩ := s.exists_unit
  have hsplit : splitNumber s.text.toList =
      (Nat.toDigits 10 (s.nanoseconds / Nat.pow 10 places), fractionDigits places s.nanoseconds,
        unit) := by
    rw [htext, splitNumber_decimal hunit]
  constructor
  case readBack => exact s.ofText?_text
  case whole =>
    rw [hsplit]
    exact Nat.toDigits_ne_nil
  case tidy =>
    rw [hsplit]
    exact getLast?_dropTrailingZeros_ne _

end BuildFleet.Span
