/-!
# Decimal numerals

Numbers are never computed with here, but a numeral that is too large for a double-precision number
is refused by one format and taken for a text by another. A numeral is therefore split into its
digits and its decimal exponent, and compared with the bound of the format in whole numbers.
-/

namespace BuildFleet

/-- An unsigned numeral: the digits without their point, times a power of ten. -/
structure Decimal where
  /-- The digits, most significant first. -/
  digits : List Char
  /-- The power of ten that the number of the digits is multiplied by. -/
  exponent : Int
  deriving DecidableEq, Repr

/-- Whether a character is one of the ten ASCII digits. -/
def isDecimalDigit (c : Char) : Bool :=
  '0' ≤ c && c ≤ '9'

/-- The value of a digit in a base up to sixteen. -/
def digitValue? (base : Nat) (c : Char) : Option Nat :=
  let n := c.toNat
  let value? :=
    if isDecimalDigit c then some (n - 48)
    else if 'a' ≤ c && c ≤ 'f' then some (n - 87)
    else if 'A' ≤ c && c ≤ 'F' then some (n - 55)
    else none
  value?.filter (· < base)

/-- The number that digits denote in a base; there has to be one digit at least. -/
def natOfDigits? (base : Nat) : List Char → Option Nat
  | [] => none
  | c :: cs => (c :: cs).foldlM (fun n d ↦ (digitValue? base d).map (n * base + ·)) 0

namespace Decimal

/-- The double nearest to a whole number, as if there were no greatest double: 53 bits of it are
kept, and of two doubles that are equally near it is the one with an even last bit. -/
def nearestDouble (n : Nat) : Nat :=
  let unit := Nat.pow 2 (Nat.log2 n - 52)
  let kept := n / unit
  let rest := n % unit
  if unit < 2 * rest || (unit == 2 * rest && kept % 2 == 1) then (kept + 1) * unit
  else kept * unit

/-- A number from here on is no longer rounded to a finite double: the greatest finite one is
`2 ^ 1024 - 2 ^ 971`, and this is half a unit above it. -/
def doubleBound : Nat := Nat.pow 2 1024 - Nat.pow 2 970

/-- Whether the numeral is read as a finite double. The number of digits is looked at first, so that
no power of ten much larger than the bound is ever computed. -/
def isFiniteDouble (d : Decimal) : Bool :=
  let digits := d.digits.dropWhile (· == '0')
  let magnitude : Int := digits.length + d.exponent
  if digits.isEmpty || magnitude < 309 then true
  else if 309 < magnitude then false
  else
    match natOfDigits? 10 digits with
    | none => false
    | some n =>
      if 0 ≤ d.exponent then n * Nat.pow 10 d.exponent.toNat < doubleBound
      else n < doubleBound * Nat.pow 10 (-d.exponent).toNat

/-- The exponent part of a numeral: nothing, or `e` or `E` with a signed whole number. -/
def exponentPart? : List Char → Option Int
  | [] => some 0
  | e :: cs =>
    if e == 'e' || e == 'E' then
      match cs with
      | '-' :: ds => (natOfDigits? 10 ds).map fun n ↦ -(n : Int)
      | '+' :: ds => (natOfDigits? 10 ds).map fun n ↦ (n : Int)
      | ds => (natOfDigits? 10 ds).map fun n ↦ (n : Int)
    else none

/-- Splits an unsigned numeral into the digits before its point, the digits after it (if there is a
point) and its exponent. -/
def split? (cs : List Char) : Option (List Char × Option (List Char) × Int) :=
  let whole := cs.takeWhile isDecimalDigit
  match cs.dropWhile isDecimalDigit with
  | '.' :: rest =>
    (exponentPart? (rest.dropWhile isDecimalDigit)).map
      (whole, some (rest.takeWhile isDecimalDigit), ·)
  | rest => (exponentPart? rest).map (whole, none, ·)

/-- The numeral with these digits before and after the point. -/
def ofParts (whole fraction : List Char) (exponent : Int) : Decimal :=
  ⟨whole ++ fraction, exponent - fraction.length⟩

end Decimal

end BuildFleet
