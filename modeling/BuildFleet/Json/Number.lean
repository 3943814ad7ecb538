import BuildFleet.Decimal

/-!
# JSON numbers

A number is a numeral and stays one: nothing here computes with it. But a numeral out of the range
of double-precision numbers is refused where its value is asked for, and that is decided by the
value that it is approximated by. The approximation keeps as many digits as fit into 64 bits, and
rounds them and the power of ten one by one, so near the bound it may differ from the nearest
double.
-/

namespace BuildFleet.Json

/-- A numeral in its parts. -/
structure Numeral where
  negative : Bool
  whole : List Char
  /-- The digits after the point, if there is one. -/
  fraction : Option (List Char)
  exponent : Int
  deriving DecidableEq, Repr

namespace Numeral

/-- The parts of a numeral: an optional minus, digits without a needless zero in front, an optional
point with digits after it and an optional exponent. -/
def ofChars? (cs : List Char) : Option Numeral :=
  let (negative, unsigned) := match cs with
    | '-' :: cs => (true, cs)
    | cs => (false, cs)
  match Decimal.split? unsigned with
  | none => none
  | some (whole, fraction, exponent) =>
    let plain := match whole with
      | [] => false
      | ['0'] => true
      | c :: _ => c != '0'
    if plain && fraction != some [] then some { negative, whole, fraction, exponent } else none

/-- Appends digits to a number as long as it stays below `2 ^ 64`; what is left of the digits comes
with the number. -/
def appendDigits : (n : Nat) → List Char → Nat × List Char
  | n, [] => (n, [])
  | n, d :: ds =>
    let m := 10 * n + (d.toNat - 48)
    if m < Nat.pow 2 64 then appendDigits m ds else (n, d :: ds)

/-- The significand and the power of ten that a numeral is approximated by: digits before the point
that do not fit still count as places, those after it count for nothing. -/
def parts (x : Numeral) : Nat × Int :=
  let (n, placesLeft) := appendDigits 0 x.whole
  let fraction := x.fraction.getD []
  let (n, unused) := appendDigits n fraction
  (n, x.exponent + placesLeft.length - (fraction.length - unused.length : Nat))

/-- Whether the approximation of a numeral is a finite double: the significand and the power of ten
are rounded, and then their product. -/
def isInRange (x : Numeral) : Bool :=
  let (n, exponent) := x.parts
  n == 0 || exponent < 0 ||
    (exponent ≤ 308 &&
      Decimal.nearestDouble n * Decimal.nearestDouble (Nat.pow 10 exponent.toNat) <
        Decimal.doubleBound)

end Numeral

end BuildFleet.Json
