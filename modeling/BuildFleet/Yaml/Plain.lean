import BuildFleet.Decimal

/-!
# What an untyped plain scalar stands for

A scalar without quotes and without a tag is a null, a truth value, a number or a text, by its
spelling alone. Reading without a type and choosing the quotes of a written text both rest on this
one function, so that a text which would come back as something else is never left plain.
-/

namespace BuildFleet.Yaml.Plain

/-- What a plain scalar stands for. -/
inductive Meaning where
  | null
  | flag (b : Bool)
  /-- A whole number without a minus, below `2 ^ 128`. -/
  | whole (n : Nat)
  /-- A whole number with a minus, by its magnitude, which is at most `2 ^ 127`. -/
  | negative (n : Nat)
  /-- Any other number. -/
  | real
  /-- A text, as it is written. -/
  | text
  deriving DecidableEq, Repr

/-- The words for null. -/
def isNullWord (s : String) : Bool :=
  s == "null" || s == "Null" || s == "NULL" || s == "~"

/-- The truth value that a word stands for. -/
def flag? (s : String) : Option Bool :=
  if s == "true" || s == "True" || s == "TRUE" then some true
  else if s == "false" || s == "False" || s == "FALSE" then some false
  else none

/-- The characters without one plus in front. -/
def withoutPlus : List Char → List Char
  | '+' :: cs => cs
  | cs => cs

/-- The characters without one sign in front. -/
def withoutSign : List Char → List Char
  | '+' :: cs => cs
  | '-' :: cs => cs
  | cs => cs

/-- Two digits or more, the first of them zero: a text although it looks like a number. -/
def hasLeadingZero (cs : List Char) : Bool :=
  match withoutSign cs with
  | '0' :: c :: rest => (c :: rest).all isDecimalDigit
  | _ => false

/-- The base that two characters in front of digits announce, with the digits. -/
def baseOf? : List Char → Option (Nat × List Char)
  | '0' :: 'x' :: cs => some (16, cs)
  | '0' :: 'o' :: cs => some (8, cs)
  | '0' :: 'b' :: cs => some (2, cs)
  | _ => none

/-- The digits of a whole number without a sign, in the base that they announce or else in base ten.
A number in base ten takes no leading zero. -/
def magnitude? (cs : List Char) : Option Nat :=
  match baseOf? cs with
  | some (base, digits) => natOfDigits? base digits
  | none => if hasLeadingZero cs then none else natOfDigits? 10 cs

/-- A whole number without a minus; a plus may stand in front of it. -/
def whole? (cs : List Char) : Option Nat :=
  (magnitude? (withoutPlus cs)).filter (· < Nat.pow 2 128)

/-- The magnitude of a whole number with a minus. -/
def negative? : List Char → Option Nat
  | '-' :: cs => (magnitude? cs).filter (· ≤ Nat.pow 2 127)
  | _ => none

/-- Whether characters are a decimal number: digits on one side of the point at least, and within
the range of double-precision numbers. -/
def isDecimal (cs : List Char) : Bool :=
  match Decimal.split? (withoutSign cs) with
  | none => false
  | some (whole, fraction, exponent) =>
    let digits := fraction.getD []
    !(whole.isEmpty && digits.isEmpty) && (Decimal.ofParts whole digits exponent).isFiniteDouble

/-- Whether a text is infinity, with a sign or without one, or not a number. -/
def isSpecialReal (s : String) : Bool :=
  [".inf", ".Inf", ".INF", "+.inf", "+.Inf", "+.INF", "-.inf", "-.Inf", "-.INF", ".nan", ".NaN",
    ".NAN"].contains s

/-- Whether a text is a number when there is no asking whether it is a whole one. -/
def isReal (s : String) : Bool :=
  isSpecialReal s || isDecimal s.toList

/-- What a plain scalar stands for. -/
def meaning (s : String) : Meaning :=
  if s.isEmpty || isNullWord s then .null
  else
    match flag? s with
    | some b => .flag b
    | none =>
      match whole? s.toList with
      | some n => .whole n
      | none =>
        match negative? s.toList with
        | some n => .negative n
        | none => if !hasLeadingZero s.toList && isReal s then .real else .text

/-- Whether a text without quotes reads back as itself. A number with a leading zero does, but is
not left plain, since other readers take it for a number. -/
def isSafe (s : String) : Bool :=
  meaning s == .text && !hasLeadingZero s.toList

end BuildFleet.Yaml.Plain
