/-!
# Spans of time

A span is a whole number of nanoseconds. It is shown in the largest of four units that it reaches,
with as many decimal places as it needs and none that are zeros at the end, so that the text denotes
the span exactly.
-/

namespace BuildFleet

/-- A span of time. -/
structure Span where
  nanoseconds : Nat
  deriving DecidableEq, Repr, Inhabited

namespace Span

/-- The nanoseconds of a second. -/
def perSecond : Nat := 1000000000

/-- The nanoseconds of a millisecond. -/
def perMillisecond : Nat := 1000000

/-- A span of seconds and nanoseconds. -/
def ofParts (seconds nanoseconds : Nat) : Span := ⟨seconds * perSecond + nanoseconds⟩

/-- A span of whole seconds. -/
def ofSeconds (seconds : Nat) : Span := ofParts seconds 0

/-- A span of whole milliseconds. -/
def ofMilliseconds (milliseconds : Nat) : Span := ⟨milliseconds * perMillisecond⟩

/-- The whole seconds of a span. -/
def seconds (s : Span) : Nat := s.nanoseconds / perSecond

/-- Without the zeros at the end of a list of digits. -/
def dropTrailingZeros (digits : List Char) : List Char :=
  (digits.reverse.dropWhile (· == '0')).reverse

/-- A number in exactly so many decimal digits, with zeros in front. -/
def paddedDigits : (places : Nat) → Nat → List Char
  | 0, _ => []
  | places + 1, n => paddedDigits places (n / 10) ++ [Char.ofNat (48 + n % 10)]

/-- A number of units of ten to the power `places`: the whole part, and after a point the decimal
places that are needed. -/
def decimal (places n : Nat) : String :=
  let whole := toString (n / Nat.pow 10 places)
  match dropTrailingZeros (paddedDigits places (n % Nat.pow 10 places)) with
  | [] => whole
  | digits => whole ++ "." ++ String.ofList digits

/-- A span in words: a number and its unit. -/
def text (s : Span) : String :=
  if perSecond ≤ s.nanoseconds then decimal 9 s.nanoseconds ++ "s"
  else if perMillisecond ≤ s.nanoseconds then decimal 6 s.nanoseconds ++ "ms"
  else if 1000 ≤ s.nanoseconds then decimal 3 s.nanoseconds ++ "µs"
  else decimal 0 s.nanoseconds ++ "ns"

/-- A span as a reader wants to see it: hours, minutes and seconds, without the larger ones that are
not reached. Parts of a second are left out. -/
def rough (s : Span) : String :=
  let t := s.seconds
  if t < 60 then toString t ++ "s"
  else if t < 3600 then toString (t / 60) ++ "m " ++ toString (t % 60) ++ "s"
  else
    toString (t / 3600) ++ "h " ++ toString (t % 3600 / 60) ++ "m " ++ toString (t % 60) ++ "s"

end Span

end BuildFleet
