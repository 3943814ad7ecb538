import BuildFleet.Span
import BuildFleet.Text.Blank

/-!
# Points in time

A point in time is a number of seconds since the start of 1970 in universal time, with a part of a
second. A second that is inserted as a leap second has no number of its own: it is the second before
it with more than a whole second as its part.

Reading takes date and time in the order and with the marks of RFC 3339, and is lenient about blanks
and about the number of digits. Writing uses as few decimal places as keep the value, out of 0, 3, 6
and 9, and a sign for years that do not have four digits.
-/

namespace BuildFleet

/-- A point in time. -/
structure Instant where
  /-- Seconds since the start of 1970. -/
  seconds : Int
  /-- Nanoseconds after that second; from `10 ^ 9` on they lie in a leap second. -/
  nanos : Nat
  deriving DecidableEq, Repr, Inhabited

/-- A day of the Gregorian calendar, which is carried on before its introduction and after the
year 9999. -/
structure CalendarDay where
  year : Int
  month : Nat
  day : Nat
  deriving DecidableEq, Repr

namespace CalendarDay

/-- The days before the first of a month, counted from the first of March. -/
def daysBeforeMonth (monthFromMarch : Nat) : Nat := (153 * monthFromMarch + 2) / 5

/-- The days from the start of 1970. A year is taken to start in March, so that the day that a leap
year adds is its last. -/
def number (d : CalendarDay) : Int :=
  let year := if d.month ≤ 2 then d.year - 1 else d.year
  let month := if d.month ≤ 2 then d.month + 9 else d.month - 3
  let days : Int := daysBeforeMonth month + (d.day - 1)
  365 * year + year.fdiv 4 - year.fdiv 100 + year.fdiv 400 + days - 719468

/-- The day with a number. Within each group of 400, 100, 4 and 1 years, the day that the group has
over belongs to its last part. -/
def ofNumber (number : Int) : CalendarDay :=
  let n := number + 719468
  let era := n.fdiv 146097
  let dayOfEra := (n - era * 146097).toNat
  let yearOfEra := (dayOfEra - dayOfEra / 1460 + dayOfEra / 36524 - dayOfEra / 146096) / 365
  let dayOfYear := dayOfEra - (365 * yearOfEra + yearOfEra / 4 - yearOfEra / 100)
  let monthFromMarch := (5 * dayOfYear + 2) / 153
  let day := dayOfYear - daysBeforeMonth monthFromMarch + 1
  let month := if monthFromMarch < 10 then monthFromMarch + 3 else monthFromMarch - 9
  let year : Int := yearOfEra + era * 400
  ⟨if month ≤ 2 then year + 1 else year, month, day⟩

/-- The years that can be told. -/
def isKnownYear (year : Int) : Bool := -262143 ≤ year && year ≤ 262142

/-- Whether there is such a day. -/
def isValid (d : CalendarDay) : Bool :=
  isKnownYear d.year && 1 ≤ d.month && d.month ≤ 12 && 1 ≤ d.day && d.day ≤ 31 &&
    ofNumber d.number == d

end CalendarDay

namespace Instant

/-- The seconds of a day. -/
def perDay : Int := 86400

/-- The number of the day. -/
def dayNumber (t : Instant) : Int := t.seconds.fdiv perDay

/-- The seconds since the day began. -/
def secondOfDay (t : Instant) : Nat := (t.seconds.fmod perDay).toNat

/-- The point in time after a span. -/
def add (t : Instant) (s : Span) : Instant :=
  let nanos := t.nanos + s.nanoseconds
  ⟨t.seconds + (nanos / Span.perSecond : Nat), nanos % Span.perSecond⟩

/-- The whole seconds from one point in time to a later one. A leap second between the two times of
day counts. -/
def secondsSince? (later earlier : Instant) : Option Nat :=
  let leap : Int :=
    if earlier.secondOfDay < later.secondOfDay && Span.perSecond ≤ earlier.nanos then 1
    else if later.secondOfDay < earlier.secondOfDay && Span.perSecond ≤ later.nanos then -1
    else 0
  let nanos : Int :=
    (later.seconds - earlier.seconds + leap) * Span.perSecond + (later.nanos - earlier.nanos)
  if nanos < 0 then none else some (nanos / Span.perSecond).toNat

/-! ## Writing -/

/-- A number in two digits. -/
private def twoDigits (n : Nat) : String :=
  String.ofList (Span.paddedDigits 2 n)

/-- A year in four digits, or with a sign and four digits at least. -/
def yearText (year : Int) : String :=
  let n := year.natAbs
  let digits := if n < 10000 then String.ofList (Span.paddedDigits 4 n) else toString n
  if 0 ≤ year && year ≤ 9999 then digits
  else if year < 0 then "-" ++ digits
  else "+" ++ digits

/-- The decimal places of a second. -/
def fractionText (nanos : Nat) : String :=
  if nanos == 0 then ""
  else if nanos % 1000000 == 0 then "." ++ String.ofList (Span.paddedDigits 3 (nanos / 1000000))
  else if nanos % 1000 == 0 then "." ++ String.ofList (Span.paddedDigits 6 (nanos / 1000))
  else "." ++ String.ofList (Span.paddedDigits 9 nanos)

/-- The text of a point in time, in universal time. -/
def text (t : Instant) : String :=
  let d := CalendarDay.ofNumber t.dayNumber
  let s := t.secondOfDay
  let leap := if Span.perSecond ≤ t.nanos then 1 else 0
  yearText d.year ++ "-" ++ twoDigits d.month ++ "-" ++ twoDigits d.day ++ "T" ++
    twoDigits (s / 3600) ++ ":" ++ twoDigits (s / 60 % 60) ++ ":" ++ twoDigits (s % 60 + leap) ++
    fractionText (t.nanos % Span.perSecond) ++ "Z"

/-! ## Reading -/

/-- The number that digits denote. -/
private def digitsValue (ds : List Char) : Nat :=
  ds.foldl (fun n d ↦ 10 * n + (d.toNat - 48)) 0

/-- What is left after the blanks in front. -/
private def skipBlanks (cs : List Char) : List Char := cs.dropWhile Text.isBlank

/-- A number of one digit at least and `most` at most, after blanks. -/
private def number? (most : Nat) (cs : List Char) : Option (Nat × List Char) :=
  let cs := skipBlanks cs
  let digits := (cs.take most).takeWhile Char.isDigit
  if digits.isEmpty then none else some (digitsValue digits, cs.drop digits.length)

/-- A year: up to four digits, or a sign and any number of them. -/
private def year? (cs : List Char) : Option (Int × List Char) :=
  match skipBlanks cs with
  | '-' :: cs => signed? cs fun n ↦ -(n : Int)
  | '+' :: cs => signed? cs fun n ↦ (n : Int)
  | cs => (number? 4 cs).map fun (n, cs) ↦ ((n : Int), cs)
where
  /-- The digits after a sign. -/
  signed? (cs : List Char) (sign : Nat → Int) : Option (Int × List Char) :=
    let digits := cs.takeWhile Char.isDigit
    if digits.isEmpty then none else some (sign (digitsValue digits), cs.drop digits.length)

/-- A mark after blanks. -/
private def mark? (c : Char) (cs : List Char) : Option (List Char) :=
  match skipBlanks cs with
  | d :: cs => if d == c then some cs else none
  | [] => none

/-- The part of a second after a point, in nanoseconds; digits after the ninth are dropped. -/
private def fraction? : List Char → Option (Nat × List Char)
  | '.' :: cs =>
    let digits := cs.takeWhile Char.isDigit
    if digits.isEmpty then none
    else
      let kept := digits.take 9
      some (digitsValue kept * Nat.pow 10 (9 - kept.length), cs.drop digits.length)
  | cs => some (0, cs)

/-- The offset from universal time, in seconds. -/
private def offset? (cs : List Char) : Option (Int × List Char) :=
  match cs with
  | c :: rest =>
    if (cs.take 3).map Char.toUpper == ['U', 'T', 'C'] then some (0, cs.drop 3)
    else if c == 'Z' || c == 'z' then some (0, rest)
    else if c == '+' then hoursAndMinutes? 1 rest
    else if c == '-' || c == '\u2212' then hoursAndMinutes? (-1) rest
    else none
  | [] => none
where
  /-- Two digits for the hours and two for the minutes, with colons or blanks between them. -/
  hoursAndMinutes? (sign : Int) (cs : List Char) : Option (Int × List Char) :=
    match cs with
    | h :: h' :: cs =>
      if h.isDigit && h'.isDigit then
        match cs.dropWhile fun c ↦ c == ':' || Text.isBlank c with
        | m :: m' :: cs =>
          let minutes := digitsValue [m, m']
          if m.isDigit && m'.isDigit && minutes < 60 then
            let seconds := digitsValue [h, h'] * 3600 + minutes * 60
            if seconds < 86400 then some (sign * seconds, cs) else none
          else none
        | _ => none
      else none
    | _ => none

/-- The day at the start of a text. -/
private def day? (cs : List Char) : Option (CalendarDay × List Char) := do
  let (year, cs) ← year? cs
  let cs ← mark? '-' cs
  let (month, cs) ← number? 2 cs
  let cs ← mark? '-' cs
  let (day, cs) ← number? 2 cs
  let d : CalendarDay := ⟨year, month, day⟩
  if d.isValid then some (d, cs) else none

/-- The seconds of a day and the nanoseconds after them; the sixtieth second of a minute is a leap
second. -/
private def time? (cs : List Char) : Option (Nat × Nat × List Char) := do
  let (hour, cs) ← number? 2 cs
  let cs ← mark? ':' cs
  let (minute, cs) ← number? 2 cs
  let cs ← mark? ':' cs
  let (second, cs) ← number? 2 cs
  let (nanos, cs) ← fraction? cs
  if hour < 24 && minute < 60 && second ≤ 60 then
    let leap := second == 60
    some (hour * 3600 + minute * 60 + (if leap then 59 else second),
      nanos + (if leap then Span.perSecond else 0), skipBlanks cs)
  else none

/-- The point in time that a text is. -/
def parse? (s : String) : Option Instant := do
  let (day, cs) ← day? s.toList
  let cs ← match cs with
    | c :: cs => if c == 'T' || c == 't' || c == ' ' then some cs else none
    | [] => none
  let (seconds, nanos, cs) ← time? cs
  let (offset, cs) ← offset? cs
  if (skipBlanks cs).isEmpty then
    let t : Instant := ⟨day.number * perDay + seconds - offset, nanos⟩
    if CalendarDay.isKnownYear (CalendarDay.ofNumber t.dayNumber).year then some t else none
  else none

end Instant

end BuildFleet
