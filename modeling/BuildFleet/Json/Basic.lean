/-!
# JSON values

Objects keep their members in the written order and keep repeated keys, since the two ways of
reading a value treat those differently. Numbers keep their numeral, since nothing here computes
with them and a numeral out of range is only refused where its value is asked for.
-/

namespace BuildFleet

/-- A JSON value. -/
inductive Json where
  | null
  | bool (b : Bool)
  /-- A number, as it is written. -/
  | number (numeral : String)
  | text (s : String)
  /-- A text, or an object with a key, that holds half of a surrogate pair: it can be skipped but
  not read. -/
  | broken
  | array (items : List Json)
  /-- Members in the written order; a key may be repeated. -/
  | object (members : List (String × Json))
  deriving Inhabited, Repr

namespace Json

/-- A whole number as a value. -/
def ofNat (n : Nat) : Json := .number (toString n)

/-- The whole number that a value denotes; a sign, a point or an exponent makes it another kind of
number. -/
def nat? : Json → Option Nat
  | .number numeral =>
    if numeral.toList.all Char.isDigit then numeral.toNat? else none
  | _ => none

mutual

/-- The value in which every object keeps, of the members with one key, the last. -/
def lastWins : Json → Json
  | .array items => .array (itemsLastWins items)
  | .object members => .object (membersLastWins members)
  | v => v

/-- The items, each with the last members only. -/
def itemsLastWins : List Json → List Json
  | [] => []
  | v :: vs => lastWins v :: itemsLastWins vs

/-- The members that no later one replaces, each with the last members only. -/
def membersLastWins : List (String × Json) → List (String × Json)
  | [] => []
  | (k, v) :: ms =>
    if ms.any (·.1 == k) then membersLastWins ms else (k, lastWins v) :: membersLastWins ms

end

/-- What stands under a key of an object. -/
def get? (key : String) : Json → Option Json
  | .object members => members.lookup key
  | _ => none

end Json

end BuildFleet
