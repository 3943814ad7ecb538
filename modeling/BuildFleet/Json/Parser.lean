import BuildFleet.Json.Basic
import BuildFleet.Json.Number
import BuildFleet.Json.Token

/-!
# Reading JSON

Tokens are read into a value and must all belong to it. The depth of nesting is bounded by the
number of tokens, so the reader is given that much fuel and never runs out of it. A reader that asks
for more than a value (a limit on nesting, numbers in range) finds that in the value.
-/

namespace BuildFleet.Json

/-- The value that a word is. -/
def ofWord? (w : List Char) : Option Json :=
  if w = "null".toList then some .null
  else if w = "true".toList then some (.bool true)
  else if w = "false".toList then some (.bool false)
  else if (Numeral.ofChars? w).isSome then some (.number (String.ofList w))
  else none

/-- The value that a quoted text is. -/
def ofPieces (pieces : List Piece) : Json :=
  match textOfPieces? pieces with
  | some s => .text s
  | none => .broken

/-- The object with these members; a key that cannot be read makes all of it unreadable. -/
def ofMembers (members : List (List Piece × Json)) : Json :=
  match members.mapM fun m ↦ (textOfPieces? m.1).map (·, m.2) with
  | some ms => .object ms
  | none => .broken

mutual

/-- Reads one value; what is left of the tokens comes with it. -/
def readValue : Nat → List Token → Option (Json × List Token)
  | 0, _ => none
  | _ + 1, .word w :: ts => (ofWord? w).map (·, ts)
  | _ + 1, .text pieces :: ts => some (ofPieces pieces, ts)
  | _ + 1, .bracketOpen :: .bracketClose :: ts => some (.array [], ts)
  | n + 1, .bracketOpen :: ts => (readItems n ts).map fun r ↦ (.array r.1, r.2)
  | _ + 1, .braceOpen :: .braceClose :: ts => some (.object [], ts)
  | n + 1, .braceOpen :: ts => (readMembers n ts).map fun r ↦ (ofMembers r.1, r.2)
  | _ + 1, _ => none

/-- Reads the items of an array, up to and with its closing bracket. -/
def readItems : Nat → List Token → Option (List Json × List Token)
  | 0, _ => none
  | n + 1, ts =>
    match readValue n ts with
    | some (v, .comma :: ts) => (readItems n ts).map fun r ↦ (v :: r.1, r.2)
    | some (v, .bracketClose :: ts) => some ([v], ts)
    | _ => none

/-- Reads the members of an object, up to and with its closing brace. -/
def readMembers : Nat → List Token → Option (List (List Piece × Json) × List Token)
  | 0, _ => none
  | n + 1, .text key :: .colon :: ts =>
    match readValue n ts with
    | some (v, .comma :: ts) => (readMembers n ts).map fun r ↦ ((key, v) :: r.1, r.2)
    | some (v, .braceClose :: ts) => some ([(key, v)], ts)
    | _ => none
  | _ + 1, _ => none

end

/-- The value that tokens are, if they are one value and nothing else. -/
def ofTokens? (ts : List Token) : Option Json :=
  match readValue (2 * ts.length + 2) ts with
  | some (v, []) => some v
  | _ => none

/-- The value that a text is. -/
def parse? (s : String) : Option Json :=
  (Token.ofChars? s.toList).bind ofTokens?

end BuildFleet.Json
