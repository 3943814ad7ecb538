import BuildFleet.Json.Basic

/-!
# Writing JSON

Two layouts: compact, without any blank, and pretty, with one item or member on a line and two
spaces for each level. Both put the text in front of the characters that follow it, so that what a
value writes is a fact about the value alone.
-/

namespace BuildFleet.Json

/-- The last digit of a number in base sixteen, lower case. -/
def hexDigit (n : Nat) : Char :=
  if n % 16 < 10 then Char.ofNat (48 + n % 16) else Char.ofNat (87 + n % 16)

/-- A character inside a quoted text: quotes, backslashes and control characters are escaped. -/
def escapeChar (c : Char) : List Char :=
  if c == '"' then ['\\', '"']
  else if c == '\\' then ['\\', '\\']
  else if c == '\x08' then ['\\', 'b']
  else if c == '\t' then ['\\', 't']
  else if c == '\n' then ['\\', 'n']
  else if c == '\x0c' then ['\\', 'f']
  else if c == '\r' then ['\\', 'r']
  else if c.toNat < 32 then ['\\', 'u', '0', '0', hexDigit (c.toNat / 16), hexDigit c.toNat]
  else [c]

/-- A text in quotes, in front of what follows. -/
def writeText (s : String) (rest : List Char) : List Char :=
  '"' :: s.toList.flatMap escapeChar ++ '"' :: rest

/-- The text of a value with half of a surrogate pair in it. -/
def brokenText : List Char := "\"\\ud800\"".toList

mutual

/-- A value without any blank, in front of what follows. -/
def write : Json → List Char → List Char
  | .null, rest => "null".toList ++ rest
  | .bool true, rest => "true".toList ++ rest
  | .bool false, rest => "false".toList ++ rest
  | .number numeral, rest => numeral.toList ++ rest
  | .text s, rest => writeText s rest
  | .broken, rest => brokenText ++ rest
  | .array items, rest => '[' :: writeItems items (']' :: rest)
  | .object members, rest => '{' :: writeMembers members ('}' :: rest)

/-- Items with commas between them. -/
def writeItems : List Json → List Char → List Char
  | [], rest => rest
  | [v], rest => write v rest
  | v :: vs, rest => write v (',' :: writeItems vs rest)

/-- Members with commas between them. -/
def writeMembers : List (String × Json) → List Char → List Char
  | [], rest => rest
  | [(k, v)], rest => writeText k (':' :: write v rest)
  | (k, v) :: ms, rest => writeText k (':' :: write v (',' :: writeMembers ms rest))

end

/-- A line break and the spaces of a level. -/
def newLine (level : Nat) (rest : List Char) : List Char :=
  '\n' :: List.replicate (2 * level) ' ' ++ rest

mutual

/-- A value with a line for each item and member, in front of what follows; `level` is the level of
the line that it starts on. -/
def writePretty (level : Nat) : Json → List Char → List Char
  | .array [], rest => '[' :: ']' :: rest
  | .array (v :: vs), rest =>
    '[' :: prettyItems level (v :: vs) (newLine level (']' :: rest))
  | .object [], rest => '{' :: '}' :: rest
  | .object (m :: ms), rest =>
    '{' :: prettyMembers level (m :: ms) (newLine level ('}' :: rest))
  | .null, rest => "null".toList ++ rest
  | .bool true, rest => "true".toList ++ rest
  | .bool false, rest => "false".toList ++ rest
  | .number numeral, rest => numeral.toList ++ rest
  | .text s, rest => writeText s rest
  | .broken, rest => brokenText ++ rest

/-- Items on lines one level further in. -/
def prettyItems (level : Nat) : List Json → List Char → List Char
  | [], rest => rest
  | [v], rest => newLine (level + 1) (writePretty (level + 1) v rest)
  | v :: vs, rest =>
    newLine (level + 1) (writePretty (level + 1) v (',' :: prettyItems level vs rest))

/-- Members on lines one level further in. -/
def prettyMembers (level : Nat) : List (String × Json) → List Char → List Char
  | [], rest => rest
  | [(k, v)], rest =>
    newLine (level + 1) (writeText k (':' :: ' ' :: writePretty (level + 1) v rest))
  | (k, v) :: ms, rest =>
    newLine (level + 1) (writeText k (':' :: ' ' ::
      writePretty (level + 1) v (',' :: prettyMembers level ms rest)))

end

/-- The text of a value without any blank. -/
def compact (v : Json) : String :=
  String.ofList (write v [])

/-- The text of a value with a line for each item and member. -/
def pretty (v : Json) : String :=
  String.ofList (writePretty 0 v [])

end BuildFleet.Json
