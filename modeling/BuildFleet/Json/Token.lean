import BuildFleet.Decimal

/-!
# JSON tokens

The text is cut into tokens by a machine that looks at one character at a time, so that the tokens
of two texts written one after the other can be told from the tokens of each. A run of letters,
digits, signs and points is one word: no grammatical text has two words, or a word and a text, side
by side.
-/

namespace BuildFleet.Json

/-- A piece of a quoted text: a character, or the sixteen-bit code of an escape. -/
inductive Piece where
  | char (c : Char)
  | code (n : Nat)
  deriving DecidableEq, Repr

inductive Token where
  | braceOpen
  | braceClose
  | bracketOpen
  | bracketClose
  | comma
  | colon
  /-- A name or a numeral. -/
  | word (cs : List Char)
  /-- A quoted text. -/
  | text (pieces : List Piece)
  deriving DecidableEq, Repr

namespace Token

/-- Where the machine is. Whatever is collected is kept with the newest first. -/
inductive Mode where
  | between
  | word (read : List Char)
  | text (read : List Piece)
  /-- After a backslash. -/
  | escape (read : List Piece)
  /-- Among the four digits of a code. -/
  | code (read : List Piece) (digits : Nat) (value : Nat)
  deriving DecidableEq, Repr

/-- The machine: its mode and the tokens it has found, newest first. -/
structure Scanner where
  mode : Mode
  found : List Token
  deriving DecidableEq, Repr

/-- The blanks between tokens. -/
def isSpace (c : Char) : Bool :=
  c == ' ' || c == '\t' || c == '\n' || c == '\r'

/-- The characters of words. -/
def isWordChar (c : Char) : Bool :=
  c.isAlphanum || c == '+' || c == '-' || c == '.'

/-- The token that is one character long. -/
def ofMark? (c : Char) : Option Token :=
  if c == '{' then some .braceOpen
  else if c == '}' then some .braceClose
  else if c == '[' then some .bracketOpen
  else if c == ']' then some .bracketClose
  else if c == ',' then some .comma
  else if c == ':' then some .colon
  else none

/-- The character that a one-letter escape stands for. -/
def ofEscape? (c : Char) : Option Char :=
  if c == '"' || c == '\\' || c == '/' then some c
  else if c == 'b' then some '\x08'
  else if c == 'f' then some '\x0c'
  else if c == 'n' then some '\n'
  else if c == 'r' then some '\r'
  else if c == 't' then some '\t'
  else none

/-- A character between tokens. -/
def start (found : List Token) (c : Char) : Option Scanner :=
  if isSpace c then some ⟨.between, found⟩
  else if c == '"' then some ⟨.text [], found⟩
  else if isWordChar c then some ⟨.word [c], found⟩
  else (ofMark? c).map fun t ↦ ⟨.between, t :: found⟩

/-- One character. -/
def step : Scanner → Char → Option Scanner
  | ⟨.between, found⟩, c => start found c
  | ⟨.word read, found⟩, c =>
    if isWordChar c then some ⟨.word (c :: read), found⟩
    else start (.word read.reverse :: found) c
  | ⟨.text read, found⟩, c =>
    if c == '"' then some ⟨.between, .text read.reverse :: found⟩
    else if c == '\\' then some ⟨.escape read, found⟩
    else if c.toNat < 32 then none
    else some ⟨.text (.char c :: read), found⟩
  | ⟨.escape read, found⟩, c =>
    if c == 'u' then some ⟨.code read 0 0, found⟩
    else (ofEscape? c).map fun d ↦ ⟨.text (.char d :: read), found⟩
  | ⟨.code read digits value, found⟩, c =>
    (digitValue? 16 c).map fun d ↦
      if digits == 3 then ⟨.text (.code (16 * value + d) :: read), found⟩
      else ⟨.code read (digits + 1) (16 * value + d), found⟩

/-- The tokens found when the text has ended; no quoted text may be open. -/
def finish : Scanner → Option (List Token)
  | ⟨.between, found⟩ => some found.reverse
  | ⟨.word read, found⟩ => some (.word read.reverse :: found).reverse
  | _ => none

/-- The tokens of a text. -/
def ofChars? (cs : List Char) : Option (List Token) :=
  (cs.foldlM step ⟨.between, []⟩).bind finish

end Token

/-- The characters that pieces spell: two codes that form a surrogate pair are one character, and a
half of a pair that stands alone spells nothing. -/
def charsOfPieces? : List Piece → Option (List Char)
  | [] => some []
  | .char c :: rest => (charsOfPieces? rest).map (c :: ·)
  | .code high :: .code low :: rest =>
    if 0xD800 ≤ high && high < 0xDC00 then
      if 0xDC00 ≤ low && low < 0xE000 then
        (charsOfPieces? rest).map
          (Char.ofNat (0x10000 + (high - 0xD800) * 0x400 + (low - 0xDC00)) :: ·)
      else none
    else if 0xDC00 ≤ high && high < 0xE000 then none
    else (charsOfPieces? (.code low :: rest)).map (Char.ofNat high :: ·)
  | .code n :: rest =>
    if 0xD800 ≤ n && n < 0xE000 then none
    else (charsOfPieces? rest).map (Char.ofNat n :: ·)

/-- The text that pieces spell. -/
def textOfPieces? (pieces : List Piece) : Option String :=
  (charsOfPieces? pieces).map String.ofList

end BuildFleet.Json
