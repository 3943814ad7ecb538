/-!
# Characters of a YAML stream and a cursor over them

Line ends are made equal before anything else is looked at, so that a line ends at `\n`, U+2028 or
U+2029 alone; the last two stay distinct because folding keeps them. The cursor counts lines and
columns as it goes, since indentation decides the structure, and bytes, since the length of a key is
limited by these.
-/

namespace BuildFleet.Yaml

/-- Whether a character may stand in a stream at all. -/
def isAllowed (c : Char) : Bool :=
  let n := c.toNat
  n == 0x09 || n == 0x0A || n == 0x0D || (0x20 ≤ n && n ≤ 0x7E) || n == 0x85 ||
    (0xA0 ≤ n && n ≤ 0xFFFD) || 0x10000 ≤ n

/-- Writes every line end but U+2028 and U+2029 as a line feed. -/
def unifyLineEnds : List Char → List Char
  | '\r' :: '\n' :: cs => '\n' :: unifyLineEnds cs
  | c :: cs => (if c == '\r' || c == '\x85' then '\n' else c) :: unifyLineEnds cs
  | [] => []

/-- Whether a character ends a line. -/
def isBreak (c : Char) : Bool :=
  c == '\n' || c == '\u2028' || c == '\u2029'

/-- Whether a character is a space or a tab. -/
def isSpace (c : Char) : Bool :=
  c == ' ' || c == '\t'

/-- Whether a character ends a word: a space, a tab or the end of a line. -/
def isGap (c : Char) : Bool :=
  isSpace c || isBreak c

/-- Whether a word ends in front of these characters. -/
def endsWord (cs : List Char) : Bool :=
  match cs with
  | [] => true
  | c :: _ => isGap c

/-- Whether the characters start with this one. -/
def startsWith (c : Char) (cs : List Char) : Bool :=
  cs.head? == some c

/-- The characters of anchors and of the names of directives and tag handles. -/
def isNameChar (c : Char) : Bool :=
  c.isAlphanum || c == '_' || c == '-'

/-- A position in a stream, with what follows it. -/
structure Cursor where
  rest : List Char
  /-- The number of characters that follow. -/
  left : Nat
  /-- The number of bytes before the position, in UTF-8. -/
  index : Nat
  line : Nat
  column : Nat

namespace Cursor

/-- The cursor at the start of a stream. -/
def ofChars (cs : List Char) : Cursor := ⟨cs, cs.length, 0, 0, 0⟩

/-- The number of bytes in the next characters, in UTF-8. -/
def bytes (n : Nat) (c : Cursor) : Nat :=
  (c.rest.take n).foldl (fun bytes ch ↦ bytes + ch.utf8Size) 0

/-- The cursor after some characters of the same line. -/
def drop (n : Nat) (c : Cursor) : Cursor :=
  ⟨c.rest.drop n, c.left - n, c.index + c.bytes n, c.line, c.column + n⟩

/-- The cursor at the start of the next line; the current one ends here. -/
def nextLine (c : Cursor) : Cursor :=
  ⟨c.rest.drop 1, c.left - 1, c.index + c.bytes 1, c.line + 1, 0⟩

/-- The characters of a class that follow, none of them a line end, and the cursor after them. -/
def span (p : Char → Bool) (c : Cursor) : List Char × Cursor :=
  let taken := c.rest.takeWhile p
  (taken, c.drop taken.length)

/-- The cursor after the characters of a class, none of them a line end. -/
def skip (p : Char → Bool) (c : Cursor) : Cursor :=
  (c.span p).2

/-- The cursor at the end of the line. -/
def skipLine (c : Cursor) : Cursor :=
  c.skip (!isBreak ·)

/-- Whether a line of three equal marks stands here that ends or starts a document. -/
def atDocumentMark (c : Cursor) : Bool :=
  c.column == 0 &&
    (['-', '-', '-'].isPrefixOf c.rest || ['.', '.', '.'].isPrefixOf c.rest) &&
    endsWord (c.rest.drop 3)

end Cursor

/-! ## Gaps

Between two words of a scalar stand spaces, or line ends with indentation around them. What a gap
contributes to the text depends on the line ends only, if there are any.
-/

/-- The blanks between two words of a scalar. -/
structure Gap where
  /-- Whether the line end that opens the gap is escaped and contributes nothing. -/
  escaped : Bool := false
  /-- The spaces and tabs in front of the first line end. -/
  spaces : List Char := []
  /-- The line ends. -/
  breaks : List Char := []
  /-- The columns of the tabs after the first line end. -/
  tabs : List Nat := []

namespace Gap

/-- Whether the gap goes over a line end. -/
def isMultiline (g : Gap) : Bool :=
  g.escaped || !g.breaks.isEmpty

/-- What the gap contributes to the text: a single line feed is a space, and of several the first
is dropped. -/
def folded (g : Gap) : List Char :=
  if g.escaped then g.breaks
  else
    match g.breaks with
    | [] => g.spaces
    | ['\n'] => [' ']
    | '\n' :: more => more
    | breaks => breaks

/-- Reads on in a gap, given the characters at the cursor. -/
def extend (g : Gap) : List Char → Cursor → Gap × Cursor
  | [], c => (g, c)
  | ch :: rest, c =>
    if isBreak ch then extend { g with breaks := g.breaks ++ [ch] } rest c.nextLine
    else if isSpace ch then
      if !g.isMultiline then extend { g with spaces := g.spaces ++ [ch] } rest (c.drop 1)
      else if ch == '\t' then extend { g with tabs := c.column :: g.tabs } rest (c.drop 1)
      else extend g rest (c.drop 1)
    else (g, c)

/-- The gap at a cursor, and the cursor after it. -/
def read (c : Cursor) : Gap × Cursor :=
  extend {} c.rest c

/-- The gap after a backslash at the end of a line; the cursor is at the line end. -/
def readEscaped (c : Cursor) : Gap × Cursor :=
  extend { escaped := true } c.nextLine.rest c.nextLine

end Gap

end BuildFleet.Yaml
