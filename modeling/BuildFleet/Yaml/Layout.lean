import BuildFleet.Yaml.Token

/-!
# The layout of a YAML stream

Indentation stands for brackets, and a key of a mapping is known as one only when the colon after it
comes. The state below turns both into tokens: it keeps the columns of the open blocks, and for each
flow level the place in the token list where a key may have started. When the colon comes, the key
token and, if a mapping begins there, its start are put in at that place.

A stream is read in one pass, and anything wrong anywhere in it makes all of it unreadable.
-/

namespace BuildFleet.Yaml

/-- A place where a key may have started: it is one if a colon follows on the same line, not too far
away. -/
structure PendingKey where
  /-- Whether nothing but a key may stand there. -/
  required : Bool
  /-- The number of tokens in front of it. -/
  position : Nat
  index : Nat
  line : Nat
  column : Nat

/-- The state of reading the layout. -/
structure Layout where
  cursor : Cursor
  /-- The tokens that have been read, the last one first. -/
  tokens : List Token := []
  /-- The number of these tokens. -/
  count : Nat := 0
  /-- The column of the innermost open block; -1 outside of all blocks. -/
  indent : Int := -1
  /-- The columns of the blocks around it, innermost first. -/
  outer : List Int := []
  /-- The number of open flow collections. -/
  flowLevel : Nat := 0
  /-- Whether a key may start here. -/
  keyAllowed : Bool := true
  /-- The pending key of the innermost flow level. -/
  pending : Option PendingKey := none
  /-- The pending keys of the levels around it, innermost first. -/
  outerPending : List (Option PendingKey) := []

namespace Layout

/-- Puts a token after so many others. -/
def insert (position : Nat) (t : Token) (s : Layout) : Layout :=
  { s with tokens := s.tokens.insertIdx (s.count - position) t, count := s.count + 1 }

/-- Adds a token. -/
def emit (t : Token) (s : Layout) : Layout :=
  { s with tokens := t :: s.tokens, count := s.count + 1 }

/-- Adds a token that is so many characters long. -/
def take (t : Token) (width : Nat) (s : Layout) : Layout :=
  { emit t s with cursor := s.cursor.drop width }

/-- Whether the cursor is inside a flow collection. -/
def inFlow (s : Layout) : Bool := s.flowLevel != 0

/-! ## Pending keys -/

/-- A key lies on one line and is no longer than this, in bytes. -/
def keyLimit : Nat := 1024

/-- A pending key as it stands at a cursor: it is given up when its line has ended or it has become
too long, which a required key must not. -/
def refreshKey? (c : Cursor) : Option PendingKey → Option (Option PendingKey)
  | none => some none
  | some k =>
    if k.line < c.line || k.index + keyLimit < c.index then
      if k.required then none else some none
    else some (some k)

/-- Gives up the pending key of the innermost level if it can no longer be one. Those around it are
looked at when their level is the innermost one again. -/
def refresh? (s : Layout) : Option Layout :=
  (refreshKey? s.cursor s.pending).map fun pending ↦ { s with pending }

/-- Gives up the pending key of the innermost level. -/
def dropKey? (s : Layout) : Option Layout :=
  if s.pending.any (·.required) then none else some { s with pending := none }

/-- Notes that a key may start here, if one is allowed. -/
def noteKey? (s : Layout) : Option Layout :=
  if !s.keyAllowed then some s
  else
    (dropKey? s).map fun s ↦
      { s with
        pending := some
          { required := !s.inFlow && s.indent == (s.cursor.column : Int)
            position := s.count
            index := s.cursor.index
            line := s.cursor.line
            column := s.cursor.column } }

/-! ## Blocks -/

/-- Opens a block at a column, if it is further in than the innermost one; its start is put after so
many tokens. -/
def openBlock (column position : Nat) (start : Token) (s : Layout) : Layout :=
  if s.inFlow || (column : Int) ≤ s.indent then s
  else
    { insert position start s with outer := s.indent :: s.outer, indent := column }

/-- Closes the blocks that are further in than a column. -/
def closeBlocks (column : Int) (s : Layout) : Layout :=
  if s.inFlow then s else go s.outer s
where
  /-- Closes blocks, the columns around them given. -/
  go : List Int → Layout → Layout
    | [], s => s
    | parent :: outer, s =>
      if s.indent ≤ column then s
      else go outer { emit .blockEnd s with indent := parent, outer }

/-! ## One token -/

/-- The cursor at the next token: blanks, comments and line ends are skipped. A tab counts as a
blank only where no key may start, and a byte order mark only at the start of a line, one of them.
Outside of flow collections a key may start after a line end. -/
def skipGap : Nat → Layout → Layout
  | 0, s => s
  | fuel + 1, s =>
    let c := s.cursor
    let c := if c.column == 0 && startsWith '\uFEFF' c.rest then c.drop 1 else c
    let c := c.skip fun ch ↦ ch == ' ' || ((s.inFlow || !s.keyAllowed) && ch == '\t')
    let c := if startsWith '#' c.rest then c.skipLine else c
    if c.rest.head?.any isBreak then
      skipGap fuel
        { s with cursor := c.nextLine, keyAllowed := s.keyAllowed || !s.inFlow }
    else { s with cursor := c }

/-- The end of the stream closes all blocks. -/
def finish? (s : Layout) : Option (List Token) :=
  (dropKey? (closeBlocks (-1) s)).map (·.tokens.reverse)

/-- A directive. -/
def directive? (s : Layout) : Option Layout := do
  let s ← dropKey? (closeBlocks (-1) s)
  let (t, c) ← Token.directive? s.cursor
  some { emit t s with cursor := c, keyAllowed := false }

/-- The mark that starts or ends a document. -/
def documentMark? (s : Layout) : Option Layout :=
  (dropKey? (closeBlocks (-1) s)).map fun s ↦
    { take (if startsWith '-' s.cursor.rest then .documentStart else .documentEnd) 3 s with
      keyAllowed := false }

/-- The opening mark of a flow collection, which may be a key itself. -/
def openFlow? (t : Token) (s : Layout) : Option Layout :=
  (noteKey? s).map fun s ↦
    { take t 1 s with
      flowLevel := s.flowLevel + 1
      pending := none
      outerPending := s.pending :: s.outerPending
      keyAllowed := true }

/-- The closing mark of a flow collection. -/
def closeFlow? (t : Token) (s : Layout) : Option Layout :=
  (dropKey? s).map fun s ↦
    let s := match s.outerPending with
      | [] => s
      | pending :: outerPending =>
        { s with flowLevel := s.flowLevel - 1, pending, outerPending }
    { take t 1 s with keyAllowed := false }

/-- A comma between the entries of a flow collection. -/
def flowEntry? (s : Layout) : Option Layout :=
  (dropKey? s).map fun s ↦ { take .flowEntry 1 s with keyAllowed := true }

/-- The dash in front of an item of a block. -/
def blockEntry? (s : Layout) : Option Layout :=
  if !s.inFlow && !s.keyAllowed then none
  else
    (dropKey? (openBlock s.cursor.column s.count .blockSequenceStart s)).map fun s ↦
      { take .blockEntry 1 s with keyAllowed := true }

/-- The mark in front of a key. -/
def explicitKey? (s : Layout) : Option Layout :=
  if !s.inFlow && !s.keyAllowed then none
  else
    (dropKey? (openBlock s.cursor.column s.count .blockMappingStart s)).map fun s ↦
      { take .key 1 s with keyAllowed := !s.inFlow }

/-- The colon after a key: it makes a key of the pending one, if there is one. -/
def value? (s : Layout) : Option Layout :=
  match s.pending with
  | some k =>
    let s := openBlock k.column k.position .blockMappingStart (insert k.position .key s)
    some { take .value 1 s with pending := none, keyAllowed := false }
  | none =>
    if !s.inFlow && !s.keyAllowed then none
    else
      let s := openBlock s.cursor.column s.count .blockMappingStart s
      some { take .value 1 s with keyAllowed := !s.inFlow }

/-- A token that may be a key or stand in front of one. -/
def keyLike? (read : Cursor → Option (Token × Cursor)) (s : Layout) : Option Layout := do
  let s ← noteKey? s
  let (t, c) ← read s.cursor
  some { emit t s with cursor := c, keyAllowed := false }

/-- A block scalar, after which a key may start. -/
def blockScalar? (literal : Bool) (s : Layout) : Option Layout := do
  let s ← dropKey? s
  let (t, c) ← Token.block? literal s.indent s.cursor
  some { emit t s with cursor := c, keyAllowed := true }

/-- A plain scalar. A key may start after it if it ended after a line end. -/
def plain? (s : Layout) : Option Layout := do
  let s ← noteKey? s
  let (t, ended, c) ← Token.plain? s.inFlow (s.indent + 1) s.cursor
  some { emit t s with cursor := c, keyAllowed := ended }

/-- The marks that no plain scalar starts with. -/
def indicators : List Char :=
  ['-', '?', ':', ',', '[', ']', '{', '}', '#', '&', '*', '!', '|', '>', '\x27', '"', '%', '@',
    '\x60']

/-- The token that starts with a character; the cursor is in front of it. -/
def token? (c : Char) (rest : List Char) (s : Layout) : Option Layout :=
  if s.cursor.column == 0 && c == '%' then directive? s
  else if s.cursor.atDocumentMark then documentMark? s
  else if c == '[' then openFlow? .flowSequenceStart s
  else if c == '{' then openFlow? .flowMappingStart s
  else if c == ']' then closeFlow? .flowSequenceEnd s
  else if c == '}' then closeFlow? .flowMappingEnd s
  else if c == ',' then flowEntry? s
  else if c == '-' && endsWord rest then blockEntry? s
  else if c == '?' && (s.inFlow || endsWord rest) then explicitKey? s
  else if c == ':' && (s.inFlow || endsWord rest) then value? s
  else if c == '*' then keyLike? (fun c ↦ (Token.name? c).map fun r ↦ (.alias r.1, r.2)) s
  else if c == '&' then keyLike? (fun c ↦ (Token.name? c).map fun r ↦ (.anchor r.1, r.2)) s
  else if c == '!' then keyLike? (Token.tag? s.inFlow) s
  else if c == '|' && !s.inFlow then blockScalar? true s
  else if c == '>' && !s.inFlow then blockScalar? false s
  else if c == '\x27' then keyLike? (Token.quoted? true) s
  else if c == '"' then keyLike? (Token.quoted? false) s
  else if !(isGap c || indicators.contains c) || (c == '-' && !(rest.head?.any isSpace)) ||
      (!s.inFlow && (c == '?' || c == ':') && !endsWord rest) then plain? s
  else none

/-- Reads tokens up to the end of the stream; each of them is a character long at least, so that
there are no more of them than characters. -/
def tokensFrom? : Nat → Layout → Option (List Token)
  | 0, _ => none
  | fuel + 1, s =>
    (refresh? (skipGap (s.cursor.left + 1) s)).bind fun s ↦
      let s := closeBlocks s.cursor.column s
      match s.cursor.rest with
      | [] => finish? s
      | c :: rest => (token? c rest s).bind (tokensFrom? fuel)

/-- The tokens of a stream. -/
def tokens? (text : String) : Option (List Token) :=
  let cs := text.toList
  if !cs.all isAllowed then none
  else
    let c := Cursor.ofChars (unifyLineEnds cs)
    tokensFrom? (c.left + 1) { cursor := c }

end Layout

end BuildFleet.Yaml
