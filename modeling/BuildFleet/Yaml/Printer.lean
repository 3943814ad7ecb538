import BuildFleet.Document.Datum
import BuildFleet.Yaml.Node
import BuildFleet.Yaml.Plain

/-!
# Writing YAML

A tree is first made a tree of YAML nodes, which settles everything that reading depends on: the tag
of a variant, and for each scalar whether it is plain or in quotes. Only then is it laid out in
block style. A list stands at the column of the key that it belongs to, nothing is folded, and a key
that is long or goes over a line end is written with a mark of its own in front.
-/

namespace BuildFleet.Yaml

/-! ## The style of a scalar -/

namespace Style

/-- Whether a character may stand outside of double quotes. -/
def isPrintable (c : Char) : Bool :=
  let n := c.toNat
  n == 0x0A || (0x20 ≤ n && n ≤ 0x7E) || (0xA0 ≤ n && n != 0xFEFF && n != 0xFFFE && n != 0xFFFF)

/-- Whether a character ends a line for a writer, who has every line end to look at. -/
def isLineEnd (c : Char) : Bool :=
  isBreak c || c == '\r' || c == '\x85'

/-- Whether a character is one that a reader takes for a blank. -/
def isBlank (c : Char) : Bool :=
  isSpace c || isLineEnd c

/-- Whether a blank or the end of the text comes first. -/
def opensWithBlank : List Char → Bool
  | [] => true
  | c :: _ => isBlank c

/-- Whether one of two characters in a row has the first property and the other the second. -/
def hasPair (first second : Char → Bool) : List Char → Bool
  | a :: b :: rest => (first a && second b) || hasPair first second (b :: rest)
  | _ => false

/-- Whether the first character of a plain scalar, or two or three of them, would be read as a mark
of the structure. -/
def opensWithIndicator : List Char → Bool
  | [] => false
  | c :: rest =>
    ['-', '-', '-'].isPrefixOf (c :: rest) || ['.', '.', '.'].isPrefixOf (c :: rest) ||
      ['#', ',', '[', ']', '{', '}', '&', '*', '!', '|', '>', '\x27', '"', '%', '@',
        '\x60'].contains c ||
      ([':', '?', '-'].contains c && opensWithBlank rest)

/-- Whether a mark of the structure would be seen after the first character of a plain scalar: a
colon in front of a blank, or a hash after one. -/
def hasInnerIndicator : List Char → Bool
  | a :: b :: rest =>
    (b == ':' && opensWithBlank rest) || (b == '#' && isBlank a) || hasInnerIndicator (b :: rest)
  | _ => false

/-- Whether a text starts or ends with a space or a line end. -/
def hasOuterGap (cs : List Char) : Bool :=
  let gap (c : Char) : Bool := c == ' ' || isLineEnd c
  cs.head?.any gap || cs.getLast?.any gap

/-- Whether double quotes are the only style for a text: it has characters to be escaped, or a space
in front of a line end. -/
def needsEscapes (cs : List Char) : Bool :=
  cs.any (!isPrintable ·) || hasPair (· == ' ') isLineEnd cs

/-- Whether a text can be written in single quotes. -/
def allowsSingleQuotes (cs : List Char) : Bool :=
  !needsEscapes cs && !hasPair isLineEnd (· == ' ') cs

/-- Whether a text can be written without quotes, as far as the structure around it goes. -/
def allowsPlain (cs : List Char) : Bool :=
  allowsSingleQuotes cs && !hasOuterGap cs && !cs.any isLineEnd && !opensWithIndicator cs &&
    !hasInnerIndicator cs

/-- Whether a text can be written line by line. -/
def allowsLiteral (cs : List Char) : Bool :=
  !needsEscapes cs && cs.getLast? != some ' '

/-- The style that a text is written in. Texts with line feeds are written line by line; others are
left plain if they read back as themselves, and put in single quotes otherwise; where such a style
cannot be had, double quotes always can. -/
def ofText (s : String) : Style :=
  let cs := s.toList
  if cs.contains '\n' then
    if allowsLiteral cs then .literal else .doubleQuoted
  else if Plain.isSafe s && allowsPlain cs then .plain
  else if allowsSingleQuotes cs then .singleQuoted
  else .doubleQuoted

end Style

/-- The scalar that a text is written as. -/
def Scalar.ofText (s : String) : Scalar := ⟨s, .ofText s, none⟩

/-- A node with a tag on it. -/
def Node.tagged (tag : Tag) : Node → Node
  | .alias id => .alias id
  | .scalar s => .scalar { s with tag := some tag }
  | .sequence _ items => .sequence (some tag) items
  | .mapping _ entries => .mapping (some tag) entries

end Yaml

namespace Datum

mutual

/-- A tree as a YAML node: a variant is a tag on what it carries. -/
def toYaml : Datum → Yaml.Node
  | .null => .scalar ⟨"null", .plain, none⟩
  | .flag true => .scalar ⟨"true", .plain, none⟩
  | .flag false => .scalar ⟨"false", .plain, none⟩
  | .text s => .scalar (.ofText s)
  | .list items => .sequence none (itemsToYaml items)
  | .record fields => .mapping none (fieldsToYaml fields)
  | .variant name payload => payload.toYaml.tagged (.own name)

/-- Items as YAML nodes. -/
def itemsToYaml : List Datum → List Yaml.Node
  | [] => []
  | d :: ds => d.toYaml :: itemsToYaml ds

/-- Fields as YAML entries. -/
def fieldsToYaml : List (String × Datum) → List (Yaml.Node × Yaml.Node)
  | [] => []
  | (name, d) :: fs => (.scalar (.ofText name), d.toYaml) :: fieldsToYaml fs

end

end Datum

namespace Yaml

/-! ## Scalars -/

/-- So many spaces. -/
def spaces (n : Nat) : List Char := List.replicate n ' '

/-- A number in base sixteen with so many digits, upper case. -/
def hexDigits (digits n : Nat) : List Char :=
  match digits with
  | 0 => []
  | digits + 1 =>
    let d := n % 16
    hexDigits digits (n / 16) ++ [if d < 10 then Char.ofNat (48 + d) else Char.ofNat (55 + d)]

/-- A character inside double quotes. -/
def escapeChar (c : Char) : List Char :=
  let n := c.toNat
  if n == 0x00 then ['\\', '0']
  else if n == 0x07 then ['\\', 'a']
  else if n == 0x08 then ['\\', 'b']
  else if n == 0x09 then ['\\', 't']
  else if n == 0x0A then ['\\', 'n']
  else if n == 0x0B then ['\\', 'v']
  else if n == 0x0C then ['\\', 'f']
  else if n == 0x0D then ['\\', 'r']
  else if n == 0x1B then ['\\', 'e']
  else if c == '"' || c == '\\' then ['\\', c]
  else if n == 0x85 then ['\\', 'N']
  else if n == 0x2028 then ['\\', 'L']
  else if n == 0x2029 then ['\\', 'P']
  else if Style.isPrintable c then [c]
  else if n ≤ 0xFF then '\\' :: 'x' :: hexDigits 2 n
  else if n ≤ 0xFFFF then '\\' :: 'u' :: hexDigits 4 n
  else '\\' :: 'U' :: hexDigits 8 n

/-- A text inside single quotes: a quote is written twice, and after a line end comes the
indentation. -/
def singleQuotedChars (indent : Nat) (afterBreak : Bool) : List Char → List Char
  | [] => if afterBreak then spaces indent else []
  | c :: cs =>
    if isBreak c then c :: singleQuotedChars indent true cs
    else
      (if afterBreak then spaces indent else []) ++
        (if c == '\x27' then ['\x27', '\x27'] else [c]) ++ singleQuotedChars indent false cs

/-- The lines of a literal scalar: those that are not empty are indented. -/
def literalChars (indent : Nat) (afterBreak : Bool) : List Char → List Char
  | [] => []
  | c :: cs =>
    if isBreak c then c :: literalChars indent true cs
    else (if afterBreak then spaces indent else []) ++ c :: literalChars indent false cs

/-- The marks after the bar of a literal scalar: the depth of indentation if the text starts with a
blank, and what is to become of the line ends at its end. -/
def literalHeader (cs : List Char) : List Char :=
  let depth := if cs.head?.any fun c ↦ c == ' ' || isBreak c then ['2'] else []
  let chomping := match cs.reverse with
    | [] => ['-']
    | [c] => if isBreak c then ['+'] else ['-']
    | c :: d :: _ => if !isBreak c then ['-'] else if isBreak d then ['+'] else []
  '|' :: depth ++ chomping

/-- A scalar without its tag; lines after the first are indented. -/
def scalarChars (indent : Nat) (s : Scalar) : List Char :=
  let cs := s.text.toList
  match s.style with
  | .plain => cs
  | .singleQuoted => '\x27' :: singleQuotedChars indent false cs ++ ['\x27']
  | .doubleQuoted => '"' :: cs.flatMap escapeChar ++ ['"']
  | .literal | .folded => literalHeader cs ++ '\n' :: literalChars indent true cs

/-! ## Blocks

What has been written is kept with the last character first, so that the start of a new line can see
whether a literal scalar has already ended the line.
-/

/-- Starts a line at a column. -/
def startLine (indent : Nat) (written : List Char) : List Char :=
  spaces indent ++ if written.head?.any isBreak then written else '\n' :: written

/-- Writes characters. -/
def append (cs written : List Char) : List Char :=
  cs.reverse ++ written

/-- Whether a key is written without a mark in front: on one line, and not too long. -/
def isSimpleKey : Node → Bool
  | .scalar s =>
    s.tag.isNone && s.text.utf8ByteSize ≤ 128 && !s.text.toList.any Style.isLineEnd
  | _ => false

/-- A byte of a tag: an escape, unless it is a character that may stand in a tag as it is. -/
def Tag.byteChars (b : UInt8) : List Char :=
  let c := Char.ofNat b.toNat
  if Token.isTagChar false c then [c] else '%' :: hexDigits 2 b.toNat

/-- The characters of a tag: one that is not the document's own is written out in full. -/
def Tag.chars (t : Tag) : List Char :=
  if t.isOwn then '!' :: (t.bytes.drop 1).flatMap byteChars
  else '!' :: '<' :: t.bytes.flatMap byteChars ++ ['>']

/-- A tag in front of what follows it on the line. -/
def tagPrefix : Option Tag → List Char
  | none => []
  | some tag => tag.chars ++ [' ']

/-- What stands in front of a node on its first line: a space after the colon of a key, and the tag.
A collection that is laid out below starts on the next line, so nothing but the tag itself is left
of that. -/
def opening (afterKey below : Bool) (tag : Option Tag) : List Char :=
  if below then
    match tag with
    | none => []
    | some tag => (if afterKey then [' '] else []) ++ tag.chars
  else (if afterKey then [' '] else []) ++ tagPrefix tag

mutual

/-- Writes a node. It stands after a key, or else after another mark or at the top, and entries of
its own stand at the column; items after a key stand at the column of the key. -/
def writeNode (afterKey : Bool) (indent : Nat) : Node → List Char → List Char
  | .alias id, w => append (opening afterKey false none ++ '*' :: (toString id).toList) w
  | .scalar s, w => append (opening afterKey false s.tag ++ scalarChars indent s) w
  | .sequence tag [], w => append (opening afterKey false tag ++ ['[', ']']) w
  | .sequence tag (n :: ns), w =>
    writeItems (if afterKey then indent - 2 else indent) (!afterKey && tag.isNone) (n :: ns)
      (append (opening afterKey true tag) w)
  | .mapping tag [], w => append (opening afterKey false tag ++ ['{', '}']) w
  | .mapping tag (e :: es), w =>
    writeEntries indent (!afterKey && tag.isNone) (e :: es) (append (opening afterKey true tag) w)

/-- Writes items, the first of them on the line that is being written or on a line of its own. -/
def writeItems (indent : Nat) (sameLine : Bool) : List Node → List Char → List Char
  | [], w => w
  | n :: ns, w =>
    let w := if sameLine then w else startLine indent w
    writeItems indent false ns (writeNode false (indent + 2) n (append ['-', ' '] w))

/-- Writes entries, the first of them on the line that is being written or on a line of its own. -/
def writeEntries (indent : Nat) (sameLine : Bool) : List (Node × Node) → List Char → List Char
  | [], w => w
  | (k, v) :: es, w =>
    let w := if sameLine then w else startLine indent w
    writeEntries indent false es <|
      if isSimpleKey k then
        writeNode true (indent + 2) v (append [':'] (writeNode false (indent + 2) k w))
      else
        writeNode false (indent + 2) v
          (append [':', ' ']
            (startLine indent (writeNode false (indent + 2) k (append ['?', ' '] w))))

end

/-- The text of a document with a node as its root. -/
def render : Node → String
  | .scalar s => finish (writeNode false 2 (.scalar s) [])
  | n => finish (writeNode false 0 n [])
where
  /-- Ends the last line. -/
  finish (written : List Char) : String :=
    String.ofList (startLine 0 written).reverse

end Yaml

end BuildFleet
