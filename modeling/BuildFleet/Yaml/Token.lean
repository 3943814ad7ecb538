import BuildFleet.Decimal
import BuildFleet.Yaml.Cursor
import BuildFleet.Yaml.Tag

/-!
# YAML tokens

The lexical forms of a stream that need no knowledge of the structure around them: names, tags,
directives and the five styles of scalars. Each reader starts at its first character and gives the
cursor after its last one.
-/

namespace BuildFleet.Yaml

/-- How a scalar is written. -/
inductive Style where
  | plain
  | singleQuoted
  | doubleQuoted
  | literal
  | folded
  deriving DecidableEq, Repr

inductive Token where
  /-- A directive that names the version of the language. -/
  | version (major minor : Nat)
  /-- A directive that declares what a tag handle stands for. -/
  | tagHandle (handle : String) (expansion : List UInt8)
  | documentStart
  | documentEnd
  | blockSequenceStart
  | blockMappingStart
  | blockEnd
  | flowSequenceStart
  | flowSequenceEnd
  | flowMappingStart
  | flowMappingEnd
  | blockEntry
  | flowEntry
  | key
  | value
  | alias (name : String)
  | anchor (name : String)
  /-- A tag in two parts; there is no handle if it is written out in full. -/
  | tag (handle : String) (suffix : List UInt8)
  | scalar (text : String) (style : Style)
  deriving DecidableEq, Repr

namespace Token

/-! ## Names, tags and directives -/

/-- A name after `&` or `*`. -/
def name? (c : Cursor) : Option (String × Cursor) :=
  let (name, c) := (c.drop 1).span isNameChar
  let ends := match c.rest with
    | [] => true
    | ch :: _ => isGap ch || ['?', ':', ',', ']', '}', '%', '@', '\x60'].contains ch
  if name.isEmpty || !ends then none else some (String.ofList name, c)

/-- The characters that may stand in a tag as they are; a tag that is not in shorthand may hold
commas and brackets too. -/
def isTagChar (verbatim : Bool) (c : Char) : Bool :=
  isNameChar c ||
    [';', '/', '?', ':', '@', '&', '=', '+', '$', '.', '!', '~', '*', '\x27', '(',
      ')'].contains c ||
    (verbatim && (c == ',' || c == '[' || c == ']'))

/-- The value of two digits in base sixteen after a percent sign. -/
def escapedByte? : List Char → Option Nat
  | '%' :: a :: b :: _ => natOfDigits? 16 [a, b]
  | _ => none

/-- The bytes that escapes spell together. The first byte says how many there are and the others
have to continue it, but nobody asks whether they are a character. -/
def escapedBytes? (cs : List Char) : Option (List UInt8) := do
  let lead ← escapedByte? cs
  let width ←
    if lead < 0x80 then some 1
    else if lead / 32 == 6 then some 2
    else if lead / 16 == 14 then some 3
    else if lead / 8 == 30 then some 4
    else none
  let others ← (List.range (width - 1)).mapM fun i ↦
    (escapedByte? (cs.drop (3 * (i + 1)))).filter (· / 64 == 2)
  some ((lead :: others).map UInt8.ofNat)

/-- The bytes of a tag, and the number of characters that it is written in; `skip` characters belong
to the escapes that were read last. -/
def tagBytes? (verbatim : Bool) (skip : Nat) : List Char → Option (List UInt8 × Nat)
  | [] => some ([], 0)
  | c :: cs =>
    if skip != 0 then (tagBytes? verbatim (skip - 1) cs).map fun r ↦ (r.1, r.2 + 1)
    else if c == '%' then
      (escapedBytes? (c :: cs)).bind fun bytes ↦
        (tagBytes? verbatim (3 * bytes.length - 1) cs).map fun r ↦ (bytes ++ r.1, r.2 + 1)
    else if isTagChar verbatim c then
      (tagBytes? verbatim 0 cs).map fun r ↦ (UInt8.ofNat c.toNat :: r.1, r.2 + 1)
    else some ([], 0)

/-- The handle of a tag: `!`, `!!` or a name between two marks. In a directive it has to end with a
mark, if there is more of it than one. -/
def handle? (directive : Bool) (c : Cursor) : Option (List Char × Cursor) :=
  if !startsWith '!' c.rest then none
  else
    let (name, c) := (c.drop 1).span isNameChar
    if startsWith '!' c.rest then some ('!' :: name ++ ['!'], c.drop 1)
    else if directive && !name.isEmpty then none
    else some ('!' :: name, c)

/-- A tag: its handle, or no handle if it is written out in full, and its suffix. A lone mark is a
tag written out in full. -/
def tag? (inFlow : Bool) (c : Cursor) : Option (Token × Cursor) := do
  let (token, c) ←
    if startsWith '<' (c.rest.drop 1) then
      let c := c.drop 2
      let (bytes, width) ← tagBytes? true 0 c.rest
      let c := c.drop width
      if bytes.isEmpty || !startsWith '>' c.rest then none
      else some (Token.tag "" (Tag.untilZero bytes), c.drop 1)
    else
      let (handle, after) ← handle? false c
      let (bytes, width) ← tagBytes? false 0 after.rest
      if handle.length > 1 && handle.getLast? == some '!' then
        if bytes.isEmpty then none
        else some (.tag (String.ofList handle) (Tag.untilZero bytes), after.drop width)
      else
        let name := (handle.drop 1).map fun ch ↦ UInt8.ofNat ch.toNat
        match Tag.untilZero (name ++ bytes) with
        | [] => some (.tag "" (Tag.own "").bytes, after.drop width)
        | suffix => some (.tag "!" suffix, after.drop width)
  if endsWord c.rest || (inFlow && startsWith ',' c.rest) then some (token, c) else none

/-- A number in the version directive, at most nine digits long. -/
def versionNumber? (c : Cursor) : Option (Nat × Cursor) :=
  let (digits, c) := c.span Char.isDigit
  if digits.isEmpty || digits.length > 9 then none
  else some (digits.foldl (fun n d ↦ 10 * n + (d.toNat - 48)) 0, c)

/-- What a directive says after its name. -/
def directiveValue? (name : String) (c : Cursor) : Option (Token × Cursor) :=
  if name == "YAML" then do
    let (major, c) ← versionNumber? (c.skip isSpace)
    if !startsWith '.' c.rest then none
    else
      let (minor, c) ← versionNumber? (c.drop 1)
      some (.version major minor, c)
  else if name == "TAG" then do
    let (handle, c) ← handle? true (c.skip isSpace)
    if !(c.rest.head?.any isSpace) then none
    else
      let c := c.skip isSpace
      let (bytes, width) ← tagBytes? true 0 c.rest
      let c := c.drop width
      if bytes.isEmpty || !endsWord c.rest then none
      else some (.tagHandle (String.ofList handle) (Tag.untilZero bytes), c)
  else none

/-- The cursor at the end of a line on which nothing but a comment follows. -/
def restOfLine? (c : Cursor) : Option Cursor :=
  let c := c.skip isSpace
  let c := if startsWith '#' c.rest then c.skipLine else c
  match c.rest with
  | [] => some c
  | ch :: _ => if isBreak ch then some c.nextLine else none

/-- A directive with its line. -/
def directive? (c : Cursor) : Option (Token × Cursor) := do
  let (name, c) := (c.drop 1).span isNameChar
  if name.isEmpty || !endsWord c.rest then none
  else
    let (token, c) ← directiveValue? (String.ofList name) c
    let c ← restOfLine? c
    some (token, c)

/-! ## Quoted scalars -/

/-- The number that so many digits in base sixteen denote. -/
def hexNumber? (digits : Nat) (cs : List Char) : Option Nat :=
  if (cs.take digits).length < digits then none else natOfDigits? 16 (cs.take digits)

/-- The character that a backslash and these characters stand for, with the number of them. -/
def escape? : List Char → Option (Char × Nat)
  | [] => none
  | c :: cs =>
    let coded (digits : Nat) : Option (Char × Nat) :=
      (hexNumber? digits cs).bind fun n ↦
        if n.isValidChar then some (Char.ofNat n, digits + 1) else none
    if c == '0' then some ('\x00', 1)
    else if c == 'a' then some ('\x07', 1)
    else if c == 'b' then some ('\x08', 1)
    else if c == 't' || c == '\t' then some ('\t', 1)
    else if c == 'n' then some ('\n', 1)
    else if c == 'v' then some ('\x0b', 1)
    else if c == 'f' then some ('\x0c', 1)
    else if c == 'r' then some ('\r', 1)
    else if c == 'e' then some ('\x1b', 1)
    else if c == ' ' || c == '"' || c == '/' || c == '\\' then some (c, 1)
    else if c == 'N' then some ('\x85', 1)
    else if c == '_' then some ('\xa0', 1)
    else if c == 'L' then some ('\u2028', 1)
    else if c == 'P' then some ('\u2029', 1)
    else if c == 'x' then coded 2
    else if c == 'u' then coded 4
    else if c == 'U' then coded 8
    else none

/-- A word of a quoted scalar: its text, the number of characters that it is written in, and whether
an escaped line end follows it. -/
structure QuotedWord where
  text : List Char
  width : Nat
  escapedEnd : Bool

/-- Puts a character in front of a word. -/
def QuotedWord.cons (c : Char) (w : QuotedWord) : QuotedWord :=
  { w with text := c :: w.text, width := w.width + 1 }

/-- Reads a word up to a blank or to the closing quote; `skip` characters belong to the escape that
was read last. -/
def quotedWord? (single : Bool) (skip : Nat) : List Char → Option QuotedWord
  | [] => some ⟨[], 0, false⟩
  | c :: cs =>
    if skip != 0 then
      (quotedWord? single (skip - 1) cs).map fun w ↦ { w with width := w.width + 1 }
    else if isGap c then some ⟨[], 0, false⟩
    else if single then
      if c != '\x27' then (quotedWord? single 0 cs).map (.cons c)
      else if startsWith c cs then (quotedWord? single 1 cs).map (.cons c)
      else some ⟨[], 0, false⟩
    else if c == '"' then some ⟨[], 0, false⟩
    else if c != '\\' then (quotedWord? single 0 cs).map (.cons c)
    else if cs.head?.any isBreak then some ⟨[], 1, true⟩
    else (escape? cs).bind fun (d, width) ↦ (quotedWord? single width cs).map (.cons d)

/-- Reads a quoted scalar from the character after its opening quote; the fuel is the number of
words that may still come, and what has been read is kept with the last character first. -/
def quotedFrom? (single : Bool) : Nat → List Char → Cursor → Option (List Char × Cursor)
  | 0, _, _ => none
  | fuel + 1, read, c =>
    if c.atDocumentMark || c.rest.isEmpty then none
    else
      (quotedWord? single 0 c.rest).bind fun w ↦
        let c := c.drop w.width
        let read := w.text.reverseAux read
        if !w.escapedEnd && startsWith (if single then '\x27' else '"') c.rest then
          some (read.reverse, c.drop 1)
        else
          let (gap, c) := if w.escapedEnd then Gap.readEscaped c else Gap.read c
          quotedFrom? single fuel (gap.folded.reverseAux read) c

/-- A quoted scalar. -/
def quoted? (single : Bool) (c : Cursor) : Option (Token × Cursor) :=
  (quotedFrom? single (c.left + 1) [] (c.drop 1)).map fun (text, c) ↦
    (.scalar (String.ofList text) (if single then .singleQuoted else .doubleQuoted), c)

/-! ## Plain scalars -/

/-- The number of characters in a word of a plain scalar. In a flow collection a colon may not stand
in front of one of its marks. -/
def plainWidth? (inFlow : Bool) : List Char → Option Nat
  | [] => some 0
  | c :: cs =>
    if isGap c then some 0
    else if inFlow && c == ':' && cs.head?.any [',', '?', '[', ']', '{', '}'].contains then none
    else if c == ':' && endsWord cs then some 0
    else if inFlow && [',', '[', ']', '{', '}'].contains c then some 0
    else (plainWidth? inFlow cs).map (· + 1)

/-- Reads a plain scalar, given what has been read with the last character first, the gap after it
and the cursor after that gap. With the text comes whether it ended after a line end. -/
def plainFrom? (inFlow : Bool) (indent : Int) :
    Nat → List Char → Gap → Cursor → Option (List Char × Bool × Cursor)
  | 0, _, _, _ => none
  | fuel + 1, read, gap, c =>
    if c.atDocumentMark || startsWith '#' c.rest then some (read.reverse, gap.isMultiline, c)
    else
      (plainWidth? inFlow c.rest).bind fun width ↦
        if width == 0 then some (read.reverse, gap.isMultiline, c)
        else
          let read := (c.rest.take width).reverseAux (gap.folded.reverseAux read)
          let c := c.drop width
          if c.rest.isEmpty || !endsWord c.rest then some (read.reverse, false, c)
          else
            let (gap, c) := Gap.read c
            if gap.tabs.any fun column ↦ (column : Int) < indent then none
            else if !inFlow && (c.column : Int) < indent then
              some (read.reverse, gap.isMultiline, c)
            else plainFrom? inFlow indent fuel read gap c

/-- A plain scalar whose lines stand at a column or further in; with it comes whether it ended after
a line end. -/
def plain? (inFlow : Bool) (indent : Int) (c : Cursor) : Option (Token × Bool × Cursor) :=
  (plainFrom? inFlow indent (c.left + 1) [] {} c).map fun (text, ended, c) ↦
    (.scalar (String.ofList text) .plain, ended, c)

/-! ## Block scalars -/

/-- What happens to the line ends after the last line of a block scalar. -/
inductive Chomping where
  | strip
  | clip
  | keep
  deriving DecidableEq, Repr

/-- The chomping that a character asks for. -/
def Chomping.ofChar? (c : Char) : Option Chomping :=
  if c == '+' then some .keep else if c == '-' then some .strip else none

/-- The two indicators of a block scalar in either order: chomping and depth of indentation. -/
def blockHeader? (c : Cursor) : Option (Chomping × Option Nat × Cursor) :=
  let depth? (c : Cursor) : Option (Option Nat × Cursor) :=
    match c.rest with
    | d :: _ =>
      if d == '0' then none
      else if d.isDigit then some (some (d.toNat - 48), c.drop 1)
      else some (none, c)
    | [] => some (none, c)
  match c.rest.head?.bind Chomping.ofChar? with
  | some chomping => (depth? (c.drop 1)).map fun (depth, c) ↦ (chomping, depth, c)
  | none =>
    (depth? c).map fun (depth, c) ↦
      match depth, c.rest.head?.bind Chomping.ofChar? with
      | some _, some chomping => (chomping, depth, c.drop 1)
      | _, _ => (.clip, depth, c)

/-- Reads the indentation and the empty lines in front of a line of a block scalar: their line ends,
the largest column reached, and the cursor. Without a known indentation all spaces are eaten; a tab
may not stand where indentation is expected. -/
def blockBreaks? (indent : Option Nat) : Nat → List Char → Nat → Cursor →
    Option (List Char × Nat × Cursor)
  | 0, _, _, _ => none
  | fuel + 1, breaks, widest, c =>
    let spaces := (c.rest.takeWhile (· == ' ')).length
    let c := match indent with
      | none => c.drop spaces
      | some n => c.drop (min spaces (n - c.column))
    let widest := max widest c.column
    let indenting := match indent with
      | none => true
      | some n => decide (c.column < n)
    match c.rest with
    | [] => some (breaks, widest, c)
    | ch :: _ =>
      if indenting && ch == '\t' then none
      else if isBreak ch then blockBreaks? indent fuel (breaks ++ [ch]) widest c.nextLine
      else some (breaks, widest, c)

/-- What has been read of a block scalar. -/
structure BlockText where
  /-- The text up to the end of the last line, with the last character first. -/
  text : List Char := []
  /-- The line end after the last line. -/
  lastBreak : List Char := []
  /-- The line ends of the empty lines after it. -/
  emptyLines : List Char := []
  /-- Whether the last line started with a blank. -/
  blankLine : Bool := false

/-- Reads the lines of a block scalar. Folding turns a line feed between two lines that start with
no blank into a space, or drops it if empty lines follow. -/
def blockLines? (literal : Bool) (indent : Nat) : Nat → BlockText → Cursor →
    Option (BlockText × Cursor)
  | 0, _, _ => none
  | fuel + 1, b, c =>
    if c.column != indent || c.rest.isEmpty then some (b, c)
    else
      let blank := c.rest.head?.any isSpace
      let joint :=
        if !literal && b.lastBreak == ['\n'] && !b.blankLine && !blank then
          if b.emptyLines.isEmpty then [' '] else []
        else b.lastBreak
      let (line, c) := c.span (!isBreak ·)
      let (lastBreak, c) := match c.rest with
        | [] => ([], c)
        | ch :: _ => ([ch], c.nextLine)
      (blockBreaks? (some indent) (c.left + 1) [] 0 c).bind fun (emptyLines, _, c) ↦
        blockLines? literal indent fuel
          ⟨line.reverseAux (b.emptyLines.reverseAux (joint.reverseAux b.text)), lastBreak,
            emptyLines, blank⟩ c

/-- A block scalar inside a block that is indented to a column, or at the top. -/
def block? (literal : Bool) (parent : Int) (c : Cursor) : Option (Token × Cursor) := do
  let (chomping, depth, c) ← blockHeader? (c.drop 1)
  let c ← restOfLine? c
  let declared := depth.map fun d ↦ d + parent.toNat
  let (breaks, widest, c) ← blockBreaks? declared (c.left + 1) [] 0 c
  let indent := declared.getD (max widest (max 1 (parent + 1).toNat))
  let (b, c) ←
    blockLines? literal indent (c.left + 1) { emptyLines := breaks } c
  let tail := match chomping with
    | .strip => []
    | .clip => b.lastBreak
    | .keep => b.lastBreak ++ b.emptyLines
  some (.scalar (String.ofList (b.text.reverse ++ tail)) (if literal then .literal else .folded), c)

end Token

end BuildFleet.Yaml
