import BuildFleet.Document.Source
import BuildFleet.Yaml.Node
import BuildFleet.Yaml.Plain

/-!
# YAML as a source of typed values

A scalar has no type of its own here: asked for a text, it gives what is written, whatever that
looks like, and only the question for a truth value or for an absent one looks at the words. A value
that is read without a type is different: there a plain scalar means what its spelling says, and a
tag of the document's own is refused.

An alias is a reference to a node and answers as that node does. A document allows a hundred of them
to be followed for each of its events.
-/

namespace BuildFleet.Yaml

/-- A node together with the number of collections that it stands in. -/
structure Place where
  depth : Nat
  node : Node

/-- Collections may be nested as deep as this. -/
def depthLimit : Nat := 128

namespace Scalar

/-- Whether an empty collection may stand for the scalar. -/
def isNothing (s : Scalar) : Bool :=
  s.style == .plain && s.text.isEmpty

/-- Whether the scalar is plain and says null, or says nothing. -/
def isNull (s : Scalar) : Bool :=
  s.style == .plain && (s.text.isEmpty || Plain.isNullWord s.text)

/-- The truth value of a scalar. -/
def flag? (s : Scalar) : Option Bool :=
  if s.style == .plain || (s.style == .literal && s.tag == some (.standard "bool")) then
    Plain.flag? s.text
  else none

/-- Whether a scalar shows an absent value. The null tag admits nothing but the words for null. -/
def absent? (s : Scalar) : Option Bool :=
  if s.style != .plain then some false
  else
    match s.tag with
    | none => some s.isNull
    | some tag =>
      if tag != .standard "null" then some false
      else if Plain.isNullWord s.text then some true
      else none

/-- A number that a spelling stands for, as an untyped value; whole numbers that need more than 64
bits are refused. -/
def untypedNumber? : Plain.Meaning → Option Untyped
  | .whole n => if n < Nat.pow 2 64 then some (.index n) else none
  | .negative n => if n ≤ Nat.pow 2 63 then some .number else none
  | .real => some .number
  | _ => none

/-- What the spelling of a scalar shows. -/
def untypedSpelling? (s : Scalar) : Option Untyped :=
  if s.style != .plain then some (.text s.text)
  else
    match Plain.meaning s.text with
    | .null => some .null
    | .flag b => some (.flag b)
    | .text => some (.text s.text)
    | m => untypedNumber? m

/-- What a scalar shows by itself. A tag of YAML's own decides the type and the spelling has to fit
it; a tag of the document's own is refused, but counts for nothing if its name is no text; other
tags make a text. -/
def untyped? (s : Scalar) : Option Untyped :=
  match s.tag with
  | none => s.untypedSpelling?
  | some tag =>
    if tag == .standard "bool" then (Plain.flag? s.text).map .flag
    else if tag == .standard "int" then
      ((Plain.whole? s.text.toList).map Plain.Meaning.whole <|>
        (Plain.negative? s.text.toList).map Plain.Meaning.negative).bind untypedNumber?
    else if tag == .standard "float" then if Plain.isReal s.text then some .number else none
    else if tag == .standard "null" then if Plain.isNullWord s.text then some .null else none
    else if tag.name?.isSome then none
    else if tag.isOwn then s.untypedSpelling?
    else some (.text s.text)

end Scalar

namespace Document

/-! ## Following aliases -/

/-- The node that an alias stands for, which uses up a reference, or the node itself. -/
def resolve (d : Document) : Node → Reading Node
  | .alias id => do
    .follow
    .ofOption (d.anchors.lookup id)
  | n => return n

/-! ## Reading without a type -/

/-- Reads an entry, given how nodes are read. -/
def untypedEntry (read : Node → Reading Untyped) (e : Node × Node) : Reading (Untyped × Untyped) :=
  return (← read e.1, ← read e.2)

/-- What a node shows by itself, with collections at most `room` deep in it. -/
def untyped (d : Document) : (room : Nat) → Node → Reading Untyped
  | 0, n => do
    match ← d.resolve n with
    | .scalar s => .ofOption s.untyped?
    | _ => failure
  | room + 1, n => do
    match ← d.resolve n with
    | .scalar s => .ofOption s.untyped?
    | .sequence tag items =>
      if (tag.bind Tag.name?).isSome then failure
      else return .list (← items.mapM (d.untyped room))
    | .mapping tag entries =>
      if (tag.bind Tag.name?).isSome then failure
      else return .map (← entries.mapM (untypedEntry (d.untyped room)))
    | .alias _ => failure

/-! ## Typed reading -/

/-- The scalar at a place. -/
def scalar (d : Document) (n : Node) : Reading Scalar := do
  match ← d.resolve n with
  | .scalar s => return s
  | _ => failure

/-- The node to ask for a value that may be absent, unless it shows that it is. -/
def optional (d : Document) (p : Place) : Reading (Option Place) := do
  match ← d.resolve p.node with
  | .scalar s =>
    let absent ← Reading.ofOption s.absent?
    return if absent then none else some { p with node := .scalar s }
  | n => return some { p with node := n }

/-- The items of the sequence at a place; nothing written stands for an empty one. -/
def items (d : Document) (p : Place) : Reading (List Place) := do
  match ← d.resolve p.node with
  | .sequence _ items => return items.map fun n ↦ ⟨p.depth + 1, n⟩
  | .scalar s => if s.isNothing then return [] else failure
  | _ => failure

/-- The entries of the mapping at a place by the texts of their keys, which are scalars; nothing
written stands for an empty mapping. -/
def keyed (d : Document) (p : Place) : Reading (List (String × Place)) := do
  match ← d.resolve p.node with
  | .mapping _ entries =>
    entries.mapM fun e ↦ return ((← d.scalar e.1).text, ⟨p.depth + 1, e.2⟩)
  | .scalar s => if s.isNothing then return [] else failure
  | _ => failure

/-- The variant at a place: a plain or quoted name, or a tag on what the variant carries. -/
def choice (d : Document) (p : Place) : Reading (String × Option Place) := do
  match ← d.resolve p.node with
  | .scalar s =>
    match s.tag.bind Tag.name? with
    | none => return (s.text, none)
    | some name => return (name, some ⟨p.depth + 1, .scalar { s with tag := none }⟩)
  | .sequence tag items =>
    let name ← Reading.ofOption (tag.bind Tag.name?)
    return (name, some ⟨p.depth + 1, .sequence none items⟩)
  | .mapping tag entries =>
    let name ← Reading.ofOption (tag.bind Tag.name?)
    return (name, some ⟨p.depth + 1, .mapping none entries⟩)
  | .alias _ => failure

/-- Whether a plain scalar at a place says null, or nothing. -/
def isVoid (p : Place) : Bool :=
  match p.node with
  | .scalar s => s.isNull
  | _ => false

/-- What the nodes of a document answer. -/
def source (d : Document) : Source Place where
  text p := return (← d.scalar p.node).text
  flag p := do .ofOption (← d.scalar p.node).flag?
  optional := d.optional
  items := d.items
  entries := d.keyed
  fields p := return .keyed (← d.keyed p)
  choice := d.choice
  payloadFields p := return .keyed (← d.keyed p)
  isVoid := isVoid
  untyped p := d.untyped (depthLimit - p.depth) p.node

/-- The place of the root; a document without one is an empty mapping. -/
def rootPlace (d : Document) : Place :=
  ⟨0, d.root.getD (.mapping none [])⟩

/-- So many aliases may be followed for each event of a document. -/
def aliasesPerEvent : Nat := 100

/-- What a type's reader makes of a document. -/
def read? {α : Type} (read : {ν : Type} → Source ν → ν → Reading α) (d : Document) : Option α :=
  (read d.source d.rootPlace).result? (aliasesPerEvent * d.events)

end Document

/-- What a type's reader makes of the text of a document. -/
def readText? {α : Type} (read : {ν : Type} → Source ν → ν → Reading α) (text : String) :
    Option α :=
  (Document.parse? text).bind (Document.read? read)

end BuildFleet.Yaml
