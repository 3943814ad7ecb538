import BuildFleet.Yaml.Layout

/-!
# YAML documents as trees

A document is a tree of scalars, sequences and mappings. An alias stays a node of its own that names
what it stands for by a number, so that a node may be an alias of one that it stands in: such a
document can be read as long as nobody follows the alias without end.

The number of an anchor is the count of distinct anchors before it. An anchor that is given twice
takes a new number without adding to the count, so two anchors may share a number, and then the
later node has it.
-/

namespace BuildFleet.Yaml

/-- A scalar: its text with the escapes and folds undone, how it was written, and its tag. -/
structure Scalar where
  text : String
  style : Style
  tag : Option Tag
  deriving DecidableEq, Repr

/-- A node of a document. -/
inductive Node where
  | alias (id : Nat)
  | scalar (s : Scalar)
  | sequence (tag : Option Tag) (items : List Node)
  | mapping (tag : Option Tag) (entries : List (Node × Node))
  deriving Inhabited, Repr

/-- The scalar that stands where nothing is written. -/
def Node.absent (tag : Option Tag) : Node :=
  .scalar ⟨"", .plain, tag⟩

mutual

/-- The number of events that a node is announced by: one for a scalar or an alias, and one for each
end of a collection. -/
def Node.events : Node → Nat
  | .alias _ => 1
  | .scalar _ => 1
  | .sequence _ items => 2 + itemEvents items
  | .mapping _ entries => 2 + entryEvents entries

/-- The number of events of items. -/
def itemEvents : List Node → Nat
  | [] => 0
  | n :: ns => n.events + itemEvents ns

/-- The number of events of entries. -/
def entryEvents : List (Node × Node) → Nat
  | [] => 0
  | (k, v) :: es => k.events + v.events + entryEvents es

end

/-! ## Comparing nodes -/

mutual

/-- Compares two nodes. -/
def Node.decEq : (m n : Node) → Decidable (m = n)
  | .alias i, .alias j => decidable_of_iff (i = j) (by simp)
  | .scalar s, .scalar t => decidable_of_iff (s = t) (by simp)
  | .sequence tag ms, .sequence tag' ns =>
    have := decEqItems ms ns
    decidable_of_iff (tag = tag' ∧ ms = ns) (by simp)
  | .mapping tag es, .mapping tag' fs =>
    have := decEqEntries es fs
    decidable_of_iff (tag = tag' ∧ es = fs) (by simp)
  | .alias _, .scalar _ | .alias _, .sequence _ _ | .alias _, .mapping _ _
  | .scalar _, .alias _ | .scalar _, .sequence _ _ | .scalar _, .mapping _ _
  | .sequence _ _, .alias _ | .sequence _ _, .scalar _ | .sequence _ _, .mapping _ _
  | .mapping _ _, .alias _ | .mapping _ _, .scalar _ | .mapping _ _, .sequence _ _ =>
    isFalse (by simp)

/-- Compares items. -/
def decEqItems : (ms ns : List Node) → Decidable (ms = ns)
  | [], [] => isTrue rfl
  | m :: ms, n :: ns =>
    have := m.decEq n
    have := decEqItems ms ns
    decidable_of_iff (m = n ∧ ms = ns) (by simp)
  | [], _ :: _ | _ :: _, [] => isFalse (by simp)

/-- Compares entries. -/
def decEqEntries : (es fs : List (Node × Node)) → Decidable (es = fs)
  | [], [] => isTrue rfl
  | (k, v) :: es, (l, w) :: fs =>
    have := k.decEq l
    have := v.decEq w
    have := decEqEntries es fs
    decidable_of_iff ((k = l ∧ v = w) ∧ es = fs) (by simp)
  | [], _ :: _ | _ :: _, [] => isFalse (by simp)

end

instance : DecidableEq Node := Node.decEq

/-- A document: its root, if it has one, and what the numbers of its anchors stand for. -/
structure Document where
  root : Option Node
  anchors : List (Nat × Node)
  deriving DecidableEq

namespace Document

/-! ## Building the tree -/

/-- What is known while tokens are read into a tree. -/
structure Builder where
  tokens : List Token
  /-- What the tag handles of the document stand for. -/
  handles : List (String × List UInt8) := []
  /-- The number of each anchor. -/
  ids : List (String × Nat) := []
  /-- The nodes with anchors, in the order of their starts. -/
  anchored : Array (Nat × Node) := #[]

/-- A step of building; it fails if the tokens do not fit the grammar. -/
abbrev Build := StateT Builder Option

namespace Build

/-- The next token. -/
def next : Build (Option Token) := do
  return (← get).tokens.head?

/-- Leaves the next token behind. -/
def pass : Build Unit :=
  modify fun b ↦ { b with tokens := b.tokens.drop 1 }

/-- Whether the next token is one of these; there may be none left. -/
def nextIsIn (ts : List Token) : Build Bool := do
  return (← next).any ts.contains

/-- Leaves the next token behind if it is this one, and says whether it was. -/
def passIf (t : Token) : Build Bool := do
  if (← next) == some t then pass; return true else return false

/-- The tag with a handle and a suffix: the handle has to be known. -/
def tag (handle : String) (suffix : List UInt8) : Build Tag := do
  if handle.isEmpty then return ⟨suffix⟩
  else
    match (← get).handles.lookup handle with
    | some expansion => return ⟨expansion ++ suffix⟩
    | none => failure

/-- The anchor and the tag in front of a node, in either order. -/
def properties : Build (Option String × Option Tag) := do
  match ← next with
  | some (.anchor name) =>
    pass
    match ← next with
    | some (.tag handle suffix) => pass; return (some name, some (← tag handle suffix))
    | _ => return (some name, none)
  | some (.tag handle suffix) =>
    pass
    match ← next with
    | some (.anchor name) => pass; return (some name, some (← tag handle suffix))
    | _ => return (none, some (← tag handle suffix))
  | _ => return (none, none)

/-- Numbers an anchor and keeps a place for its node. -/
def number (name : String) : Build (Nat × Nat) := do
  let b ← get
  let id := b.ids.length
  set { b with
    ids := (name, id) :: b.ids.filter (·.1 != name)
    anchored := b.anchored.push (id, Node.absent none) }
  return (b.anchored.size, id)

/-- Builds a node and, if it has an anchor, remembers it. -/
def anchoring (anchor : Option String) (build : Build Node) : Build Node := do
  match anchor with
  | none => build
  | some name =>
    let (place, id) ← number name
    let node ← build
    modify fun b ↦ { b with anchored := b.anchored.setIfInBounds place (id, node) }
    return node

mutual

/-- Reads a node. Block collections are allowed in blocks only, and a sequence whose dashes are not
indented only as part of a mapping. -/
def node : Nat → (inBlock unindented : Bool) → Build Node
  | 0, _, _ => failure
  | fuel + 1, inBlock, unindented => do
    if let some (.alias name) ← next then
      pass
      match (← get).ids.lookup name with
      | some id => return .alias id
      | none => failure
    else
      let (anchor, tag) ← properties
      match ← next with
      | some (.scalar text style) =>
        pass
        anchoring anchor (return .scalar ⟨text, style, tag⟩)
      | some .flowSequenceStart =>
        pass
        anchoring anchor (return .sequence tag (← flowItems fuel true))
      | some .flowMappingStart =>
        pass
        anchoring anchor (return .mapping tag (← flowEntries fuel true))
      | some t =>
        if t == .blockEntry && unindented then
          anchoring anchor (return .sequence tag (← unindentedItems fuel))
        else if t == .blockSequenceStart && inBlock then
          pass
          anchoring anchor (return .sequence tag (← blockItems fuel))
        else if t == .blockMappingStart && inBlock then
          pass
          anchoring anchor (return .mapping tag (← blockEntries fuel))
        else orAbsent anchor tag
      | none => orAbsent anchor tag

/-- Nothing is written: that is a node if it has an anchor or a tag. -/
def orAbsent (anchor : Option String) (tag : Option Tag) : Build Node :=
  if anchor.isSome || tag.isSome then anchoring anchor (return .absent tag) else failure

/-- A node, or the absent scalar if one of these tokens follows. -/
def nodeUnless : Nat → List Token → (inBlock unindented : Bool) → Build Node
  | 0, _, _, _ => failure
  | fuel + 1, ends, inBlock, unindented => do
    if ← nextIsIn ends then return .absent none else node fuel inBlock unindented

/-- The items of a block sequence, up to its end. -/
def blockItems : Nat → Build (List Node)
  | 0 => failure
  | fuel + 1 => do
    if ← passIf .blockEntry then
      let item ← nodeUnless fuel [.blockEntry, .blockEnd] true false
      return item :: (← blockItems fuel)
    else if ← passIf .blockEnd then return []
    else failure

/-- The items of a sequence whose dashes stand at the column of the keys around it. -/
def unindentedItems : Nat → Build (List Node)
  | 0 => failure
  | fuel + 1 => do
    if ← passIf .blockEntry then
      let item ← nodeUnless fuel [.blockEntry, .key, .value, .blockEnd] true false
      return item :: (← unindentedItems fuel)
    else return []

/-- The entries of a block mapping, up to its end. -/
def blockEntries : Nat → Build (List (Node × Node))
  | 0 => failure
  | fuel + 1 => do
    if ← passIf .key then
      let key ← nodeUnless fuel [.key, .value, .blockEnd] true true
      let value ←
        if ← passIf .value then nodeUnless fuel [.key, .value, .blockEnd] true true
        else pure (.absent none)
      return (key, value) :: (← blockEntries fuel)
    else if ← passIf .blockEnd then return []
    else failure

/-- The items of a flow sequence, up to its end; an item may be a mapping with one entry and without
braces. A missing key takes the token after it along. -/
def flowItems : Nat → (first : Bool) → Build (List Node)
  | 0, _ => failure
  | fuel + 1, first => do
    if ← passIf .flowSequenceEnd then return []
    else
      if !first then
        if !(← passIf .flowEntry) then failure
      if ← passIf .key then
        let key ←
          if ← nextIsIn [.value, .flowEntry, .flowSequenceEnd] then
            pass
            pure (.absent none)
          else node fuel false false
        let value ←
          if ← passIf .value then nodeUnless fuel [.flowEntry, .flowSequenceEnd] false false
          else pure (.absent none)
        return .mapping none [(key, value)] :: (← flowItems fuel false)
      else if ← passIf .flowSequenceEnd then return []
      else
        let item ← node fuel false false
        return item :: (← flowItems fuel false)

/-- The entries of a flow mapping, up to its end. -/
def flowEntries : Nat → (first : Bool) → Build (List (Node × Node))
  | 0, _ => failure
  | fuel + 1, first => do
    if ← passIf .flowMappingEnd then return []
    else
      if !first then
        if !(← passIf .flowEntry) then failure
      if ← passIf .key then
        let key ← nodeUnless fuel [.value, .flowEntry, .flowMappingEnd] false false
        let value ←
          if ← passIf .value then nodeUnless fuel [.flowEntry, .flowMappingEnd] false false
          else pure (.absent none)
        return (key, value) :: (← flowEntries fuel false)
      else if ← passIf .flowMappingEnd then return []
      else
        let key ← node fuel false false
        return (key, .absent none) :: (← flowEntries fuel false)

end

/-- The tag handles that every document knows, unless it declares them itself. -/
def standardHandles : List (String × List UInt8) :=
  [("!", (Tag.own "").bytes), ("!!", (Tag.standard "").bytes)]

/-- Reads the directives in front of a document: one version at most, which has to be 1.1 or 1.2,
and one declaration at most for each handle. -/
def directives : Nat → (versioned : Bool) → List (String × List UInt8) →
    Build (List (String × List UInt8))
  | 0, _, _ => failure
  | fuel + 1, versioned, declared => do
    match ← next with
    | some (.version major minor) =>
      if versioned || major != 1 || (minor != 1 && minor != 2) then failure
      else
        pass
        directives fuel true declared
    | some (.tagHandle handle expansion) =>
      if declared.any (·.1 == handle) then failure
      else
        pass
        directives fuel versioned ((handle, expansion) :: declared)
    | _ => return declared

/-- Whether a token is a directive. -/
def isDirective : Token → Bool
  | .version .. | .tagHandle .. => true
  | _ => false

/-- The root of the document, if there is one. Directives and the mark that starts a document belong
together. -/
def root (fuel : Nat) : Build (Option Node) := do
  match ← next with
  | none => return none
  | some t =>
    if isDirective t || t == .documentStart then
      let declared ← directives fuel false []
      if !(← passIf .documentStart) then failure
      modify fun b ↦ { b with handles := declared ++ standardHandles }
      match ← next with
      | none => return some (.absent none)
      | some t =>
        if isDirective t || t == .documentStart || t == .documentEnd then
          return some (.absent none)
        else return some (← node fuel true false)
    else
      modify fun b ↦ { b with handles := standardHandles }
      return some (← node fuel true false)

end Build

/-- The document that tokens are: one at most, with marks for its end after it. -/
def ofTokens? (ts : List Token) : Option Document := do
  let (root, b) ← (Build.root (4 * ts.length + 8)).run { tokens := ts }
  if b.tokens.all (· == .documentEnd) then
    some { root, anchors := b.anchored.toList.reverse }
  else none

/-- The document in a text. -/
def parse? (text : String) : Option Document :=
  (Layout.tokens? text).bind ofTokens?

/-- The number of events that the document is announced by. -/
def events (d : Document) : Nat :=
  (d.root.map Node.events).getD 1

end Document

end BuildFleet.Yaml
