import BuildFleet.Document.Untyped

/-!
# Reading typed values from a document

Reading is driven by the wanted type: the reader of a type asks a node for the shape that the type
has, and the format says what the node shows under that question. The same text of a document may
answer several questions, so a format is given by its answers and not by a tree of its own. Each
type has one reader, which works for every format.

A document may refer from one place to another, and a reader that follows references could be kept
busy for very long by a short document. So a reading has an allowance of references, which all its
questions share. No reader says why it failed: a document of the wrong shape is reported by the
format alone.
-/

namespace BuildFleet

/-- A reading: it gives a value or fails, and uses up references. -/
abbrev Reading := StateT Nat Option

namespace Reading

variable {α : Type}

/-- A value that is there without following a reference, if it is there. -/
def ofOption (a : Option α) : Reading α := StateT.lift a

/-- Follows a reference; it fails if none may be followed any more. -/
def follow : Reading Unit := do
  match ← get with
  | 0 => failure
  | allowance + 1 => set allowance

/-- What a reading gives that may follow so many references. -/
def result? (allowance : Nat) (r : Reading α) : Option α := r.run' allowance

end Reading

/-- The fields of a record as a document shows them: by name, or by position. -/
inductive Fields (ν : Type) where
  /-- Named fields in the written order; unknown names may be among them. -/
  | keyed (entries : List (String × ν))
  /-- Fields in the order of their declaration. -/
  | positional (items : List ν)

/-- What a format answers about the nodes `ν` of its documents. Every answer may be that the node
does not have the shape in question. -/
structure Source (ν : Type) where
  /-- The text of a node. -/
  text : ν → Reading String
  /-- The truth value of a node. -/
  flag : ν → Reading Bool
  /-- Nothing if a node shows an absent value, and otherwise the node to ask for the value. -/
  optional : ν → Reading (Option ν)
  /-- The items of a list. -/
  items : ν → Reading (List ν)
  /-- The entries of a map with texts as keys, in the written order. -/
  entries : ν → Reading (List (String × ν))
  /-- The fields of a record. -/
  fields : ν → Reading (Fields ν)
  /-- The name of a variant, with what it carries. -/
  choice : ν → Reading (String × Option ν)
  /-- The fields of a record that a variant carries. -/
  payloadFields : ν → Reading (Fields ν)
  /-- Whether a node, as what a variant carries, says that it carries nothing. -/
  isVoid : ν → Bool
  /-- The node as it shows itself. -/
  untyped : ν → Reading Untyped

namespace Source

variable {ν α : Type} (S : Source ν)

/-- A list of values. -/
def listOf (read : ν → Reading α) (n : ν) : Reading (List α) := do
  (← S.items n).mapM read

/-- A value that may be absent. -/
def optionOf (read : ν → Reading α) (n : ν) : Reading (Option α) := do
  match ← S.optional n with
  | none => return none
  | some m => return some (← read m)

/-- A variant that is one of a list of names without anything carried. -/
def nameOf (named : String → Option α) (n : ν) : Reading α := do
  let (name, payload) ← S.choice n
  if payload.all S.isVoid then .ofOption (named name) else failure

end Source

namespace Fields

variable {ν α : Type}

/-- Whether there are no more fields by position than the record has. -/
def fit (count : Nat) : Fields ν → Bool
  | .keyed _ => true
  | .positional items => items.length ≤ count

/-- What is given for the field of a name and position: nothing if it is missing. A name that is
given twice is an error. -/
def find? (index : Nat) (name : String) : Fields ν → Option (Option ν)
  | .keyed entries =>
    match entries.filter (·.1 == name) with
    | [] => some none
    | [e] => some (some e.2)
    | _ => none
  | .positional items => some items[index]?

/-- A field that has to be given. -/
def required (fs : Fields ν) (index : Nat) (name : String) (read : ν → Reading α) : Reading α := do
  match ← Reading.ofOption (fs.find? index name) with
  | none => failure
  | some n => read n

/-- A field that is taken to be a given value when it is missing. -/
def defaulted (fs : Fields ν) (index : Nat) (name : String) (missing : α) (read : ν → Reading α) :
    Reading α := do
  match ← Reading.ofOption (fs.find? index name) with
  | none => return missing
  | some n => read n

/-- A field whose value may be absent: by name it may be left out, by position it may not. -/
def optional (S : Source ν) (fs : Fields ν) (index : Nat) (name : String) (read : ν → Reading α) :
    Reading (Option α) := do
  match ← Reading.ofOption (fs.find? index name), fs with
  | none, .keyed _ => return none
  | none, .positional _ => failure
  | some n, _ => S.optionOf read n

/-- A value of a record, if it has no fields by position that the record does not know. -/
def whole (fs : Fields ν) (count : Nat) (a : α) : Reading α :=
  if fs.fit count then return a else failure

end Fields

end BuildFleet
