import BuildFleet.Document.Datum
import BuildFleet.Document.Source
import BuildFleet.Json.Parser

/-!
# JSON as a source of typed values

A JSON value answers each question in one way only: there is no conversion between texts, numbers
and truth values. A value that is read without a type is held to the limits of the format, on the
depth of nesting counted from the root of the document and on the range of numbers; what is skipped
is not.
-/

namespace BuildFleet.Json

/-- A value together with the number of arrays and objects that it stands in. -/
structure Place where
  depth : Nat
  value : Json

/-- Arrays and objects may be nested less deep than this. -/
def depthLimit : Nat := 128

/-- A number as it shows itself; none if it is out of range. -/
def untypedNumber? (numeral : List Char) : Option Untyped :=
  match (natOfDigits? 10 numeral).filter (· < Nat.pow 2 64) with
  | some n => some (.index n)
  | none =>
    (Numeral.ofChars? numeral).bind fun x ↦ if x.isInRange then some .number else none

mutual

/-- A value as it shows itself, with arrays and objects at most `room` deep in it. -/
def untyped? (room : Nat) : Json → Option Untyped
  | .null => some .null
  | .bool b => some (.flag b)
  | .number numeral => untypedNumber? numeral.toList
  | .text s => some (.text s)
  | .broken => none
  | .array items =>
    match room with
    | 0 => none
    | room + 1 => (untypedItems? room items).map .list
  | .object members =>
    match room with
    | 0 => none
    | room + 1 => (untypedMembers? room members).map .map

/-- Items as they show themselves. -/
def untypedItems? (room : Nat) : List Json → Option (List Untyped)
  | [] => some []
  | v :: vs => (untyped? room v).bind fun u ↦ (untypedItems? room vs).map (u :: ·)

/-- Members as they show themselves. -/
def untypedMembers? (room : Nat) : List (String × Json) → Option (List (Untyped × Untyped))
  | [] => some []
  | (k, v) :: ms =>
    (untyped? room v).bind fun u ↦ (untypedMembers? room ms).map ((.text k, u) :: ·)

end

namespace Place

/-- A value in the array or object at this place. -/
def inner (p : Place) (v : Json) : Place := ⟨p.depth + 1, v⟩

/-- The text at a place. -/
def text? (p : Place) : Option String :=
  match p.value with
  | .text s => some s
  | _ => none

/-- The truth value at a place. -/
def flag? (p : Place) : Option Bool :=
  match p.value with
  | .bool b => some b
  | _ => none

/-- Whether null stands at a place. -/
def isNull (p : Place) : Bool :=
  match p.value with
  | .null => true
  | _ => false

/-- The items of the array at a place. -/
def items? (p : Place) : Option (List Place) :=
  match p.value with
  | .array items => some (items.map p.inner)
  | _ => none

/-- The members of the object at a place. -/
def members? (p : Place) : Option (List (String × Place)) :=
  match p.value with
  | .object members => some (members.map fun m ↦ (m.1, p.inner m.2))
  | _ => none

/-- The fields of a record that a place shows by name. -/
def keyed? (p : Place) : Option (Fields Place) :=
  p.members?.map .keyed

/-- The fields of a record that a place shows. -/
def fields? (p : Place) : Option (Fields Place) :=
  match p.items? with
  | some items => some (.positional items)
  | none => p.keyed?

/-- The variant at a place: a name, or an object with one member. -/
def choice? (p : Place) : Option (String × Option Place) :=
  match p.value with
  | .text s => some (s, none)
  | .object [(name, payload)] => some (name, some (p.inner payload))
  | _ => none

end Place

/-- What JSON values answer; `positional` says whether the record that a variant carries may be
given by position, which holds of documents but not of messages that have been read before. -/
def source (positional : Bool) : Source Place where
  text p := .ofOption p.text?
  flag p := .ofOption p.flag?
  optional p := return if p.isNull then none else some p
  items p := .ofOption p.items?
  entries p := .ofOption p.members?
  fields p := .ofOption p.fields?
  choice p := .ofOption p.choice?
  payloadFields p := .ofOption (if positional then p.fields? else p.keyed?)
  isVoid p := p.isNull
  untyped p := .ofOption (p.value.untyped? (depthLimit - 1 - p.depth))

/-- What a type's reader makes of a JSON value; there are no references in it to follow. -/
def read? {α : Type} (read : {ν : Type} → Source ν → ν → Reading α) (positional : Bool) (v : Json) :
    Option α :=
  (read (source positional) ⟨0, v⟩).result? 0

/-- What a type's reader makes of the text of a document. -/
def readText? {α : Type} (read : {ν : Type} → Source ν → ν → Reading α) (text : String) :
    Option α :=
  (parse? text).bind fun v ↦ v.read? read true

end BuildFleet.Json

namespace BuildFleet.Datum

mutual

/-- A tree as a JSON value: a variant is an object with one member. -/
def toJson : Datum → Json
  | .null => .null
  | .flag b => .bool b
  | .text s => .text s
  | .list items => .array (itemsToJson items)
  | .record fields => .object (fieldsToJson fields)
  | .variant name payload => .object [(name, payload.toJson)]

/-- Items as JSON values. -/
def itemsToJson : List Datum → List Json
  | [] => []
  | d :: ds => d.toJson :: itemsToJson ds

/-- Fields as JSON members. -/
def fieldsToJson : List (String × Datum) → List (String × Json)
  | [] => []
  | (name, d) :: fs => (name, d.toJson) :: fieldsToJson fs

end

end BuildFleet.Datum
