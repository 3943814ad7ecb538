import BuildFleet.Text.Utf8

/-!
# YAML tags

A tag is a run of bytes, since the escapes in it may spell anything. One that starts with an
exclamation mark is the document's own: the rest of it names a variant, if it is a text. Of all
other tags only those that YAML itself defines are known, and reading asks for four of them.
-/

namespace BuildFleet.Yaml

/-- A tag on a node. -/
structure Tag where
  bytes : List UInt8
  deriving DecidableEq, Repr

namespace Tag

/-- The tag that a text spells. -/
def ofText (s : String) : Tag := ⟨s.toList.flatMap String.utf8EncodeChar⟩

/-- The tag of the document's own with a name. -/
def own (name : String) : Tag := ofText ("!" ++ name)

/-- The tag that YAML defines for a type. -/
def standard (type : String) : Tag := ofText ("tag:yaml.org,2002:" ++ type)

/-- Whether a tag is one of the document's own. -/
def isOwn (t : Tag) : Bool := t.bytes.head? == some 0x21

/-- The name in a tag of the document's own. -/
def name? (t : Tag) : Option String :=
  if t.isOwn then (Text.Utf8.decode (t.bytes.drop 1)).toOption else none

/-- The part of some bytes that counts in a tag: a zero byte ends it. -/
def untilZero (bytes : List UInt8) : List UInt8 :=
  bytes.takeWhile (· != 0)

end Tag

end BuildFleet.Yaml
