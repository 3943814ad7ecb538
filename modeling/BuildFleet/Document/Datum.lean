/-!
# What is written into a document

Values are written into a tree that belongs to no format: JSON and YAML differ only in how they show
a variant that carries something, and in how they lay texts out. A variant that carries nothing is
written as the text of its name in both.
-/

namespace BuildFleet

/-- A tree to be written in some format. -/
inductive Datum where
  | null
  | flag (b : Bool)
  | text (s : String)
  | list (items : List Datum)
  /-- Named fields, or entries keyed by text, in the order of writing. -/
  | record (fields : List (String × Datum))
  /-- A variant by name, with what it carries. -/
  | variant (name : String) (payload : Datum)
  deriving Inhabited, Repr

namespace Datum

/-- A value that may be absent: absence is written as null. -/
def ofOption {α : Type} (write : α → Datum) : Option α → Datum
  | none => .null
  | some a => write a

/-- A list of values. -/
def ofList {α : Type} (write : α → Datum) (as : List α) : Datum :=
  .list (as.map write)

end Datum

end BuildFleet
