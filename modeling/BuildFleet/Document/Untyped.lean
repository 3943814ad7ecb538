/-!
# Values read without a type

A value that may have one of several shapes is first read as what the document shows and matched
with the shapes afterwards. At that point a plain scalar has the format's own type: a number is no
longer a text, and a key may be a number.
-/

namespace BuildFleet

/-- A value as the document shows it. -/
inductive Untyped where
  | null
  | flag (b : Bool)
  /-- A whole number from 0 to `2 ^ 64 - 1`, which as a key may stand for a position. -/
  | index (n : Nat)
  /-- Any other number. -/
  | number
  | text (s : String)
  | list (items : List Untyped)
  | map (entries : List (Untyped × Untyped))
  deriving Inhabited, Repr

namespace Untyped

/-- The text that a value is. -/
def text? : Untyped → Option String
  | .text s => some s
  | _ => none

end Untyped

end BuildFleet
