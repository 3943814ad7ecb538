/-!
# Styled text

What people are shown is put together from pieces: plain text, text in a style, and icons. Pieces
become text in one place only, where it is decided whether the terminal takes colours and pictures;
without them a text is what its pieces say, one after the other.
-/

namespace BuildFleet

/-- A style of text. -/
inductive Style where
  | bold
  | dim
  | red
  | green
  | yellow
  | cyan
  deriving DecidableEq, Repr

/-- The number that switches a style on. -/
def Style.number : Style → String
  | bold => "1"
  | dim => "2"
  | red => "31"
  | green => "32"
  | yellow => "33"
  | cyan => "36"

/-- An icon. -/
inductive Icon where
  | info
  | warning
  | check
  | cross
  | rocket
  deriving DecidableEq, Repr

/-- An icon as a picture, with the blanks that make up for its width. -/
def Icon.picture : Icon → String
  | info => "ℹ️  "
  | warning => "⚠️  "
  | check => "✅ "
  | cross => "❌ "
  | rocket => "🚀 "

/-- An icon for terminals without pictures. -/
def Icon.sign : Icon → String
  | info => "i "
  | warning => "!"
  | check => "✓ "
  | cross => "✗ "
  | rocket => "> "

/-- A piece of styled text. -/
inductive Piece where
  | plain (text : String)
  | styled (style : Style) (text : String)
  | icon (icon : Icon)
  deriving DecidableEq, Repr

/-- Text in pieces. -/
abbrev StyledText := List Piece

/-- What a terminal takes. -/
structure Look where
  colors : Bool := false
  pictures : Bool := false
  deriving DecidableEq, Repr

/-- The sequence that switches a style on, or all styles off. -/
def styleSequence (number : String) : String := "\x1b[" ++ number ++ "m"

/-- A piece as text. -/
def Piece.render (look : Look) : Piece → String
  | plain text => text
  | styled style text =>
    if look.colors then styleSequence style.number ++ text ++ styleSequence "0" else text
  | icon i => if look.pictures then i.picture else i.sign

namespace StyledText

/-- A text in pieces as text. -/
def render (look : Look) (t : StyledText) : String :=
  String.join (t.map (Piece.render look))

/-- Lines with a line break between each two. -/
def ofLines : List StyledText → StyledText
  | [] => []
  | [line] => line
  | line :: lines => line ++ .plain "\n" :: ofLines lines

theorem render_append (look : Look) (t u : StyledText) :
    (t ++ u).render look = t.render look ++ u.render look := by
  rw [render, List.map_append, String.join_append, render, render]

theorem render_plain (look : Look) (s : String) (t : StyledText) :
    StyledText.render look (.plain s :: t) = s ++ t.render look := by
  rw [render, List.map_cons, String.join_cons, Piece.render, render]

theorem ofLines_cons (line : StyledText) {below : List StyledText} (h : below ≠ []) :
    ofLines (line :: below) = line ++ .plain "\n" :: ofLines below := by
  obtain ⟨next, lines, rfl⟩ := List.exists_cons_of_ne_nil h
  rfl

theorem ofLines_append {above below : List StyledText} (habove : above ≠ []) (hbelow : below ≠ []) :
    ofLines (above ++ below) = ofLines above ++ .plain "\n" :: ofLines below := by
  induction above with
  | nil => exact absurd rfl habove
  | cons line above ih =>
    by_cases hnil : above = []
    · rw [hnil, List.singleton_append, ofLines_cons line hbelow, ofLines]
    · rw [List.cons_append, ofLines_cons line (List.append_ne_nil_of_left_ne_nil hnil below),
        ih hnil, ofLines_cons line hnil, List.append_assoc, List.cons_append]

end StyledText

end BuildFleet
