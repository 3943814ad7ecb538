/-!
# Paths

A path is a text with slashes between its segments. Joining keeps what is written: it adds a slash
where one is missing and puts an absolute path in the place of what came before. The segments of a
path are what it means: repeated slashes, one at the end, and single dots inside of it say nothing.
-/

namespace BuildFleet.Path

/-- Whether a path starts at the root. -/
def isAbsolute (path : String) : Bool :=
  path.toList.head? == some '/'

/-- A path with a segment or another path after it. -/
def join (path segment : String) : String :=
  if isAbsolute segment then segment
  else if path.isEmpty || path.toList.getLast? == some '/' then path ++ segment
  else path ++ "/" ++ segment

/-- The path of several segments. -/
def ofSegments (segments : List String) : String :=
  segments.foldl join ""

/-- The pieces of a text between slashes, of which there is always one more than slashes. -/
def pieces : List Char → List (List Char)
  | [] => [[]]
  | c :: cs =>
    if c == '/' then [] :: pieces cs
    else
      match pieces cs with
      | [] => [[c]]
      | piece :: rest => (c :: piece) :: rest

/-- Whether a piece is a segment wherever it stands. -/
def isSegment (piece : List Char) : Bool :=
  !piece.isEmpty && piece != ['.']

/-- The segments of a path. The root is an empty segment, and a dot is one only at the start. -/
def segments (path : String) : List String :=
  let all := pieces path.toList
  let kept := (all.drop 1).filter isSegment
  let first := match all.head? with
    | some [] => if all.length == 1 then [] else [[]]
    | some piece => [piece]
    | none => []
  (first ++ kept).map String.ofList

end BuildFleet.Path
