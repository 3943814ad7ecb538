import BuildFleet.FileTree
import Mathlib.Data.List.Basic

/-!
# Segments of paths

The segments of a path can be joined with slashes again. What comes out is seldom the path, since
repeated slashes and single dots are left out, but it has the same segments, and in a tree of files
it leads wherever the path leads. There is one exception: the root is an empty segment, of which
nothing is left when there is no other one to be joined to it.

Pieces are what the arguments run over. A path has a first piece and others, and both its segments
and their joined text come from the first piece and from those of the others that are segments.

## Joined paths

Joining two paths is another thing than joining segments. It keeps what is written and decides only
whether there has to be a slash in between, but what it comes to is again best told in segments: an
absolute path replaces what is in front of it, and any other path adds its segments, of which a dot
in front is lost, since a dot stands for something only where a path begins.

## Main statements

* `areTidy_segments`: how segments are written;
* `segments_join`: which segments a joined path has;
* `segments_joined_iff`: joined segments have the segments that they were joined from, unless the
  path is the root;
* `walk_joined`: joined segments lead where the path leads, unless it is the root.
-/

namespace BuildFleet.Path

/-! ## Pieces -/

theorem pieces_slash (cs : List Char) : pieces ('/' :: cs) = [] :: pieces cs := rfl

theorem pieces_cons {c : Char} (hc : c ≠ '/') {cs first : List Char} {rest : List (List Char)}
    (h : pieces cs = first :: rest) : pieces (c :: cs) = (c :: first) :: rest := by
  rw [pieces, if_neg (by simpa using hc), h]

theorem exists_pieces (cs : List Char) : ∃ first rest, pieces cs = first :: rest := by
  induction cs with
  | nil => exact ⟨[], [], rfl⟩
  | cons c cs ih =>
    obtain ⟨first, rest, h⟩ := ih
    by_cases hc : c = '/'
    · rw [hc, pieces_slash]
      exact ⟨[], pieces cs, rfl⟩
    · exact ⟨c :: first, rest, pieces_cons hc h⟩

/-- The pieces of a text are what the library makes of splitting it at slashes. -/
theorem pieces_eq_splitOn (cs : List Char) : pieces cs = cs.splitOn '/' := by
  induction cs with
  | nil => rfl
  | cons c cs ih =>
    rw [List.splitOn_cons_eq_if_modifyHead, ← ih]
    by_cases hc : c = '/'
    · rw [hc, pieces_slash, if_pos (by rfl)]
    · obtain ⟨first, rest, h⟩ := exists_pieces cs
      rw [pieces_cons hc h, h, if_neg (by simpa using hc), List.modifyHead_cons]

theorem intercalate_pieces (cs : List Char) : ['/'].intercalate (pieces cs) = cs := by
  rw [pieces_eq_splitOn, List.intercalate_splitOn]

theorem pieces_intercalate {all : List (List Char)} (hslash : ∀ piece ∈ all, '/' ∉ piece)
    (hnil : all ≠ []) : pieces (['/'].intercalate all) = all := by
  rw [pieces_eq_splitOn, List.splitOn_intercalate '/' hslash hnil]

theorem not_mem_of_mem_pieces {cs piece : List Char} (h : piece ∈ pieces cs) : '/' ∉ piece := by
  induction cs generalizing piece with
  | nil =>
    rw [pieces, List.mem_singleton] at h
    rw [h]
    exact List.not_mem_nil
  | cons c cs ih =>
    by_cases hc : c = '/'
    · rw [hc, pieces_slash, List.mem_cons] at h
      rcases h with rfl | h
      · exact List.not_mem_nil
      · exact ih h
    · obtain ⟨first, rest, hcs⟩ := exists_pieces cs
      rw [hcs] at ih
      rw [pieces_cons hc hcs, List.mem_cons] at h
      rcases h with rfl | h
      · rw [List.mem_cons, not_or]
        exact ⟨Ne.symm hc, ih List.mem_cons_self⟩
      · exact ih (List.mem_cons_of_mem _ h)

theorem pieces_eq_nil_iff {path : String} : pieces path.toList = [[]] ↔ path = "" := by
  constructor
  · intro h
    rw [← String.toList_eq_nil_iff, ← intercalate_pieces path.toList, h]
    rfl
  · rintro rfl
    rfl

theorem isSegment_iff {piece : List Char} :
    isSegment piece = true ↔ piece ≠ [] ∧ piece ≠ ['.'] := by
  simp [isSegment]

/-! ## Segments -/

section

variable {path : String} {first : List Char} {rest : List (List Char)}

theorem isAbsolute_iff (h : pieces path.toList = first :: rest) :
    isAbsolute path = true ↔ first = [] ∧ path ≠ "" := by
  rw [isAbsolute, Ne, ← String.toList_eq_nil_iff]
  cases hcs : path.toList with
  | nil => simp
  | cons c cs =>
    rw [hcs] at h
    by_cases hc : c = '/'
    · rw [hc, pieces_slash] at h
      simp [hc, (List.cons.inj h).1.symm]
    · obtain ⟨first', rest', hcs'⟩ := exists_pieces cs
      rw [pieces_cons hc hcs'] at h
      simp [hc, (List.cons.inj h).1.symm]

/-- The first piece is always a segment, unless the path is empty. -/
theorem segments_of_pieces (h : pieces path.toList = first :: rest) (hpath : path ≠ "") :
    segments path = (first :: rest.filter isSegment).map String.ofList := by
  have hsingle : ¬ (first = [] ∧ rest = []) := by
    rintro ⟨rfl, rfl⟩
    exact hpath (pieces_eq_nil_iff.mp h)
  rw [segments, h]
  cases first with
  | nil =>
    cases rest with
    | nil => exact absurd ⟨rfl, rfl⟩ hsingle
    | cons piece rest => rfl
  | cons c cs => rfl

/-- How the segments of a path are written; `absolute` says whether the path starts at the root. -/
structure AreTidy (absolute : Bool) (segments : List String) : Prop where
  /-- No segment can be split any further. -/
  slash : ∀ s ∈ segments, '/' ∉ s.toList
  /-- An empty segment in front stands for the root. -/
  root : segments.head? = some "" ↔ absolute = true
  /-- A dot in front is there only if the path does not start at the root. -/
  dot : segments.head? = some "." → absolute = false
  /-- Behind the first one, no segment is empty or a dot. -/
  inner : ∀ s ∈ segments.tail, s ≠ "" ∧ s ≠ "."

theorem areTidy_segments (path : String) : AreTidy (isAbsolute path) (segments path) := by
  by_cases hpath : path = ""
  · rw [hpath]
    constructor <;> decide
  obtain ⟨first, rest, h⟩ := exists_pieces path.toList
  have hempty : String.ofList first = "" ↔ isAbsolute path = true := by
    rw [isAbsolute_iff h, String.ofList_eq_empty_iff]
    exact ⟨fun hfirst ↦ ⟨hfirst, hpath⟩, And.left⟩
  rw [segments_of_pieces h hpath]
  constructor
  case slash =>
    intro s hs
    obtain ⟨piece, hpiece, rfl⟩ := List.mem_map.mp hs
    have hsub : first :: rest.filter isSegment ⊆ pieces path.toList := by
      rw [h]
      exact List.cons_subset_cons _ (List.filter_subset_self _)
    rw [String.toList_ofList]
    exact not_mem_of_mem_pieces (hsub hpiece)
  case root =>
    rw [List.map_cons, List.head?_cons, Option.some_inj, hempty]
  case dot =>
    rw [List.map_cons, List.head?_cons, Option.some_inj]
    intro hdot
    rw [← Bool.not_eq_true, ← hempty, hdot]
    decide
  case inner =>
    intro s hs
    obtain ⟨piece, hpiece, rfl⟩ := List.mem_map.mp hs
    have hsegment := isSegment_iff.mp (List.mem_filter.mp hpiece).2
    constructor
    · exact mt String.ofList_eq_empty_iff.mp hsegment.1
    · intro hdot
      apply hsegment.2
      rw [← String.toList_ofList (l := piece), hdot]
      rfl

/-! ## Joined paths -/

theorem join_of_isAbsolute {segment : String} (h : isAbsolute segment = true) (path : String) :
    join path segment = segment := by
  rw [join, if_pos h]

theorem join_empty (segment : String) : join "" segment = segment := by
  rw [join]
  split
  · rfl
  · rw [if_pos (by rfl), String.empty_append]

theorem join_ne_empty {path : String} (hpath : path ≠ "") (segment : String) :
    join path segment ≠ "" := by
  rw [join]
  split
  · rename_i habsolute
    rintro rfl
    exact absurd habsolute (by decide)
  · split <;> simp [hpath]

theorem pieces_append_slash (cs ds : List Char) :
    pieces (cs ++ '/' :: ds) = pieces cs ++ pieces ds := by
  induction cs with
  | nil => rfl
  | cons c cs ih =>
    by_cases hc : c = '/'
    · rw [hc, List.cons_append, pieces_slash, pieces_slash, ih, List.cons_append]
    · obtain ⟨first, rest, h⟩ := exists_pieces cs
      rw [h] at ih
      rw [List.cons_append, pieces_cons hc ih, pieces_cons hc h]
      rfl

/-- A path that is not absolute adds its pieces; a slash at the end of the path before it is the
one that stands between them. -/
theorem exists_pieces_join {segment : String} (h : pieces path.toList = first :: rest)
    (hpath : path ≠ "") (hsegment : isAbsolute segment = false) :
    ∃ kept, pieces (join path segment).toList = first :: (kept ++ pieces segment.toList) ∧
      kept.filter isSegment = rest.filter isSegment := by
  rw [join, if_neg (by rw [hsegment]; exact Bool.false_ne_true)]
  split
  · rename_i hends
    have hslash : path.toList.getLast? = some '/' := by
      simpa [String.isEmpty_iff, hpath] using hends
    obtain ⟨cs, hcs⟩ := List.getLast?_eq_some_iff.mp hslash
    obtain ⟨first', rest', hpieces⟩ := exists_pieces cs
    rw [hcs, pieces_append_slash, hpieces] at h
    obtain ⟨rfl, rfl⟩ := List.cons.inj h
    refine ⟨rest', ?_, ?_⟩
    · rw [String.toList_append, hcs, List.append_assoc, List.cons_append, List.nil_append,
        pieces_append_slash, hpieces, List.cons_append]
    · -- behind the slash at the end there is an empty piece
      exact ((List.filter_append ..).trans (List.append_nil _)).symm
  · refine ⟨rest, ?_, rfl⟩
    rw [String.toList_append, String.toList_append, List.append_assoc, ← List.cons_append, ← h]
    exact pieces_append_slash _ _

theorem filter_segments {segment : String} (hsegment : isAbsolute segment = false) :
    (segments segment).filter (· ≠ ".") =
      ((pieces segment.toList).filter isSegment).map String.ofList := by
  by_cases hempty : segment = ""
  · rw [hempty]
    rfl
  obtain ⟨first, rest, h⟩ := exists_pieces segment.toList
  have hkept : ∀ piece ∈ first :: rest.filter isSegment, piece ≠ [] := by
    rw [List.forall_mem_cons]
    constructor
    · intro hfirst
      rw [(isAbsolute_iff h).mpr ⟨hfirst, hempty⟩] at hsegment
      cases hsegment
    · exact fun piece hpiece ↦ (isSegment_iff.mp (List.mem_filter.mp hpiece).2).1
  have hdot : ∀ piece ∈ first :: rest.filter isSegment,
      decide (String.ofList piece ≠ ".") = isSegment piece := by
    intro piece hpiece
    rw [Bool.eq_iff_iff, isSegment_iff, decide_eq_true_iff, ← String.toList_inj.ne,
      String.toList_ofList]
    exact (and_iff_right (hkept piece hpiece)).symm
  rw [segments_of_pieces h hempty, h, List.filter_map, Function.comp_def,
    List.filter_congr hdot, List.filter_cons, List.filter_filter, List.filter_cons]
  simp only [Bool.and_self]

/-- A path that is joined to another one adds its segments. A dot in front of them is left out. -/
theorem segments_join {segment : String} (hpath : path ≠ "")
    (hsegment : isAbsolute segment = false) :
    segments (join path segment) = segments path ++ (segments segment).filter (· ≠ ".") := by
  obtain ⟨first, rest, h⟩ := exists_pieces path.toList
  obtain ⟨kept, hjoin, hkept⟩ := exists_pieces_join h hpath hsegment
  rw [segments_of_pieces hjoin (join_ne_empty hpath segment), segments_of_pieces h hpath,
    filter_segments hsegment, List.filter_append, hkept, ← List.cons_append, List.map_append]

/-! ## Segments joined again -/

/-- A path that leads to the root and no further: no directory is entered on it. -/
structure IsRoot (path : String) : Prop where
  absolute : isAbsolute path = true
  bare : ∀ piece ∈ pieces path.toList, isSegment piece = false

theorem IsRoot.ne_empty (h : IsRoot path) : path ≠ "" := by
  rintro rfl
  exact absurd h.absolute (by decide)

theorem isRoot_iff (h : pieces path.toList = first :: rest) (hpath : path ≠ "") :
    IsRoot path ↔ first :: rest.filter isSegment = [[]] := by
  rw [List.cons.injEq, List.filter_eq_nil_iff]
  constructor
  · rintro ⟨habsolute, hbare⟩
    refine ⟨((isAbsolute_iff h).mp habsolute).1, fun piece hpiece ↦ ?_⟩
    rw [hbare piece (h ▸ List.mem_cons_of_mem _ hpiece)]
    exact Bool.false_ne_true
  · rintro ⟨rfl, hrest⟩
    refine ⟨(isAbsolute_iff h).mpr ⟨rfl, hpath⟩, fun piece hpiece ↦ ?_⟩
    rw [h, List.mem_cons] at hpiece
    rcases hpiece with rfl | hpiece
    · rfl
    · exact Bool.eq_false_iff.mpr (hrest piece hpiece)

theorem pieces_joined (h : pieces path.toList = first :: rest) (hpath : path ≠ "") :
    pieces ("/".intercalate (segments path)).toList = first :: rest.filter isSegment := by
  have htexts : (segments path).map String.toList = first :: rest.filter isSegment := by
    rw [segments_of_pieces h hpath, List.map_map]
    simp
  have hslash : ∀ piece ∈ first :: rest.filter isSegment, '/' ∉ piece := by
    rw [← htexts]
    intro piece hpiece
    obtain ⟨s, hs, rfl⟩ := List.mem_map.mp hpiece
    exact (areTidy_segments path).slash s hs
  rw [String.toList_intercalate, htexts]
  exact pieces_intercalate hslash (List.cons_ne_nil _ _)

theorem joined_eq_empty_iff (hpath : path ≠ "") :
    "/".intercalate (segments path) = "" ↔ IsRoot path := by
  obtain ⟨first, rest, h⟩ := exists_pieces path.toList
  rw [← pieces_eq_nil_iff, pieces_joined h hpath, isRoot_iff h hpath]

theorem segments_joined_iff :
    segments ("/".intercalate (segments path)) = segments path ↔ ¬ IsRoot path := by
  by_cases hpath : path = ""
  · rw [hpath]
    exact iff_of_true rfl fun hroot ↦ hroot.ne_empty rfl
  obtain ⟨first, rest, h⟩ := exists_pieces path.toList
  by_cases hroot : IsRoot path
  · rw [(joined_eq_empty_iff hpath).mpr hroot, segments_of_pieces h hpath]
    exact iff_of_false (List.cons_ne_nil _ _).symm (not_not_intro hroot)
  · have hjoined : "/".intercalate (segments path) ≠ "" := mt (joined_eq_empty_iff hpath).mp hroot
    have hkept : (rest.filter isSegment).filter isSegment = rest.filter isSegment := by
      simp only [List.filter_filter, Bool.and_self]
    refine iff_of_true ?_ hroot
    rw [segments_of_pieces (pieces_joined h hpath) hjoined, segments_of_pieces h hpath, hkept]

/-! ### Nothing is added -/

theorem slash_intercalate {all : List (List Char)} (h : all ≠ []) :
    '/' :: ['/'].intercalate all = all.flatMap ('/' :: ·) := by
  induction all with
  | nil => exact absurd rfl h
  | cons piece all ih =>
    by_cases hall : all = []
    · rw [hall, List.intercalate_singleton, List.flatMap_singleton]
    · rw [List.intercalate_cons_of_ne_nil hall, List.flatMap_cons, ← ih hall, List.append_assoc]
      rfl

theorem flatMap_slash_sublist {some all : List (List Char)} (h : some.Sublist all) :
    (some.flatMap ('/' :: ·)).Sublist (all.flatMap ('/' :: ·)) := by
  induction h with
  | slnil => exact .slnil
  | cons piece _ ih =>
    rw [List.flatMap_cons]
    exact ih.trans (List.sublist_append_right _ _)
  | cons_cons piece _ ih =>
    rw [List.flatMap_cons, List.flatMap_cons]
    exact ih.append_left _

/-- The joined segments of a path are the path with some characters left out. -/
theorem joined_sublist (path : String) :
    ("/".intercalate (segments path)).toList.Sublist path.toList := by
  by_cases hpath : path = ""
  · rw [hpath]
    exact .slnil
  obtain ⟨first, rest, h⟩ := exists_pieces path.toList
  have hsub : (first :: rest.filter isSegment).Sublist (first :: rest) :=
    List.filter_sublist.cons_cons first
  rw [← intercalate_pieces ("/".intercalate (segments path)).toList, pieces_joined h hpath,
    ← intercalate_pieces path.toList, h, ← List.cons_sublist_cons (a := '/'),
    slash_intercalate (List.cons_ne_nil _ _), slash_intercalate (List.cons_ne_nil _ _)]
  exact flatMap_slash_sublist hsub

end

end BuildFleet.Path

namespace BuildFleet

/-! ## Walks

A walk may fail at any of its steps, and it fails as well if the path is too long or holds a zero
character. Joined segments are the path with some characters left out, so they are no longer than
the path and hold no other characters. What is left to compare are the steps. They are the pieces of
the two paths, and those that are left out, empty ones and dots, lead from a directory to itself. -/

namespace Text

theorem utf8ByteSize_ofList_cons (c : Char) (cs : List Char) :
    (String.ofList (c :: cs)).utf8ByteSize =
      c.utf8Size + (String.ofList cs).utf8ByteSize := by
  have hcons : String.ofList (c :: cs) = String.singleton c ++ String.ofList cs := by
    rw [← String.toList_inj]
    simp
  rw [hcons, String.utf8ByteSize_append, String.utf8ByteSize_singleton]

theorem utf8ByteSize_le_of_sublist {cs ds : List Char} (h : cs.Sublist ds) :
    (String.ofList cs).utf8ByteSize ≤ (String.ofList ds).utf8ByteSize := by
  induction h with
  | slnil => exact Nat.le_refl _
  | cons c _ ih =>
    rw [utf8ByteSize_ofList_cons c]
    exact Nat.le_trans ih (Nat.le_add_left _ _)
  | cons_cons c _ ih =>
    rw [utf8ByteSize_ofList_cons c, utf8ByteSize_ofList_cons c]
    exact Nat.add_le_add_left ih _

end Text

namespace FileTree

variable {t : FileTree} {current place : List String} {path : String}

theorem walk_eq_ok_iff : t.walk current path = .ok place ↔
    '\x00' ∉ path.toList ∧ path ≠ "" ∧ path.utf8ByteSize < pathLimit ∧
      ((Path.pieces path.toList).map String.ofList).foldlM t.enter
        (if Path.isAbsolute path then [] else current) = .ok place := by
  rw [walk]
  by_cases hnul : '\x00' ∈ path.toList
  · simp [hnul]
  · by_cases hpath : path = ""
    · simp [hpath]
    · by_cases hsize : pathLimit ≤ path.utf8ByteSize
      · simp [hnul, hpath, hsize, Nat.not_lt_of_le hsize]
      · simp [hnul, hpath, hsize, Nat.lt_of_not_le hsize]

theorem eq_of_enter {piece : List Char} (hpiece : Path.isSegment piece = false)
    {next : List String} (h : t.enter place (String.ofList piece) = .ok next) : next = place := by
  have hstay : ((String.ofList piece).isEmpty || String.ofList piece == ".") = true := by
    rw [← Bool.not_eq_true, Path.isSegment_iff, not_and_or, not_not, not_not] at hpiece
    rcases hpiece with rfl | rfl
    · rfl
    · rfl
  rw [enter] at h
  split at h
  · rw [if_pos hstay] at h
    exact (Except.ok.inj h).symm
  · cases h
  · cases h

theorem foldlM_enter_cons {segment : String} {segments start : List String} :
    (segment :: segments).foldlM t.enter start = .ok place ↔
      ∃ next, t.enter start segment = .ok next ∧ segments.foldlM t.enter next = .ok place := by
  rw [List.foldlM_cons]
  cases t.enter start segment with
  | error e => simp [bind, Except.bind]
  | ok next => simp [bind, Except.bind]

theorem foldlM_enter_filter {pieces : List (List Char)} {start : List String}
    (h : (pieces.map String.ofList).foldlM t.enter start = .ok place) :
    ((pieces.filter Path.isSegment).map String.ofList).foldlM t.enter start = .ok place := by
  induction pieces generalizing start with
  | nil => exact h
  | cons piece pieces ih =>
    obtain ⟨next, hnext, hpieces⟩ := foldlM_enter_cons.mp h
    by_cases hpiece : Path.isSegment piece = true
    · rw [List.filter_cons_of_pos hpiece]
      exact foldlM_enter_cons.mpr ⟨next, hnext, ih hpieces⟩
    · rw [List.filter_cons_of_neg hpiece]
      rw [eq_of_enter (Bool.eq_false_iff.mpr hpiece) hnext] at hpieces
      exact ih hpieces

theorem walk_joined (h : t.walk current path = .ok place) (hroot : ¬ Path.IsRoot path) :
    t.walk current ("/".intercalate (Path.segments path)) = .ok place := by
  obtain ⟨hnul, hpath, hsize, hwalk⟩ := walk_eq_ok_iff.mp h
  have hsublist := Path.joined_sublist path
  have hjoined := mt (Path.joined_eq_empty_iff hpath).mp hroot
  obtain ⟨first, rest, hpieces⟩ := Path.exists_pieces path.toList
  have hkept := Path.pieces_joined hpieces hpath
  have habsolute : Path.isAbsolute ("/".intercalate (Path.segments path)) =
      Path.isAbsolute path := by
    rw [Bool.eq_iff_iff, Path.isAbsolute_iff hkept, Path.isAbsolute_iff hpieces]
    exact ⟨fun hfirst ↦ ⟨hfirst.1, hpath⟩, fun hfirst ↦ ⟨hfirst.1, hjoined⟩⟩
  rw [walk_eq_ok_iff]
  refine ⟨fun hmem ↦ hnul (hsublist.subset hmem), hjoined, ?_, ?_⟩
  · have hshorter := Text.utf8ByteSize_le_of_sublist hsublist
    rw [String.ofList_toList, String.ofList_toList] at hshorter
    exact Nat.lt_of_le_of_lt hshorter hsize
  · -- both walks take the same first step, whatever the first piece is
    rw [hpieces, List.map_cons, foldlM_enter_cons] at hwalk
    rw [hkept, habsolute, List.map_cons, foldlM_enter_cons]
    obtain ⟨next, hnext, hrest⟩ := hwalk
    exact ⟨next, hnext, foldlM_enter_filter hrest⟩

end FileTree

end BuildFleet
