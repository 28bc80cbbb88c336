import ConfigTree.Proofs.Document.Replay
import ConfigTree.Proofs.Document.Written

/-!
The outline of the document that a tree is written as. Its headers are the paths of the sections of
the tree, and under each of them stand the leaves of that section with their texts.

Main statement: `Section.records_octets`.
-/

namespace ConfigTree

def Leaf.Legible (item : Leaf) : Prop :=
  isKey item.name = true ∧ '\n' ∉ item.text.toList ∧ '\x00' ∉ item.text.toList

namespace Section

def leafNotes (path : String) : Section → List Note
  | empty => []
  | leaf item rest => ⟨path, item.name, item.bareText⟩ :: rest.leafNotes path
  | branch _ _ _ rest => rest.leafNotes path

def branchNotes (path : List Char) : Section → List Note
  | empty => []
  | leaf _ rest => rest.branchNotes path
  | branch name _ child rest =>
    let inner := joinPath path name.toList
    child.leafNotes (String.ofList inner) ++ child.branchNotes inner ++ rest.branchNotes path

def sectionPaths (path : List Char) : Section → List String
  | empty => []
  | leaf _ rest => rest.sectionPaths path
  | branch name _ child rest =>
    let inner := joinPath path name.toList
    String.ofList inner :: (child.sectionPaths inner ++ rest.sectionPaths path)

/-- Every line of a section with a path reads back: the lines of its leaves, and the headers and the
lines of all sections below it. -/
def Readable (path : List Char) : Section → Prop
  | empty => True
  | leaf item rest => item.Legible ∧ rest.Readable path
  | branch name _ child rest =>
    let inner := joinPath path name.toList
    isWord isPathChar inner = true ∧ child.Readable inner ∧ rest.Readable path

/-- A tree whose document can be read back: the names are spelled as documents spell them, and the
text of a leaf stays in its line. -/
structure Legible (root : Section) : Prop where
  named : root.Named (isKey ·) (isSectionName ·)
  rooted : ∀ entry ∈ root.toList, entry.isBranch = true →
    entry.name.toList.head?.any Char.isAlpha = true
  oneLine : ∀ item ∈ root.leaves, '\n' ∉ item.text.toList ∧ '\x00' ∉ item.text.toList

theorem isSegment_of_isKey (name : String) (key : isKey name = true) : IsSegment name := by
  constructor
  · rintro rfl
    cases key
  · exact Document.not_mem_of_isWord key (by decide) (by decide)

theorem isSegment_of_isSectionName (name : String) (segment : isSectionName name = true) :
    IsSegment name := by
  rw [isSectionName, Bool.and_eq_true, List.all_eq_true] at segment
  constructor
  · exact bne_iff_ne.mp segment.1
  · intro member
    exact absurd (segment.2 separator member) (by decide)

theorem Legible.segments {root : Section} (legible : root.Legible) :
    root.Named IsSegment IsSegment :=
  legible.named.imp isSegment_of_isKey isSegment_of_isSectionName

theorem isPathChar_of_isSectionChar {c : Char} (allowed : isSectionChar c = true) :
    isPathChar c = true := by
  rw [isPathChar, allowed]
  rfl

theorem isWord_joinPath {path : List Char} {name : String}
    (spelled : isWord isPathChar path = true) (segment : isSectionName name = true) :
    isWord isPathChar (joinPath path name.toList) = true := by
  cases path with
  | nil => cases spelled
  | cons first tail =>
    rw [isWord, Bool.and_eq_true, List.all_eq_true] at spelled
    rw [isSectionName, Bool.and_eq_true, List.all_eq_true] at segment
    rw [joinPath, if_neg (List.cons_ne_nil first tail), List.cons_append, isWord, Bool.and_eq_true,
      List.all_eq_true]
    refine ⟨spelled.1, ?_⟩
    intro c member
    rcases List.mem_append.mp member with before | after
    · exact spelled.2 c before
    rcases List.mem_cons.mp after with rfl | inside
    · rfl
    · exact isPathChar_of_isSectionChar (segment.2 c inside)

theorem isWord_of_isSectionName {name : String} (segment : isSectionName name = true)
    (begins : name.toList.head?.any Char.isAlpha = true) :
    isWord isPathChar name.toList = true := by
  rw [isSectionName, Bool.and_eq_true, List.all_eq_true] at segment
  cases spelled : name.toList with
  | nil => rw [spelled] at begins; cases begins
  | cons first tail =>
    rw [spelled] at begins segment
    rw [isWord, Bool.and_eq_true, List.all_eq_true]
    refine ⟨begins, ?_⟩
    intro c member
    exact isPathChar_of_isSectionChar (segment.2 c (List.mem_cons_of_mem first member))

theorem readable_of_named {level : Section} {path : List Char}
    (named : level.Named (isKey ·) (isSectionName ·))
    (opens : ∀ entry ∈ level.toList, entry.isBranch = true →
      isWord isPathChar (joinPath path entry.name.toList) = true)
    (oneLine : ∀ item ∈ level.leaves, '\n' ∉ item.text.toList ∧ '\x00' ∉ item.text.toList) :
    level.Readable path := by
  induction level generalizing path with
  | empty => trivial
  | leaf item rest ih =>
    refine ⟨⟨named.1, oneLine item List.mem_cons_self⟩, ih named.2 ?_ ?_⟩
    · intro entry later
      exact opens entry (List.mem_cons_of_mem _ later)
    · intro other later
      exact oneLine other (List.mem_cons_of_mem _ later)
  | branch name maxLength child rest ihChild ihRest =>
    have spelled := opens _ List.mem_cons_self rfl
    refine ⟨spelled, ihChild named.2.1 ?_ ?_, ihRest named.2.2 ?_ ?_⟩
    · intro entry below isBranch
      exact isWord_joinPath spelled (name_of_mem_toList named.2.1 below isBranch)
    · intro other below
      exact oneLine other (List.mem_append_left _ below)
    · intro entry later
      exact opens entry (List.mem_cons_of_mem _ later)
    · intro other later
      exact oneLine other (List.mem_append_right _ later)

theorem Legible.readable {root : Section} (legible : root.Legible) : root.Readable [] := by
  refine readable_of_named legible.named ?_ legible.oneLine
  intro entry member isBranch
  have segment := name_of_mem_toList legible.named member isBranch
  exact isWord_of_isSectionName segment (legible.rooted entry member isBranch)

end Section

namespace Document

variable {number : Nat} {first next last : Progress Outline} {pieces more : List (List Char)}
  {paths below : List String} {notes later : List Note}

/-- The recorder goes from one point to another over some lines, and adds headers and assignments to
its outline. -/
structure Records (pieces : List (List Char)) (number : Nat) (first next : Progress Outline)
    (paths : List String) (notes : List Note) : Prop where
  read : Outline.recorder.readLines number first (pieces.map Text.Utf8.encode) = (next, none)
  taken : next.skipping = false
  headers : next.state.headers.map Header.path = first.state.headers.map Header.path ++ paths
  noted : next.state.notes = first.state.notes ++ notes

theorem Records.refl (taken : first.skipping = false) : Records [] number first first [] [] :=
  ⟨rfl, taken, (List.append_nil _).symm, (List.append_nil _).symm⟩

theorem Records.append (earlier : Records pieces number first next paths notes)
    (rest : Records more (number + pieces.length) next last below later) :
    Records (pieces ++ more) number first last (paths ++ below) (notes ++ later) where
  read := by
    rw [List.map_append, Consumer.readLines_append earlier.read, List.length_map]
    exact rest.read
  taken := rest.taken
  headers := by rw [rest.headers, earlier.headers, List.append_assoc]
  noted := by rw [rest.noted, earlier.noted, List.append_assoc]

theorem records_nothing (number : Nat) (taken : first.skipping = false) :
    Records [[]] number first first [] [] := by
  refine ⟨?_, taken, (List.append_nil _).symm, (List.append_nil _).symm⟩
  rw [List.map_singleton, Consumer.readLines, taken]
  rfl

theorem records_header {path : List Char} (spelled : isWord isPathChar path = true)
    (number : Nat) (taken : first.skipping = false) :
    ∃ next, Records [headerLine path] number first next [String.ofList path] [] ∧
      next.state.current = String.ofList path := by
  refine ⟨Outline.recorder.accept number first (.header (String.ofList path)),
    ⟨?_, rfl, List.map_append, (List.append_nil _).symm⟩, rfl⟩
  rw [List.map_singleton, Consumer.readLines, taken, readLine_headerLine spelled]
  rfl

theorem records_assignmentLine {name : String} {text : List Char} (key : isKey name = true)
    (clean : '\n' ∉ text) (number : Nat) (taken : first.skipping = false) :
    ∃ next, Records [assignmentLine name.toList text] number first next []
        [⟨first.state.current, name, String.ofList (text.dropWhile isLineSpace)⟩] ∧
      next.state.current = first.state.current := by
  refine ⟨Outline.recorder.accept number first
    (.assignment name (String.ofList (text.dropWhile isLineSpace))),
    ⟨?_, taken, (List.append_nil _).symm, Outline.notes_addAssignment _ _ _ _⟩, rfl⟩
  rw [List.map_singleton, Consumer.readLines, taken, readLine_assignmentLine key clean]
  rfl

theorem records_leafLines {level : Section} {path : List Char} (readable : level.Readable path)
    (number : Nat) (taken : first.skipping = false) :
    ∃ next, Records level.leafLines number first next [] (level.leafNotes first.state.current) ∧
      next.state.current = first.state.current := by
  induction level generalizing number first with
  | empty => exact ⟨first, Records.refl taken, rfl⟩
  | leaf item rest ih =>
    obtain ⟨next, line, same⟩ :=
      records_assignmentLine readable.1.1 readable.1.2.1 number taken
    obtain ⟨last, below, still⟩ := ih readable.2 (number + 1) line.taken
    rw [same] at below still
    exact ⟨last, line.append below, still⟩
  | branch name maxLength child rest _ ih => exact ih readable.2.2 number taken

theorem records_branchLines {level : Section} {path : List Char} (readable : level.Readable path)
    (number : Nat) (taken : first.skipping = false) :
    ∃ next, Records (level.branchLines path) number first next (level.sectionPaths path)
      (level.branchNotes path) := by
  induction level generalizing path number first with
  | empty => exact ⟨first, Records.refl taken⟩
  | leaf item rest ih => exact ih readable.2 number taken
  | branch name maxLength child rest ihChild ihRest =>
    obtain ⟨spelled, inside, outside⟩ := readable
    -- an empty line, the header, the leaves of the child, what lies below it, and what follows it
    have gap := records_nothing number taken
    obtain ⟨opened, header, current⟩ := records_header spelled (number + 1) taken
    obtain ⟨filled, own, _⟩ := records_leafLines inside (number + 2) header.taken
    rw [current] at own
    obtain ⟨nested, below⟩ := ihChild inside (number + 2 + child.leafLines.length) own.taken
    obtain ⟨last, others⟩ := ihRest outside
      (number + 2 + (child.leafLines ++ child.branchLines _).length) below.taken
    exact ⟨last, (gap.append header).append ((own.append below).append others)⟩

end Document

namespace Section
open Document

theorem clean_leafLines {level : Section} {path : List Char} (readable : level.Readable path) :
    ∀ line ∈ level.leafLines, '\n' ∉ line ∧ '\x00' ∉ line := by
  intro line member
  induction level with
  | empty => cases member
  | leaf item rest ih =>
    rcases List.mem_cons.mp member with rfl | later
    · obtain ⟨key, feed, nul⟩ := readable.1
      exact ⟨clean_assignmentLine key (by decide) (by decide) (by decide) feed,
        clean_assignmentLine key (by decide) (by decide) (by decide) nul⟩
    · exact ih readable.2 later
  | branch name maxLength child rest _ ih => exact ih readable.2.2 member

theorem clean_branchLines {level : Section} {path : List Char} (readable : level.Readable path) :
    ∀ line ∈ level.branchLines path, '\n' ∉ line ∧ '\x00' ∉ line := by
  intro line member
  induction level generalizing path with
  | empty => cases member
  | leaf item rest ih => exact ih readable.2 member
  | branch name maxLength child rest ihChild ihRest =>
    obtain ⟨spelled, inside, outside⟩ := readable
    simp only [branchLines, List.mem_cons, List.mem_append] at member
    rcases member with rfl | rfl | (own | nested) | later
    · exact ⟨List.not_mem_nil, List.not_mem_nil⟩
    · exact ⟨clean_headerLine spelled (by decide) (by decide) (by decide),
        clean_headerLine spelled (by decide) (by decide) (by decide)⟩
    · exact clean_leafLines inside line own
    · exact ihChild inside nested
    · exact ihRest outside later

theorem lines_octets {root : Section} (readable : root.Readable []) :
    Document.lines root.octets = (root.lines ++ [[]]).map Text.Utf8.encode := by
  have clean : ∀ line ∈ root.lines, '\n' ∉ line ∧ '\x00' ∉ line := by
    intro line member
    rcases List.mem_append.mp member with own | below
    · exact clean_leafLines readable line own
    · exact clean_branchLines readable line below
  rw [octets_eq, lineOctets, Document.lines_encode clean]

/-- The document of a tree has an outline: the paths of all sections in order, and in each section
its own leaves in order. -/
theorem records_octets {root : Section} (legible : root.Legible) :
    ∃ after, Outline.recorder.readLines 1 { state := {} } (Document.lines root.octets) =
        (after, none) ∧
      after.state.headers.map Header.path = root.sectionPaths [] ∧
      after.state.notes = root.leafNotes "" ++ root.branchNotes [] := by
  have readable := legible.readable
  have start : ({ state := {} } : Progress Outline).skipping = false := rfl
  obtain ⟨filled, own, _⟩ := records_leafLines readable 1 start
  obtain ⟨nested, below⟩ := records_branchLines readable (1 + root.leafLines.length) own.taken
  have whole := (own.append below).append (records_nothing _ below.taken)
  refine ⟨nested, ?_, ?_, ?_⟩
  · rw [lines_octets readable]
    exact whole.read
  · have paths := whole.headers
    rw [List.append_nil] at paths
    exact paths
  · have notes := whole.noted
    rw [List.append_nil] at notes
    exact notes

end Section

end ConfigTree
