import ConfigTree.Proofs.Document.Recorded
import ConfigTree.Proofs.Tree.Writing

/-!
The outline of the document that a tree is written as, beside the tree. The sections of a tree are
listed depth first, each with the names on the way to it. The headers of the document are these ways
in order, and under each of them stand the leaves that the section itself has.

Main statement: `Section.outline_octets`.
-/

namespace ConfigTree

/-- A section of a tree, and the names of the branches that lead to it from the root. -/
structure Located where
  names : List String
  level : Section

namespace Section

def ownLeaves (level : Section) : List Leaf :=
  level.toList.filterMap fun
    | .leaf item => some item
    | .branch _ _ _ => none

/-- The sections below a section in the order of their declaration, each of them before the sections
below it. -/
def descendants : Section → List Located
  | empty => []
  | leaf _ rest => rest.descendants
  | branch name _ child rest =>
    ⟨[name], child⟩ ::
      (child.descendants.map (fun inner => ⟨name :: inner.names, inner.level⟩) ++
        rest.descendants)

def sections (root : Section) : List Located :=
  ⟨[], root⟩ :: root.descendants

end Section

namespace Located

def path (located : Located) : String :=
  "/".intercalate located.names

def notes (located : Located) : List Note :=
  located.level.ownLeaves.map fun item => ⟨located.path, item.name, item.bareText⟩

end Located

theorem intercalate_ne_empty {names : List String} (nonempty : names ≠ [])
    (filled : ∀ name ∈ names, name ≠ "") : "/".intercalate names ≠ "" := by
  cases names with
  | nil => exact absurd rfl nonempty
  | cons name rest =>
    have first := filled name List.mem_cons_self
    cases rest with
    | nil => rwa [String.intercalate_singleton]
    | cons next more => simp [String.intercalate_cons_cons]

theorem joinPath_intercalate {names : List String} (filled : ∀ name ∈ names, name ≠ "")
    (name : String) :
    joinPath ("/".intercalate names).toList name.toList =
      ("/".intercalate (names ++ [name])).toList := by
  by_cases atRoot : names = []
  · subst atRoot
    rw [String.intercalate_nil, List.nil_append, String.intercalate_singleton]
    exact if_pos rfl
  · have below : ("/".intercalate names).toList ≠ [] :=
      mt String.toList_eq_nil_iff.mp (intercalate_ne_empty atRoot filled)
    rw [joinPath, if_neg below, String.intercalate_append_of_ne_nil atRoot (List.cons_ne_nil _ _),
      String.intercalate_singleton, String.toList_append, String.toList_append, List.append_assoc]
    rfl

namespace Section

theorem leafNotes_eq (level : Section) (path : String) :
    level.leafNotes path = level.ownLeaves.map fun item => ⟨path, item.name, item.bareText⟩ := by
  induction level with
  | empty => rfl
  | leaf item rest ih => exact congrArg (_ :: ·) ih
  | branch name maxLength child rest _ ih => exact ih

section
variable {level : Section} {names : List String}

theorem filled_concat (filled : ∀ name ∈ names, name ≠ "") {name : String}
    (segment : IsSegment name) : ∀ other ∈ names ++ [name], other ≠ "" := by
  intro other member
  rcases List.mem_append.mp member with before | last
  · exact filled other before
  · rw [List.mem_singleton.mp last]
    exact segment.1

theorem sectionPaths_eq (named : level.Named IsSegment IsSegment)
    (filled : ∀ name ∈ names, name ≠ "") :
    level.sectionPaths ("/".intercalate names).toList =
      level.descendants.map fun inner => Located.path ⟨names ++ inner.names, inner.level⟩ := by
  induction level generalizing names with
  | empty => rfl
  | leaf item rest ih => exact ih named.2 filled
  | branch name maxLength child rest ihChild ihRest =>
    obtain ⟨segment, inside, outside⟩ := named
    have inner := ihChild inside (filled_concat filled segment)
    have others := ihRest outside filled
    rw [sectionPaths, joinPath_intercalate filled, inner, others, descendants, String.ofList_toList,
      List.map_cons, List.map_append, List.map_map]
    simp only [Function.comp_def, List.append_assoc, List.singleton_append, Located.path]

theorem branchNotes_eq (named : level.Named IsSegment IsSegment)
    (filled : ∀ name ∈ names, name ≠ "") :
    level.branchNotes ("/".intercalate names).toList =
      level.descendants.flatMap fun inner => Located.notes ⟨names ++ inner.names, inner.level⟩ := by
  induction level generalizing names with
  | empty => rfl
  | leaf item rest ih => exact ih named.2 filled
  | branch name maxLength child rest ihChild ihRest =>
    obtain ⟨segment, inside, outside⟩ := named
    have inner := ihChild inside (filled_concat filled segment)
    have others := ihRest outside filled
    rw [branchNotes, joinPath_intercalate filled, inner, others, descendants, String.ofList_toList,
      leafNotes_eq, List.flatMap_cons, List.flatMap_append, List.flatMap_map, List.append_assoc]
    simp only [List.append_assoc, List.singleton_append]
    rfl

end

theorem length_notes (level : Section) (path : String) (inner : List Char) :
    (level.leafNotes path).length + (level.branchNotes inner).length = level.leafCount := by
  induction level generalizing path inner with
  | empty => rfl
  | leaf item rest ih =>
    have others := ih path inner
    simp only [leafNotes, branchNotes, leafCount, List.length_cons]
    omega
  | branch name maxLength child rest ihChild ihRest =>
    have own := ihChild (String.ofList (joinPath inner name.toList)) (joinPath inner name.toList)
    have others := ihRest path inner
    simp only [leafNotes, branchNotes, leafCount, List.length_append]
    omega

/-- The outline of the document that a tree is written as lists the tree: the headers are the paths
of its sections, the assignments are the leaves section by section, and their number is the one that
is returned when the octets of the document are written. -/
theorem outline_octets {root : Section} (legible : root.Legible) :
    ∃ outline, Outline.read root.octets = .ok outline ∧
      outline.headers.map Header.path = root.descendants.map Located.path ∧
      outline.notes = root.sections.flatMap Located.notes ∧
      ∀ writer : Writer, writer.room = none →
        root.write writer = (.ok outline.assignments.length,
          { writer with taken := writer.taken ++ root.octets }) := by
  obtain ⟨after, recorded, paths, notes⟩ := records_octets legible
  have read : Outline.read root.octets = .ok after.state.finish :=
    Outline.read_of_readLines recorded
  have none : ∀ name ∈ ([] : List String), name ≠ "" := by simp
  have headers := sectionPaths_eq legible.segments none
  have inner := branchNotes_eq legible.segments none
  refine ⟨after.state.finish, read, ?_, ?_, ?_⟩
  · rw [Outline.finish, paths]
    exact headers
  · rw [Outline.notes_finish, notes, sections, List.flatMap_cons, leafNotes_eq]
    exact congrArg (_ ++ ·) inner
  · intro writer unlimited
    have counted := congrArg List.length notes
    rw [Outline.notes, List.length_map, List.length_append, length_notes] at counted
    rw [write_of_unlimited root unlimited, Outline.finish, counted]

theorem outline_octets_of_nested :
    let root :=
      branch "a" 0
        (branch "1" 0 (leaf { name := "y", kind := .char, value := some (.char '=') } empty)
          (leaf { name := "x", kind := .boolean } empty))
        (leaf { name := "x", kind := .string, value := some (.string " [a] ") }
          (branch "a" 0 empty empty))
    root.Legible ∧
      ∃ outline, Outline.read root.octets = .ok outline ∧
        outline.headers.map Header.path = ["a", "a/1", "a"] ∧
        outline.notes = [⟨"", "x", "\" [a] \""⟩, ⟨"a", "x", "NULL"⟩, ⟨"a/1", "y", "="⟩] ∧
        root.write {} = (.ok outline.assignments.length, { taken := root.octets }) := by
  intro root
  have legible : root.Legible := ⟨by decide +kernel, by decide +kernel, by decide +kernel⟩
  obtain ⟨outline, read, headers, notes, counted⟩ := outline_octets legible
  have written := counted {} rfl
  rw [List.nil_append] at written
  refine ⟨legible, outline, read, ?_, ?_, written⟩
  · rw [headers]
    decide +kernel
  · rw [notes]
    decide +kernel

end Section

end ConfigTree
