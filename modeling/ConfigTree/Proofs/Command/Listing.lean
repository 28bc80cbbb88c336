import Mathlib.Data.List.Nodup
import ConfigTree.Command.Run
import ConfigTree.Proofs.Document.LastWins
import ConfigTree.Proofs.Document.Recorded
import ConfigTree.Proofs.Document.Spelled

/-!
A listing is a document. It has each section once, with all assignments that the listed document
makes in that section in their order, and so it says the same to every tree. Every line of it is
read as what it was written for, because nothing else can stand in an outline.

Main statement: `Command.list_listing`.
-/

namespace ConfigTree

namespace Outline

def addPath (seen : List String) (path : String) : List String :=
  if path ∈ seen then seen else seen ++ [path]

theorem sections_eq (outline : Outline) :
    outline.sections = (outline.headers.map Header.path).foldl addPath [] := by
  rw [List.foldl_map]
  rfl

theorem mem_addPath {seen : List String} {path other : String} :
    other ∈ addPath seen path ↔ other ∈ seen ∨ other = path := by
  rw [addPath]
  split
  · next known =>
    constructor
    · exact .inl
    · rintro (old | rfl)
      · exact old
      · exact known
  · rw [List.mem_append, List.mem_singleton]

theorem mem_foldl_addPath {seen paths : List String} {path : String} :
    path ∈ paths.foldl addPath seen ↔ path ∈ seen ∨ path ∈ paths := by
  induction paths generalizing seen with
  | nil => simp
  | cons first rest ih => rw [List.foldl_cons, ih, mem_addPath, List.mem_cons, or_assoc]

theorem nodup_addPath {seen : List String} (nodup : seen.Nodup) (path : String) :
    (addPath seen path).Nodup := by
  rw [addPath]
  split
  · exact nodup
  · next fresh =>
    rw [← List.concat_eq_append]
    exact nodup.concat fresh

theorem nodup_foldl_addPath {seen : List String} (nodup : seen.Nodup) (paths : List String) :
    (paths.foldl addPath seen).Nodup := by
  induction paths generalizing seen with
  | nil => exact nodup
  | cons path rest ih => exact ih (nodup_addPath nodup path)

theorem foldl_addPath_of_nodup {seen paths : List String} (nodup : (seen ++ paths).Nodup) :
    paths.foldl addPath seen = seen ++ paths := by
  induction paths generalizing seen with
  | nil => rw [List.append_nil, List.foldl_nil]
  | cons path rest ih =>
    have fresh : path ∉ seen := by
      intro member
      exact List.disjoint_of_nodup_append nodup member List.mem_cons_self
    have whole : seen ++ path :: rest = (seen ++ [path]) ++ rest := by simp
    rw [List.foldl_cons, addPath, if_neg fresh, whole]
    exact ih (whole ▸ nodup)

theorem nodup_sections (outline : Outline) : outline.sections.Nodup := by
  rw [sections_eq]
  exact nodup_foldl_addPath List.nodup_nil _

theorem mem_sections {outline : Outline} {path : String} :
    path ∈ outline.sections ↔ path ∈ outline.headers.map Header.path := by
  rw [sections_eq, mem_foldl_addPath]
  simp

theorem sections_of_headers {outline other : Outline}
    (headers : other.headers.map Header.path = outline.sections) :
    other.sections = outline.sections := by
  rw [sections_eq, headers]
  exact foldl_addPath_of_nodup (nodup_sections outline)

def notesIn (outline : Outline) (path : String) : List Note :=
  (outline.assignmentsIn path).map Note.ofAssignment

def grouped (outline : Outline) : List Note :=
  outline.notesIn "" ++ outline.sections.flatMap outline.notesIn

theorem notesIn_eq_filter (outline : Outline) (path : String) :
    outline.notesIn path = outline.notes.filter (·.sectionPath == path) := by
  rw [notesIn, assignmentsIn, notes, List.filter_map]
  rfl

theorem sectionPath_of_mem_notesIn {outline : Outline} {path : String} {note : Note}
    (member : note ∈ outline.notesIn path) : note ∈ outline.notes ∧ note.sectionPath = path := by
  rw [notesIn_eq_filter, List.mem_filter, beq_iff_eq] at member
  exact member

theorem filter_notesIn (outline : Outline) (path other : String) :
    (outline.notesIn path).filter (·.sectionPath == other) =
      if path = other then outline.notesIn path else [] := by
  split
  · next same =>
    rw [List.filter_eq_self]
    intro note member
    exact beq_iff_eq.mpr ((sectionPath_of_mem_notesIn member).2.trans same)
  · next different =>
    rw [List.filter_eq_nil_iff]
    intro note member own
    exact different ((sectionPath_of_mem_notesIn member).2.symm.trans (beq_iff_eq.mp own))

theorem filter_flatMap_notesIn (outline : Outline) {paths : List String} (nodup : paths.Nodup)
    (path : String) :
    (paths.flatMap outline.notesIn).filter (·.sectionPath == path) =
      if path ∈ paths then outline.notesIn path else [] := by
  induction paths with
  | nil => rfl
  | cons first rest ih =>
    obtain ⟨fresh, nodup⟩ := List.nodup_cons.mp nodup
    rw [List.flatMap_cons, List.filter_append, filter_notesIn, ih nodup]
    by_cases same : first = path
    · subst same
      rw [if_pos rfl, if_neg fresh, if_pos List.mem_cons_self, List.append_nil]
    · have apart : path ∈ first :: rest ↔ path ∈ rest := by
        rw [List.mem_cons, or_iff_right fun equal => same equal.symm]
      rw [if_neg same, List.nil_append]
      simp only [apart]

section
variable {outline other : Outline}

theorem Spelled.isWord_of_mem_sections (spelled : outline.Spelled) :
    ∀ path ∈ outline.sections, isWord isPathChar path.toList = true := by
  intro path member
  obtain ⟨header, known, rfl⟩ := List.mem_map.mp (mem_sections.mp member)
  exact spelled.headers header known

theorem Spelled.root_not_mem_sections (spelled : outline.Spelled) : "" ∉ outline.sections := by
  intro member
  cases spelled.isWord_of_mem_sections "" member

theorem Spelled.filter_grouped (spelled : outline.Spelled) (path : String) :
    outline.grouped.filter (·.sectionPath == path) = outline.notesIn path := by
  have rooted := spelled.root_not_mem_sections
  rw [grouped, List.filter_append, filter_notesIn, filter_flatMap_notesIn outline
    (nodup_sections outline)]
  by_cases root : "" = path
  · subst root
    rw [if_pos rfl, if_neg rooted, List.append_nil]
  · rw [if_neg root, List.nil_append]
    split
    · rfl
    · next absent =>
      symm
      rw [List.eq_nil_iff_forall_not_mem]
      intro note member
      obtain ⟨known, same⟩ := sectionPath_of_mem_notesIn member
      rcases spelled.sections note known with empty | inside
      · exact root (empty.symm.trans same)
      · exact absent (mem_sections.mpr (same ▸ inside))

theorem Spelled.notesIn_of_grouped (spelled : outline.Spelled)
    (regrouped : other.notes = outline.grouped) (path : String) :
    other.notesIn path = outline.notesIn path := by
  rw [notesIn_eq_filter, regrouped, spelled.filter_grouped]

theorem values_eq (outline : Outline) (path key : String) :
    Note.values outline.notes path key =
      ((outline.notesIn path).filter (·.key == key)).map Note.value := by
  rw [Note.values, notesIn_eq_filter, List.filter_filter]
  congr 1
  apply List.filter_congr
  intro note _
  rw [Bool.eq_iff_iff]
  simp only [decide_eq_true_eq, Bool.and_eq_true, beq_iff_eq]
  exact And.comm

end

end Outline

namespace Command.Report

def noteLine (note : Note) : List Char :=
  assignmentLine note.key.toList note.value.toList

def sectionLines (outline : Outline) (path : String) : List (List Char) :=
  [] :: headerLine path.toList :: (outline.notesIn path).map noteLine

def listingLines (outline : Outline) : List (List Char) :=
  (outline.notesIn "").map noteLine ++ outline.sections.flatMap (sectionLines outline)

theorem map_assignmentLines (outline : Outline) (path : String) :
    (assignmentLines outline path).map String.toList = (outline.notesIn path).map noteLine := by
  rw [assignmentLines, Outline.notesIn, List.map_map, List.map_map]
  apply List.map_congr_left
  intro assignment _
  simp only [Function.comp, String.toList_append]
  rfl

theorem listing_eq (outline : Outline) :
    listing outline = String.ofList ((listingLines outline).flatMap (· ++ ['\n'])) := by
  have same (lines : List String) :
      unlines lines = String.ofList ((lines.map String.toList).flatMap (· ++ ['\n'])) := by
    rw [unlines, List.flatMap_map]
  have block (path : String) :
      (("" :: ("[" ++ path ++ "]") :: assignmentLines outline path).map String.toList) =
        sectionLines outline path := by
    rw [List.map_cons, List.map_cons, map_assignmentLines, String.toList_append,
      String.toList_append]
    rfl
  rw [listing, same, List.map_append, map_assignmentLines, List.map_flatMap]
  simp only [block]
  rfl

end Command.Report

namespace Document
open Command

variable {number : Nat} {first : Progress Outline}

theorem records_notes {notes : List Note} (spelled : ∀ note ∈ notes, note.Spelled)
    (inside : ∀ note ∈ notes, note.sectionPath = first.state.current) (number : Nat)
    (taken : first.skipping = false) :
    ∃ next, Records (notes.map Report.noteLine) number first next [] notes ∧
      next.state.current = first.state.current := by
  induction notes generalizing number first with
  | nil => exact ⟨first, Records.refl taken, rfl⟩
  | cons note rest ih =>
    obtain ⟨key, oneLine, bare⟩ := spelled note List.mem_cons_self
    obtain ⟨next, line, same⟩ := records_assignmentLine key oneLine.1 number taken
    have own : Note.mk first.state.current note.key
        (String.ofList (note.value.toList.dropWhile isLineSpace)) = note := by
      rw [bare, String.ofList_toList, ← inside note List.mem_cons_self]
    rw [own] at line
    have later : ∀ other ∈ rest, other.sectionPath = next.state.current := by
      intro other member
      rw [same]
      exact inside other (List.mem_cons_of_mem note member)
    obtain ⟨last, below, still⟩ := ih
      (fun other member => spelled other (List.mem_cons_of_mem note member)) later (number + 1)
      line.taken
    exact ⟨last, line.append below, still.trans same⟩

theorem records_sectionLines {outline : Outline} (spelled : outline.Spelled) {paths : List String}
    (words : ∀ path ∈ paths, isWord isPathChar path.toList = true) (number : Nat)
    (taken : first.skipping = false) :
    ∃ next, Records (paths.flatMap (Report.sectionLines outline)) number first next paths
      (paths.flatMap outline.notesIn) := by
  induction paths generalizing number first with
  | nil => exact ⟨first, Records.refl taken⟩
  | cons path rest ih =>
    -- an empty line, the header, the assignments below it, and the sections that follow
    have gap := records_nothing number taken
    obtain ⟨opened, header, current⟩ :=
      records_header (words path List.mem_cons_self) (number + 1) taken
    rw [String.ofList_toList] at header current
    have known : ∀ note ∈ outline.notesIn path, note.Spelled :=
      fun note member => spelled.notes note (Outline.sectionPath_of_mem_notesIn member).1
    have inside : ∀ note ∈ outline.notesIn path, note.sectionPath = opened.state.current := by
      intro note member
      rw [current]
      exact (Outline.sectionPath_of_mem_notesIn member).2
    obtain ⟨filled, own, _⟩ := records_notes known inside (number + 2) header.taken
    obtain ⟨last, others⟩ := ih (fun other member => words other (List.mem_cons_of_mem path member))
      (number + (Report.sectionLines outline path).length) own.taken
    rw [List.flatMap_cons, List.flatMap_cons]
    exact ⟨last, ((gap.append header).append own).append others⟩

theorem clean_noteLine {note : Note} (spelled : note.Spelled) :
    '\n' ∉ Report.noteLine note ∧ '\x00' ∉ Report.noteLine note :=
  ⟨clean_assignmentLine spelled.key (by decide) (by decide) (by decide) spelled.oneLine.1,
    clean_assignmentLine spelled.key (by decide) (by decide) (by decide) spelled.oneLine.2⟩

theorem clean_listingLines {outline : Outline} (spelled : outline.Spelled) :
    ∀ line ∈ Report.listingLines outline, '\n' ∉ line ∧ '\x00' ∉ line := by
  have block (path : String) :
      ∀ line ∈ (outline.notesIn path).map Report.noteLine, '\n' ∉ line ∧ '\x00' ∉ line := by
    intro line member
    obtain ⟨note, inside, rfl⟩ := List.mem_map.mp member
    exact clean_noteLine (spelled.notes note (Outline.sectionPath_of_mem_notesIn inside).1)
  intro line member
  rcases List.mem_append.mp member with own | below
  · exact block "" line own
  · obtain ⟨path, known, inside⟩ := List.mem_flatMap.mp below
    rw [Report.sectionLines, List.mem_cons, List.mem_cons] at inside
    rcases inside with rfl | rfl | inner
    · exact ⟨List.not_mem_nil, List.not_mem_nil⟩
    · have word := spelled.isWord_of_mem_sections path known
      exact ⟨clean_headerLine word (by decide) (by decide) (by decide),
        clean_headerLine word (by decide) (by decide) (by decide)⟩
    · exact block path line inner

end Document

namespace Outline
open Command

/-- A listing is read as the sections and the grouped assignments of what is listed. -/
theorem read_listing {outline : Outline} (spelled : outline.Spelled) :
    ∃ again, Outline.read (Text.Utf8.encode (Report.listing outline).toList) = .ok again ∧
      again.headers.map Header.path = outline.sections ∧ again.notes = outline.grouped := by
  have start : ({ state := {} } : Document.Progress Outline).skipping = false := rfl
  have known : ∀ note ∈ outline.notesIn "", note.Spelled :=
    fun note member => spelled.notes note (sectionPath_of_mem_notesIn member).1
  have rooted : ∀ note ∈ outline.notesIn "", note.sectionPath = ({} : Outline).current :=
    fun note member => (sectionPath_of_mem_notesIn member).2
  obtain ⟨filled, own, _⟩ := Document.records_notes known rooted 1 start
  obtain ⟨last, below⟩ := Document.records_sectionLines spelled
    spelled.isWord_of_mem_sections _ own.taken
  have whole := (own.append below).append (Document.records_nothing _ below.taken)
  have lines : Document.lines (Text.Utf8.encode (Report.listing outline).toList) =
      (Report.listingLines outline ++ [[]]).map Text.Utf8.encode := by
    rw [Report.listing_eq, String.toList_ofList,
      Document.lines_encode (Document.clean_listingLines spelled)]
  have read : recorder.readLines 1 { state := {} }
      (Document.lines (Text.Utf8.encode (Report.listing outline).toList)) = (last, none) := by
    rw [lines]
    exact whole.read
  refine ⟨last.state.finish, ?_, ?_, ?_⟩
  · rw [read_of_readLines read]
    rfl
  · have headers := whole.headers
    rw [List.append_nil] at headers
    exact headers
  · have noted := whole.noted
    rw [List.append_nil] at noted
    exact noted

theorem listing_congr {outline other : Outline} (sections : other.sections = outline.sections)
    (same : ∀ path, other.notesIn path = outline.notesIn path) :
    Report.listing other = Report.listing outline := by
  have blocks : Report.sectionLines other = Report.sectionLines outline := by
    funext path
    rw [Report.sectionLines, same, Report.sectionLines]
  rw [Report.listing_eq, Report.listing_eq, Report.listingLines, sections, same, blocks,
    Report.listingLines]

end Outline

namespace Command

/-- What is listed of a document is itself a document. It has the same sections, and in the root and
in every section the same keys and values in the same order; it is listed as it stands; and it loads
into every tree as the listed document does. -/
theorem list_listing (file : String) {octets : List UInt8} {outline : Outline}
    (read : Outline.read octets = .ok outline) :
    ∃ shown again,
      runList file false (Outline.read octets) = .success shown ∧
      Outline.read (Text.Utf8.encode shown.toList) = .ok again ∧
      again.sections = outline.sections ∧
      (∀ path,
        (again.assignmentsIn path).map (fun assignment => (assignment.key, assignment.value)) =
          (outline.assignmentsIn path).map fun assignment => (assignment.key, assignment.value)) ∧
      runList file false (Outline.read (Text.Utf8.encode shown.toList)) = .success shown ∧
      ∀ root : Section, root.load (Text.Utf8.encode shown.toList) = root.load octets := by
  have spelled := Outline.spelled_of_read read
  obtain ⟨again, reread, headers, grouped⟩ := Outline.read_listing spelled
  have sections := Outline.sections_of_headers headers
  have same := spelled.notesIn_of_grouped grouped
  refine ⟨Report.listing outline, again, ?_, reread, sections, ?_, ?_, ?_⟩
  · rw [read]
    rfl
  · intro path
    have pairs (outline : Outline) : (outline.assignmentsIn path).map
        (fun assignment => (assignment.key, assignment.value)) =
          (outline.notesIn path).map fun note => (note.key, note.value) := by
      rw [Outline.notesIn, List.map_map]
      rfl
    rw [pairs, pairs, same]
  · rw [reread, ← Outline.listing_congr sections same]
    rfl
  · intro root
    apply Section.load_of_values root read reread
    intro path key
    rw [Outline.values_eq, Outline.values_eq, same]

theorem list_listing_of_reopened :
    let octets := Text.Utf8.encode "k = 1\r\n[a/]\nx =\n[b]\ny = ".toList ++
      0xFF :: Text.Utf8.encode "\n[a/]\nx = 2 #\n".toList
    let outline : Outline := {
      headers := [⟨"a/", 2⟩, ⟨"b", 4⟩, ⟨"a/", 6⟩]
      assignments := [⟨"", "k", "1\r", 1⟩, ⟨"a/", "x", "", 3⟩, ⟨"b", "y", "\uFFFD", 5⟩,
        ⟨"a/", "x", "2 #", 7⟩] }
    let shown := "k = 1\r\n\n[a/]\nx = \nx = 2 #\n\n[b]\ny = \uFFFD\n"
    Outline.read octets = .ok outline ∧
      runList "file" false (Outline.read octets) = .success shown ∧
      (∃ again, Outline.read (Text.Utf8.encode shown.toList) = .ok again ∧
        again.sections = ["a/", "b"]) ∧
      runList "file" false (Outline.read (Text.Utf8.encode shown.toList)) = .success shown ∧
      ∀ root : Section, root.load (Text.Utf8.encode shown.toList) = root.load octets := by
  intro octets outline shown
  have read : Outline.read octets = .ok outline := by decide +kernel
  have listed : runList "file" false (Outline.read octets) = .success shown := by decide +kernel
  obtain ⟨other, again, ran, reread, sections, -, relisted, loads⟩ := list_listing "file" read
  have same : other = shown := congrArg Output.stdout (ran.symm.trans listed)
  subst same
  exact ⟨read, listed, ⟨again, reread, sections⟩, relisted, loads⟩

end Command

end ConfigTree
