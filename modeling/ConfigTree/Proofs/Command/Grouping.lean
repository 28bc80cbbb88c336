import ConfigTree.Proofs.Command.Listing

/-!
What the reports on a document count and list. The sections of an outline and the root are keys that
are all different and that cover every assignment, so grouping the assignments by them keeps each of
them once. The counts that a report gives add up, and a listing has a line for every assignment.

Main statement: `Command.groups_assignments`.
-/

namespace ConfigTree

section
variable {α κ : Type} [DecidableEq κ] (key : α → κ)

theorem filter_filter_of_ne {first other : κ} (different : other ≠ first) (items : List α) :
    (items.filter (!key · == first)).filter (key · == other) = items.filter (key · == other) := by
  rw [List.filter_filter]
  apply List.filter_congr
  intro item _
  by_cases own : key item = other
  · simp [own, different]
  · simp [own]

/-- Grouping items by different keys that cover them keeps every item as often as it occurs. -/
theorem perm_flatMap_filter {keys : List κ} (nodup : keys.Nodup) {items : List α}
    (covered : ∀ item ∈ items, key item ∈ keys) :
    (keys.flatMap fun k => items.filter (key · == k)).Perm items := by
  induction keys generalizing items with
  | nil =>
    have empty : items = [] := by
      rw [List.eq_nil_iff_forall_not_mem]
      intro item member
      cases covered item member
    rw [empty, List.flatMap_nil]
  | cons first rest ih =>
    obtain ⟨fresh, nodup⟩ := List.nodup_cons.mp nodup
    have inside : ∀ item ∈ items.filter (!key · == first), key item ∈ rest := by
      intro item member
      obtain ⟨known, different⟩ := List.mem_filter.mp member
      rcases List.mem_cons.mp (covered item known) with same | later
      · rw [same, beq_self_eq_true] at different
        cases different
      · exact later
    -- The keys are different, so the other groups are the same without the items of the first.
    have others : (rest.flatMap fun k => items.filter (key · == k)) =
        rest.flatMap fun k => (items.filter (!key · == first)).filter (key · == k) := by
      apply List.flatMap_congr
      intro k later
      have different : k ≠ first := fun same => fresh (same ▸ later)
      exact (filter_filter_of_ne key different items).symm
    have below := (ih nodup inside).append_left (items.filter (key · == first))
    rw [List.flatMap_cons, others]
    exact below.trans (List.filter_append_perm _ items)

end

namespace Outline.Spelled

variable {outline : Outline} (spelled : outline.Spelled)
include spelled

theorem perm_assignmentsIn :
    (outline.assignmentsIn "" ++ outline.sections.flatMap outline.assignmentsIn).Perm
      outline.assignments := by
  have keys : ("" :: outline.sections).Nodup :=
    List.nodup_cons.mpr ⟨spelled.root_not_mem_sections, nodup_sections outline⟩
  have covered : ∀ assignment ∈ outline.assignments,
      assignment.sectionPath ∈ "" :: outline.sections := by
    intro assignment member
    rw [List.mem_cons, mem_sections, List.mem_map]
    exact spelled.sectionPath_of_mem assignment member
  exact perm_flatMap_filter Assignment.sectionPath keys covered

theorem perm_grouped : outline.grouped.Perm outline.notes := by
  have whole : outline.grouped =
      (outline.assignmentsIn "" ++ outline.sections.flatMap outline.assignmentsIn).map
        Note.ofAssignment := by
    rw [List.map_append, List.map_flatMap]
    rfl
  rw [whole]
  exact spelled.perm_assignmentsIn.map Note.ofAssignment

theorem sum_sectionCounts :
    (outline.assignmentsIn "").length +
        ((Command.Report.sectionCounts outline).map Prod.snd).sum = outline.assignments.length := by
  have whole := spelled.perm_assignmentsIn.length_eq
  rw [List.length_append, List.length_flatMap] at whole
  rw [← whole, Command.Report.sectionCounts, List.map_map]
  rfl

end Outline.Spelled

namespace Command.Report

/-- A line of a listing is that of an assignment if it is neither empty nor a header. -/
def listsAssignment (line : List Char) : Bool :=
  line.head?.any (· != '[')

theorem listsAssignment_noteLine {note : Note} (spelled : note.Spelled) :
    listsAssignment (noteLine note) = true := by
  have key := spelled.key
  rw [isKey] at key
  rw [noteLine, assignmentLine]
  cases opening : note.key.toList with
  | nil => rw [opening] at key; cases key
  | cons first tail =>
    rw [opening, isWord, Bool.and_eq_true] at key
    have other : first ≠ '[' := by
      rintro rfl
      cases key.1
    exact bne_iff_ne.mpr other

theorem filter_map_noteLine {notes : List Note} (spelled : ∀ note ∈ notes, note.Spelled) :
    (notes.map noteLine).filter listsAssignment = notes.map noteLine := by
  rw [List.filter_eq_self]
  intro line member
  obtain ⟨note, known, rfl⟩ := List.mem_map.mp member
  exact listsAssignment_noteLine (spelled note known)

theorem filter_listingLines {outline : Outline} (spelled : outline.Spelled) :
    (listingLines outline).filter listsAssignment = outline.grouped.map noteLine := by
  have known (path : String) : ∀ note ∈ outline.notesIn path, note.Spelled :=
    fun note member => spelled.notes note (Outline.sectionPath_of_mem_notesIn member).1
  have block (path : String) :
      (sectionLines outline path).filter listsAssignment =
        (outline.notesIn path).map noteLine := by
    have header : ¬listsAssignment (headerLine path.toList) = true := by
      simp [listsAssignment, headerLine]
    rw [sectionLines, List.filter_cons_of_neg (by decide), List.filter_cons_of_neg header,
      filter_map_noteLine (known path)]
  rw [listingLines, List.filter_append, filter_map_noteLine (known ""), List.filter_flatMap,
    Outline.grouped, List.map_append, List.map_flatMap]
  simp only [block]

theorem splitOn_listing {outline : Outline} (spelled : outline.Spelled) :
    (listing outline).toList.splitOn '\n' = listingLines outline ++ [[]] := by
  have clean := Document.clean_listingLines spelled
  rw [listing_eq, String.toList_ofList]
  exact Text.splitOn_flatMap fun line member => (clean line member).1

end Command.Report

namespace Command

/-- Neither the report on a document nor its listing loses or doubles an assignment. The sections
are the paths of the headers, each once; the root and the sections share out all assignments; what
the report counts in the sections and what stands at the root add up to its total; and the listing
has one line for every assignment. -/
theorem groups_assignments (file : String) {octets : List UInt8} {outline : Outline}
    (read : Outline.read octets = .ok outline) :
    outline.sections.Nodup ∧
      (∀ path, path ∈ outline.sections ↔ ∃ header ∈ outline.headers, header.path = path) ∧
      (outline.assignmentsIn "" ++ outline.sections.flatMap outline.assignmentsIn).Perm
        outline.assignments ∧
      (∃ (total : Nat) (counts : List (String × Nat)),
        runCheck file false (Outline.read octets) = .success (unlines (
          ["path: " ++ file, "status: ok", s!"assignments: {total}", "sections:"] ++
            counts.map fun (path, count) => s!"  [{path}]: {count}")) ∧
        runCheck file true (Outline.read octets) = .success (printJson (.object [
          ("path", .string file), ("ok", .boolean true), ("assignments", .number total),
          ("sections", .array (counts.map fun (path, count) =>
            .object [("path", .string path), ("assignments", .number count)])),
          ("error", .null)])) ∧
        counts = outline.sections.map (fun path => (path, (outline.assignmentsIn path).length)) ∧
        total = outline.assignments.length ∧
        (outline.assignmentsIn "").length + (counts.map Prod.snd).sum = total) ∧
      ∃ shown, runList file false (Outline.read octets) = .success shown ∧
        ((shown.toList.splitOn '\n').filter Report.listsAssignment).Perm
          (outline.assignments.map fun assignment =>
            assignmentLine assignment.key.toList assignment.value.toList) := by
  have spelled := Outline.spelled_of_read read
  have sums := spelled.sum_sectionCounts
  refine ⟨Outline.nodup_sections outline, fun path => ?_, spelled.perm_assignmentsIn,
    ⟨outline.assignments.length, Report.sectionCounts outline, ?_, ?_, rfl, rfl, sums⟩,
    Report.listing outline, ?_, ?_⟩
  · rw [Outline.mem_sections, List.mem_map]
  · rw [read]
    rfl
  · rw [read]
    rfl
  · rw [read]
    rfl
  · have lines := spelled.perm_grouped.map Report.noteLine
    rw [Outline.notes, List.map_map] at lines
    have last : ([[]] : List (List Char)).filter Report.listsAssignment = [] := rfl
    rw [Report.splitOn_listing spelled, List.filter_append, Report.filter_listingLines spelled,
      last, List.append_nil]
    exact lines

theorem groups_assignments_of_reopened :
    let octets := Text.Utf8.encode "k = [1]\n[a]\nx = 1\n[b]\n[a]\nx = 1\ny =\n".toList
    let outline : Outline := {
      headers := [⟨"a", 2⟩, ⟨"b", 4⟩, ⟨"a", 5⟩]
      assignments := [⟨"", "k", "[1]", 1⟩, ⟨"a", "x", "1", 3⟩, ⟨"a", "x", "1", 6⟩,
        ⟨"a", "y", "", 7⟩] }
    Outline.read octets = .ok outline ∧
      outline.sections = ["a", "b"] ∧
      runCheck "file" false (Outline.read octets) = .success
        "path: file\nstatus: ok\nassignments: 4\nsections:\n  [a]: 3\n  [b]: 0\n" ∧
      (outline.assignmentsIn "").length +
        ((Report.sectionCounts outline).map Prod.snd).sum = 4 ∧
      ∃ shown, runList "file" false (Outline.read octets) = .success shown ∧
        ((shown.toList.splitOn '\n').filter Report.listsAssignment).Perm
          (["k = [1]", "x = 1", "x = 1", "y = "].map String.toList) := by
  intro octets outline
  have read : Outline.read octets = .ok outline := by decide +kernel
  obtain ⟨-, -, -, ⟨total, counts, -, -, rfl, rfl, sums⟩, listed⟩ :=
    groups_assignments "file" read
  exact ⟨read, by decide +kernel, by decide +kernel, sums, listed⟩

end Command

end ConfigTree
