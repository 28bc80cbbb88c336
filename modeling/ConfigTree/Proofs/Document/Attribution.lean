import Mathlib.Data.List.Nodup
import ConfigTree.Proofs.Document.Lookup

/-!
Under which header an assignment stands. The recorder takes the lines in order and writes down the
number of each, so its two lists grow by a greater number every time, and no number is in both of
them. An assignment is recorded in the section that the recorder is in. That is the section of the
last header which was read before (`Document.Recording`), and among the numbers of the headers above
the assignment this header has the greatest.

Main statement: `Outline.attributes_assignments`.
-/

namespace ConfigTree

/-- The path of the section that a line stands in: that of the last header above the line, or the
empty path of the root where there is no header above it. -/
inductive SectionOf (headers : List Header) (line : Nat) : String → Prop where
  | below (header : Header) : header ∈ headers → header.line < line →
      (∀ other ∈ headers, other.line < line → other.line ≤ header.line) →
      SectionOf headers line header.path
  | root : (∀ header ∈ headers, line ≤ header.line) → SectionOf headers line ""

theorem SectionOf.concat {headers : List Header} {line : Nat} {path : String}
    (inside : SectionOf headers line path) {header : Header} (further : line ≤ header.line) :
    SectionOf (headers ++ [header]) line path := by
  cases inside with
  | below last member above greatest =>
    refine .below last (List.mem_append_left _ member) above ?_
    refine List.forall_mem_append.mpr ⟨greatest, List.forall_mem_singleton.mpr ?_⟩
    intro before
    omega
  | root none =>
    exact .root (List.forall_mem_append.mpr ⟨none, List.forall_mem_singleton.mpr further⟩)

theorem pairwise_concat {α : Type} {line : α → Nat} {items : List α} {last : α}
    (ordered : items.Pairwise (line · < line ·)) (greater : ∀ item ∈ items, line item < line last) :
    (items ++ [last]).Pairwise (line · < line ·) := by
  refine List.pairwise_append.mpr ⟨ordered, List.pairwise_singleton _ _, ?_⟩
  intro item member
  exact List.forall_mem_singleton.mpr (greater item member)

namespace Outline

/-- What has been recorded of the lines before a number. -/
structure Attributed (number : Nat) (outline : Outline) : Prop where
  headers : outline.headers.Pairwise (·.line < ·.line)
  assignments : outline.assignments.Pairwise (·.line < ·.line)
  apart : ∀ header ∈ outline.headers, ∀ assignment ∈ outline.assignments,
    header.line ≠ assignment.line
  headersBefore : ∀ header ∈ outline.headers, header.line < number
  assignmentsBefore : ∀ assignment ∈ outline.assignments, assignment.line < number
  sections : ∀ assignment ∈ outline.assignments,
    SectionOf outline.headers assignment.line assignment.sectionPath

variable {number : Nat} {outline : Outline}

/-- The section that the recorder is in is that of the line which comes next. -/
theorem InLast.sectionOf (inLast : outline.InLast)
    (ordered : outline.headers.Pairwise (·.line < ·.line))
    (before : ∀ header ∈ outline.headers, header.line < number) :
    SectionOf outline.headers number outline.current := by
  rw [inLast]
  rcases List.eq_nil_or_concat outline.headers with none | ⟨earlier, last, whole⟩
  · rw [none]
    exact .root (List.forall_mem_nil _)
  · rw [List.concat_eq_append] at whole
    rw [whole] at ordered before ⊢
    obtain ⟨-, -, above⟩ := List.pairwise_append.mp ordered
    rw [List.getLast?_concat]
    refine .below last List.mem_concat_self (before last List.mem_concat_self) ?_
    refine List.forall_mem_append.mpr ⟨?_, List.forall_mem_singleton.mpr fun _ => Nat.le_refl _⟩
    intro other member _
    exact Nat.le_of_lt (above other member last List.mem_cons_self)

namespace Attributed

variable (attributed : outline.Attributed number)
include attributed

theorem next : outline.Attributed (number + 1) where
  headers := attributed.headers
  assignments := attributed.assignments
  apart := attributed.apart
  headersBefore header member := Nat.lt_succ_of_lt (attributed.headersBefore header member)
  assignmentsBefore assignment member :=
    Nat.lt_succ_of_lt (attributed.assignmentsBefore assignment member)
  sections := attributed.sections

theorem addHeader (path : String) : (outline.addHeader path number).Attributed (number + 1) where
  headers := pairwise_concat attributed.headers attributed.headersBefore
  assignments := attributed.assignments
  apart := by
    refine List.forall_mem_append.mpr ⟨attributed.apart, List.forall_mem_singleton.mpr ?_⟩
    intro assignment recorded
    exact Nat.ne_of_gt (attributed.assignmentsBefore assignment recorded)
  headersBefore := List.forall_mem_append.mpr
    ⟨attributed.next.headersBefore, List.forall_mem_singleton.mpr (Nat.lt_succ_self number)⟩
  assignmentsBefore := attributed.next.assignmentsBefore
  sections := by
    intro assignment recorded
    have above := attributed.assignmentsBefore assignment recorded
    exact (attributed.sections assignment recorded).concat (Nat.le_of_lt above)

theorem addAssignment (inLast : outline.InLast) (key value : String) :
    (outline.addAssignment key value number).Attributed (number + 1) where
  headers := attributed.headers
  assignments := pairwise_concat attributed.assignments attributed.assignmentsBefore
  apart := by
    intro header known
    refine List.forall_mem_append.mpr
      ⟨attributed.apart header known, List.forall_mem_singleton.mpr ?_⟩
    exact Nat.ne_of_lt (attributed.headersBefore header known)
  headersBefore := attributed.next.headersBefore
  assignmentsBefore := List.forall_mem_append.mpr
    ⟨attributed.next.assignmentsBefore, List.forall_mem_singleton.mpr (Nat.lt_succ_self number)⟩
  sections := by
    have inside := inLast.sectionOf attributed.headers attributed.headersBefore
    exact List.forall_mem_append.mpr
      ⟨attributed.sections, List.forall_mem_singleton.mpr inside⟩

theorem finish : outline.finish.Attributed number :=
  ⟨attributed.headers, attributed.assignments, attributed.apart, attributed.headersBefore,
    attributed.assignmentsBefore, attributed.sections⟩

theorem nodup_lines :
    (outline.headers.map Header.line ++ outline.assignments.map Assignment.line).Nodup := by
  have headers := List.pairwise_map.mpr (attributed.headers.imp Nat.ne_of_lt)
  have assignments := List.pairwise_map.mpr (attributed.assignments.imp Nat.ne_of_lt)
  refine List.nodup_append.mpr ⟨headers, assignments, ?_⟩
  intro line above other inside
  obtain ⟨header, known, rfl⟩ := List.mem_map.mp above
  obtain ⟨assignment, recorded, rfl⟩ := List.mem_map.mp inside
  exact attributed.apart header known assignment recorded

end Attributed

theorem attributed_of_read {octets : List UInt8} (read : Outline.read octets = .ok outline) :
    ∃ number, outline.Attributed number := by
  obtain ⟨after, recorded, rfl⟩ := readLines_of_read read
  have start : Attributed 1 {} := by
    refine ⟨.nil, .nil, ?_, ?_, ?_, ?_⟩
    all_goals
      intro item member
      cases member
  have reached := recorder.exists_readLines_invariant
    (fun number progress => Document.Recording progress ∧ progress.state.Attributed number)
    (Document.lines octets) ?_ 1 { state := {} } ⟨.start, start⟩
  · rw [recorded] at reached
    obtain ⟨number, -, attributed⟩ := reached
    exact ⟨number, attributed.finish⟩
  · rintro line - number progress item - ⟨recording, attributed⟩
    refine ⟨recording.accept number item, ?_⟩
    cases item with
    | nothing => exact attributed.next
    | header path => exact attributed.addHeader path
    | assignment key value => exact attributed.addAssignment recording.inLast key value

/-- Every assignment of a document stands in the section of the last header above it. Headers and
assignments come in the order of their lines, each on a line of its own, every header leads away
from the root, and the path of an assignment says which section and which key it is. -/
theorem attributes_assignments {octets : List UInt8} (read : Outline.read octets = .ok outline) :
    (outline.headers.map Header.line ++ outline.assignments.map Assignment.line).Nodup ∧
      outline.headers.Pairwise (·.line < ·.line) ∧
      outline.assignments.Pairwise (·.line < ·.line) ∧
      (∀ assignment ∈ outline.assignments,
        SectionOf outline.headers assignment.line assignment.sectionPath) ∧
      (∀ header ∈ outline.headers, header.path ≠ "") ∧
      ∀ first ∈ outline.assignments, ∀ second ∈ outline.assignments,
        first.path = second.path ↔
          first.sectionPath = second.sectionPath ∧ first.key = second.key := by
  have spelled := spelled_of_read read
  obtain ⟨number, attributed⟩ := attributed_of_read read
  refine ⟨attributed.nodup_lines, attributed.headers, attributed.assignments, attributed.sections,
    spelled.path_ne_empty, ?_⟩
  intro first member second other
  have joined := Assignment.path_eq_iff (spelled.separator_not_mem_key first member)
    second.sectionPath.toList (spelled.separator_not_mem_key second other)
  rwa [String.ofList_toList, String.ofList_toList] at joined

theorem attributes_assignments_of_reopened :
    let octets := Text.Utf8.encode "k = 1\n\n[a]\nx = 1\n[b] # none\n[a]\n\nx = 2\ny = 3".toList
    let outline : Outline := {
      headers := [⟨"a", 3⟩, ⟨"b", 5⟩, ⟨"a", 6⟩]
      assignments := [⟨"", "k", "1", 1⟩, ⟨"a", "x", "1", 4⟩, ⟨"a", "x", "2", 8⟩,
        ⟨"a", "y", "3", 9⟩] }
    Outline.read octets = .ok outline ∧
      [3, 5, 6, 1, 4, 8, 9].Nodup ∧
      SectionOf outline.headers 1 "" ∧ SectionOf outline.headers 8 "a" ∧
      ∀ first ∈ outline.assignments, ∀ second ∈ outline.assignments,
        first.path = second.path ↔
          first.sectionPath = second.sectionPath ∧ first.key = second.key := by
  intro octets outline
  have read : Outline.read octets = .ok outline := by decide +kernel
  obtain ⟨distinct, -, -, inside, -, paths⟩ := attributes_assignments read
  exact ⟨read, distinct, inside ⟨"", "k", "1", 1⟩ (by decide), inside ⟨"a", "x", "2", 8⟩ (by decide),
    paths⟩

end Outline

end ConfigTree
