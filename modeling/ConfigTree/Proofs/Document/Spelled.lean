import ConfigTree.Proofs.Document.Assigned
import ConfigTree.Proofs.Document.Loaded
import ConfigTree.Proofs.Document.Written

/-!
How the contents of an outline are spelled. Paths and keys are words of ASCII, as the octets are
that they were read from. A value stays in its line, and since blanks in front of a value are passed
over it begins with none; its octets need not have been well-formed.

Main statement: `Outline.spelled_of_read`.
-/

namespace ConfigTree

structure Note.Spelled (note : Note) : Prop where
  key : isKey note.key = true
  oneLine : Text.OneLine note.value.toList
  bare : note.value.toList.dropWhile isLineSpace = note.value.toList

/-- An outline that a document can have. -/
structure Outline.Spelled (outline : Outline) : Prop where
  headers : ∀ header ∈ outline.headers, isWord isPathChar header.path.toList = true
  notes : ∀ note ∈ outline.notes, note.Spelled
  sections : ∀ note ∈ outline.notes,
    note.sectionPath = "" ∨ note.sectionPath ∈ outline.headers.map Header.path

namespace Document
open Grammar

def Shows (q : UInt8 → Bool) (p : Char → Bool) : Prop :=
  ∀ b, q b = true → p (Char.ofNat b.toNat) = true

theorem isAlpha_ofNat {b : UInt8} (letter : isLetter b = true) :
    (Char.ofNat b.toNat).isAlpha = true := by
  have ascii := lt_of_isNameOctet (isNameOctet_of_isLetter letter)
  rw [Text.isAlpha_iff, Text.Utf8.toNat_ofNat_of_ascii ascii]
  simpa only [isLetter, Bool.or_eq_true, Bool.and_eq_true, decide_eq_true_eq,
    UInt8.le_iff_toNat_le, UInt8.reduceToNat] using letter

theorem isAlphanum_ofNat {b : UInt8} (allowed : isAlphanumeric b = true) :
    (Char.ofNat b.toNat).isAlphanum = true := by
  have ascii := lt_of_isAlphanumeric allowed
  rw [isAlphanumeric, Bool.or_eq_true] at allowed
  rcases allowed with letter | digit
  · rw [Char.isAlphanum, isAlpha_ofNat letter]
    rfl
  · rw [Text.isAlphanum_iff, Text.Utf8.toNat_ofNat_of_ascii ascii]
    simp only [Bool.and_eq_true, decide_eq_true_eq, UInt8.le_iff_toNat_le,
      UInt8.reduceToNat] at digit
    exact .inr digit

theorem shows_key : Shows isNameOctet isKeyChar := by
  intro b allowed
  simp only [isNameOctet, Bool.or_eq_true, beq_iff_eq] at allowed
  rcases allowed with ((alphanumeric | rfl) | rfl) | rfl
  · rw [isKeyChar, isAlphanum_ofNat alphanumeric]
    rfl
  all_goals decide

theorem shows_path : Shows isPathOctet isPathChar := by
  intro b allowed
  simp only [isPathOctet, Bool.or_eq_true, beq_iff_eq] at allowed
  rcases allowed with (alphanumeric | rfl) | rfl
  · rw [isPathChar, isSectionChar, isAlphanum_ofNat alphanumeric]
    rfl
  all_goals decide

theorem isWord_map {q : UInt8 → Bool} {p : Char → Bool} (shows : Shows q p) {octets : List UInt8}
    (word : Word q octets) : isWord p (octets.map fun b => Char.ofNat b.toNat) = true := by
  obtain ⟨first, tail, rfl, letter, all⟩ := word
  rw [List.map_cons, isWord, isAlpha_ofNat letter, Bool.true_and, List.all_eq_true]
  intro c member
  obtain ⟨b, inside, rfl⟩ := List.mem_map.mp member
  exact shows b (all b inside)

theorem dropWhile_text {octets : List UInt8} (visible : Avoids Text.isLineBlank octets) :
    (text octets).toList.dropWhile isLineSpace = (text octets).toList := by
  rw [text, String.toList_ofList]
  cases decoded : Text.Utf8.decode octets with
  | nil => rfl
  | cons first rest =>
    apply List.dropWhile_cons_of_neg
    intro blank
    have octet := spells_lineSpace first blank
    have head := Text.Utf8.head?_of_head?_decode octet.1 (by rw [decoded]; rfl)
    have other := visible _ head
    rw [octet.2] at other
    cases other

section
variable {line : List UInt8} (feed : lineFeed ∉ line)
include feed

theorem isWord_of_readLine {path : String} (given : readLine false line = .ok (.header path)) :
    isWord isPathChar path.toList = true := by
  obtain ⟨octets, word, -, same⟩ := ((means_iff feed).mpr given).exists_path_word
  rw [same]
  exact isWord_map shows_path word

theorem spelled_of_readLine (nul : 0 ∉ line) {sectionPath key value : String}
    (given : readLine false line = .ok (.assignment key value)) :
    (Note.mk sectionPath key value).Spelled := by
  have oneLine := oneLine_of_readLine feed nul given
  obtain ⟨octets, rest, word, -, same, rfl, visible⟩ :=
    ((means_iff feed).mpr given).exists_name_word
  have spelled : isKey key = true := by
    rw [isKey, same]
    exact isWord_map shows_key word
  exact ⟨spelled, oneLine, dropWhile_text visible⟩

end

end Document

namespace Outline.Spelled

variable {outline : Outline} (spelled : outline.Spelled)
include spelled

theorem path_ne_empty : ∀ header ∈ outline.headers, header.path ≠ "" := by
  intro header member empty
  have word := spelled.headers header member
  rw [empty] at word
  cases word

theorem isKey_of_mem : ∀ assignment ∈ outline.assignments, isKey assignment.key = true := by
  intro assignment member
  exact (spelled.notes (.ofAssignment assignment) (List.mem_map_of_mem member)).key

theorem sectionPath_of_mem : ∀ assignment ∈ outline.assignments,
    assignment.sectionPath = "" ∨ ∃ header ∈ outline.headers,
      header.path = assignment.sectionPath := by
  intro assignment member
  rw [← List.mem_map]
  exact spelled.sections (.ofAssignment assignment) (List.mem_map_of_mem member)

end Outline.Spelled

/-- Every outline that is read is spelled as documents spell. -/
theorem Outline.spelled_of_read {octets : List UInt8} {outline : Outline}
    (read : Outline.read octets = .ok outline) : outline.Spelled := by
  obtain ⟨after, recorded, rfl⟩ := readLines_of_read read
  have origin := Document.fromLines_readLines (Document.lines octets)
  rw [recorded] at origin
  refine ⟨?_, ?_, origin.sections⟩
  · intro header member
    obtain ⟨line, piece, given⟩ := origin.headers header member
    exact Document.isWord_of_readLine (Document.clean_of_mem_lines piece).1 given
  · intro note member
    obtain ⟨line, piece, given⟩ := origin.notes note member
    have clean := Document.clean_of_mem_lines piece
    exact Document.spelled_of_readLine clean.1 clean.2 given

end ConfigTree
