import ConfigTree.Proofs.Document.Spelled

/-!
Looking a path up in an outline. The lookup divides a path at its last separator, and the path of an
assignment joins section and key with one, unless the section is the root. No key has a separator
in it, so what was joined is divided where it was joined, and a path stands for one section and one
key. The other way round there is one exception: behind a separator in front of it, a key without a
section is still found at the root.

Main statement: `Outline.lookup_gives_last`.
-/

namespace ConfigTree

section
variable {key : List Char} (apart : separator ∉ key)
include apart

theorem splitLast_of_not_mem : splitLast key = ([], key) := by
  have clean : separator ∉ key.reverse := mt List.mem_reverse.mp apart
  rw [splitLast, Text.takeWhile_ne_of_not_mem clean, Text.dropWhile_ne_of_not_mem clean,
    List.reverse_reverse]
  rfl

theorem splitLast_append (before : List Char) :
    splitLast (before ++ separator :: key) = (before, key) := by
  have clean : separator ∉ key.reverse := mt List.mem_reverse.mp apart
  have reversed : (before ++ separator :: key).reverse =
      key.reverse ++ separator :: before.reverse := by
    simp
  have stops : ∀ c ∈ (separator :: before.reverse).head?, decide (c ≠ separator) = false := by
    intro c first
    cases first
    rfl
  rw [splitLast, reversed, Text.takeWhile_append_of_stops _ stops,
    Text.dropWhile_append_of_stops _ stops, Text.takeWhile_ne_of_not_mem clean,
    Text.dropWhile_ne_of_not_mem clean, List.reverse_reverse, List.nil_append, List.drop_one,
    List.tail_cons, List.reverse_reverse]

theorem splitLast_joinPath (path : List Char) : splitLast (joinPath path key) = (path, key) := by
  rw [joinPath]
  split
  · next atRoot =>
    rw [atRoot]
    exact splitLast_of_not_mem apart
  · exact splitLast_append apart path

end

theorem joinPath_nil (key : List Char) : joinPath [] key = key :=
  if_pos rfl

theorem toList_separator_append (key : String) :
    ("/" ++ key).toList = separator :: key.toList := by
  rw [String.toList_append]
  rfl

theorem exists_joinPath (path : List Char) :
    ∃ before key, separator ∉ key ∧
      (path = joinPath before key ∨ before = [] ∧ path = separator :: key) := by
  by_cases divided : separator ∈ path
  · obtain ⟨reversed, others, whole, clean⟩ :=
      List.eq_append_cons_of_mem (List.mem_reverse.mpr divided)
    have parts : path = others.reverse ++ separator :: reversed.reverse := by
      rw [← List.reverse_reverse path, whole]
      simp
    refine ⟨others.reverse, reversed.reverse, mt List.mem_reverse.mp clean, ?_⟩
    by_cases atRoot : others.reverse = []
    · exact .inr ⟨atRoot, by rw [parts, atRoot, List.nil_append]⟩
    · exact .inl (by rw [joinPath, if_neg atRoot, parts])
  · exact ⟨[], path, divided, .inl (joinPath_nil path).symm⟩

namespace Assignment

theorem path_of_root {assignment : Assignment} (atRoot : assignment.sectionPath = "") :
    assignment.path = assignment.key := by
  rw [path, atRoot, String.toList_empty, joinPath_nil, String.ofList_toList]

theorem path_eq_iff {assignment : Assignment} (apart : separator ∉ assignment.key.toList)
    (before : List Char) {key : List Char} (clean : separator ∉ key) :
    assignment.path = String.ofList (joinPath before key) ↔
      assignment.sectionPath = String.ofList before ∧ assignment.key = String.ofList key := by
  constructor
  · intro same
    have joined := congrArg (splitLast ∘ String.toList) same
    simp only [Function.comp, path, String.toList_ofList, splitLast_joinPath apart,
      splitLast_joinPath clean, Prod.mk.injEq] at joined
    rw [← joined.1, ← joined.2, String.ofList_toList, String.ofList_toList]
    exact ⟨rfl, rfl⟩
  · rintro ⟨inside, named⟩
    rw [path, inside, named, String.toList_ofList, String.toList_ofList]

end Assignment

namespace Outline

def valueAt? (outline : Outline) (path : String) : Option String :=
  (outline.assignments.filter (·.path == path)).getLast?.map Assignment.value

variable {outline : Outline}

theorem valueAt?_eq_none {path : String}
    (absent : ∀ assignment ∈ outline.assignments, assignment.path ≠ path) :
    outline.valueAt? path = none := by
  have empty : outline.assignments.filter (·.path == path) = [] := by
    rw [List.filter_eq_nil_iff]
    intro assignment member same
    exact absent assignment member (beq_iff_eq.mp same)
  rw [valueAt?, empty]
  rfl

theorem valueAt?_ne_none {assignment : Assignment} (member : assignment ∈ outline.assignments) :
    outline.valueAt? assignment.path ≠ none := by
  have found : assignment ∈ outline.assignments.filter (·.path == assignment.path) :=
    List.mem_filter.mpr ⟨member, beq_self_eq_true _⟩
  rw [valueAt?, Ne, Option.map_eq_none_iff, List.getLast?_eq_none_iff]
  exact List.ne_nil_of_mem found

theorem get?_of_splitLast (clean : ∀ assignment ∈ outline.assignments,
      separator ∉ assignment.key.toList)
    {path : String} {before key : List Char} (apart : separator ∉ key)
    (parts : splitLast path.toList = (before, key)) :
    outline.get? path = outline.valueAt? (String.ofList (joinPath before key)) := by
  have same : ∀ assignment ∈ outline.assignments,
      (assignment.sectionPath == String.ofList before && assignment.key == String.ofList key) =
        (assignment.path == String.ofList (joinPath before key)) := by
    intro assignment member
    rw [Bool.eq_iff_iff, Bool.and_eq_true, beq_iff_eq, beq_iff_eq, beq_iff_eq]
    exact (Assignment.path_eq_iff (clean assignment member) _ apart).symm
  rw [get?, parts, valueAt?, ← List.filter_congr same, List.getLast?_filter]

namespace Spelled

variable (spelled : outline.Spelled)
include spelled

theorem separator_not_mem_key : ∀ assignment ∈ outline.assignments,
    separator ∉ assignment.key.toList := by
  intro assignment member
  exact Document.not_mem_of_isWord (spelled.isKey_of_mem assignment member) (by decide) (by decide)

theorem head?_path : ∀ assignment ∈ outline.assignments,
    assignment.path.toList.head?.any Char.isAlpha = true := by
  have begins {p : Char → Bool} {text : List Char} (word : isWord p text = true) :
      text.head?.any Char.isAlpha = true := by
    cases text with
    | nil => cases word
    | cons first tail => exact (Bool.and_eq_true_iff.mp word).1
  intro assignment member
  rcases spelled.sectionPath_of_mem assignment member with atRoot | ⟨header, known, same⟩
  · rw [Assignment.path_of_root atRoot]
    exact begins (spelled.isKey_of_mem assignment member)
  · have letter := begins (spelled.headers header known)
    rw [same] at letter
    rw [Assignment.path, String.toList_ofList]
    cases opening : assignment.sectionPath.toList with
    | nil => rw [opening] at letter; cases letter
    | cons first tail =>
      rw [opening] at letter
      rw [joinPath, if_neg (List.cons_ne_nil first tail)]
      exact letter

end Spelled

/-- The lookup gives the value last assigned at a path, for every path but one kind: a separator in
front of a key of the root leads to that key, although no assignment has such a path. -/
theorem lookup_gives_last {octets : List UInt8} (read : Outline.read octets = .ok outline) :
    (∀ path, (∀ assignment ∈ outline.assignments, assignment.sectionPath = "" →
        path ≠ "/" ++ assignment.key) → outline.get? path = outline.valueAt? path) ∧
      ∀ assignment ∈ outline.assignments, assignment.sectionPath = "" →
        outline.get? ("/" ++ assignment.key) = outline.valueAt? assignment.key ∧
          outline.valueAt? assignment.key ≠ none ∧
          outline.valueAt? ("/" ++ assignment.key) = none := by
  have spelled := spelled_of_read read
  have clean := spelled.separator_not_mem_key
  -- no path of an assignment begins with a separator
  have unassigned (key : String) : outline.valueAt? ("/" ++ key) = none := by
    apply valueAt?_eq_none
    intro assignment member same
    have letter := spelled.head?_path assignment member
    rw [same, toList_separator_append] at letter
    cases letter
  have behind {path : String} {key : List Char} (apart : separator ∉ key)
      (spells : path.toList = separator :: key) :
      outline.get? path = outline.valueAt? (String.ofList key) := by
    have parts := splitLast_append apart []
    rw [List.nil_append, ← spells] at parts
    rw [get?_of_splitLast clean apart parts, joinPath_nil]
  constructor
  · intro path other
    obtain ⟨before, key, apart, joined | ⟨-, spells⟩⟩ := exists_joinPath path.toList
    · have parts := splitLast_joinPath apart before
      rw [← joined] at parts
      rw [get?_of_splitLast clean apart parts, ← joined, String.ofList_toList]
    · have whole : path = "/" ++ String.ofList key := by
        rw [← String.toList_inj, spells, toList_separator_append, String.toList_ofList]
      rw [behind apart spells, whole, unassigned]
      apply valueAt?_eq_none
      intro assignment member same
      rw [← joinPath_nil key] at same
      obtain ⟨inside, named⟩ := (Assignment.path_eq_iff (clean assignment member) _ apart).mp same
      exact other assignment member inside (named ▸ whole)
  · intro assignment member atRoot
    have apart := clean assignment member
    have found := valueAt?_ne_none member
    rw [Assignment.path_of_root atRoot] at found
    rw [behind apart (toList_separator_append _), String.ofList_toList]
    exact ⟨rfl, found, unassigned assignment.key⟩

theorem lookup_gives_last_of_reopened :
    let octets := Text.Utf8.encode "x = 1\n[a/]\nx = 2\n[b]\n[a/]\nx = 3\n".toList
    let outline : Outline := {
      headers := [⟨"a/", 2⟩, ⟨"b", 4⟩, ⟨"a/", 5⟩]
      assignments := [⟨"", "x", "1", 1⟩, ⟨"a/", "x", "2", 3⟩, ⟨"a/", "x", "3", 6⟩] }
    Outline.read octets = .ok outline ∧
      outline.get? "a//x" = some "3" ∧ outline.valueAt? "a//x" = some "3" ∧
      outline.get? ("/" ++ "x") = some "1" ∧ outline.valueAt? "x" = some "1" := by
  intro octets outline
  have read : Outline.read octets = .ok outline := by decide +kernel
  obtain ⟨agrees, behind⟩ := lookup_gives_last read
  have inside : outline.valueAt? "a//x" = some "3" := by decide +kernel
  have atRoot : outline.valueAt? "x" = some "1" := by decide +kernel
  have here := (behind ⟨"", "x", "1", 1⟩ List.mem_cons_self rfl).1
  rw [atRoot] at here
  have there := agrees "a//x" (by decide +kernel)
  rw [inside] at there
  exact ⟨read, there, inside, here, atRoot⟩

/-- A path with a separator in front of it, which no assignment has and which still finds a value. -/
theorem lookup_finds_unassigned :
    let outline : Outline := { assignments := [⟨"", "x", "1", 1⟩] }
    Outline.read (Text.Utf8.encode "x = 1\n".toList) = .ok outline ∧
      outline.get? "/x" = some "1" ∧ outline.valueAt? "/x" = none ∧
      ∀ assignment ∈ outline.assignments, assignment.path ≠ "/x" := by
  decide +kernel

end Outline

end ConfigTree
