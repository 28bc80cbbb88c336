import Mathlib.Data.List.Count
import ConfigTree.Proofs.Document.Assigned

/-!
The last assignment that is accepted decides. What an assignment is meant for and whether it is
accepted depend on the declarations of a tree, and these stay. So each leaf can be followed by
itself through a document, and all that the document does to it is in the texts that are assigned to
it, in their order.

Main statement: `Section.load_last`.
-/

namespace ConfigTree

namespace Leaf

def denoted? (item : Leaf) (text : String) : Option Value :=
  (item.kind.decode item.maxLength text).toOption

/-- The leaf after some texts were assigned to it. It has what the last of them denotes that denotes
anything, and what it had before if there is none. -/
def assigned (item : Leaf) (texts : List String) : Leaf :=
  { item with value := (texts.filterMap item.denoted?).getLast?.or item.value }

theorem assigned_cons_of_none {item : Leaf} {text : String} (refused : item.denoted? text = none)
    (rest : List String) : item.assigned (text :: rest) = item.assigned rest := by
  rw [assigned, List.filterMap_cons_none refused, assigned]

theorem assigned_cons_of_some {item : Leaf} {text : String} {value : Value}
    (accepted : item.denoted? text = some value) (rest : List String) :
    item.assigned (text :: rest) = { item with value := some value }.assigned rest := by
  have same : { item with value := some value }.denoted? = item.denoted? := rfl
  rw [assigned, List.filterMap_cons_some accepted, List.getLast?_cons, assigned, same]
  cases (rest.filterMap item.denoted?).getLast? <;> rfl

end Leaf

def Note.values (notes : List Note) (sectionPath key : String) : List String :=
  (notes.filter fun note => note.sectionPath = sectionPath ∧ note.key = key).map Note.value

namespace Section

/-- The value that an assignment gives to the leaf that it is meant for; none if it is meant for no
leaf, or if its text denotes nothing there. -/
def accepted? (root : Section) (note : Note) : Option Value := do
  let position ← root.target? note.sectionPath note.key
  let item ← root.leafAt? position
  item.denoted? note.value

def textsAt (root : Section) (position : Position) (notes : List Note) : List String :=
  (notes.filter fun note => root.target? note.sectionPath note.key = some position).map Note.value

theorem assign?_eq (root : Section) (note : Note) :
    root.assign? note =
      (root.target? note.sectionPath note.key).bind fun position =>
        (root.leafAt? position).bind fun item =>
          (item.denoted? note.value).map fun value =>
            root.replaceAt (.leaf { item with value := some value }) position := by
  rw [assign?]
  congr
  funext position
  rw [leafAt?, editAt?]
  rcases root.at? position with _ | (item | ⟨name, maxLength, child⟩)
  · rfl
  · simp only [Option.map_some, Option.bind_some, Entry.leaf?, Entry.decode, Leaf.decode,
      Leaf.denoted?]
    cases item.kind.decode item.maxLength note.value <;> rfl
  · rfl

theorem isSome_assign? (root : Section) (note : Note) :
    (root.assign? note).isSome = (root.accepted? note).isSome := by
  rw [assign?_eq, accepted?]
  cases root.target? note.sectionPath note.key with
  | none => rfl
  | some position =>
    cases inside : root.leafAt? position with
    | none => simp [inside]
    | some item => simp [inside]

section
variable {root after first second : Section} {note : Note} {position : Position} {item : Leaf}

theorem accepted?_of_unbound (shape : first.unbound = second.unbound) (note : Note) :
    first.accepted? note = second.accepted? note := by
  have byDeclaration (root : Section) : root.accepted? note =
      (root.target? note.sectionPath note.key).bind fun position =>
        ((root.leafAt? position).map Leaf.unbind).bind (·.denoted? note.value) := by
    rw [accepted?]
    congr
    funext position
    rw [Option.bind_map]
    rfl
  rw [byDeclaration, byDeclaration, target?_of_unbound shape]
  simp only [unbind_leafAt?_of_unbound shape]

theorem textsAt_of_unbound (shape : first.unbound = second.unbound) (position : Position)
    (notes : List Note) : first.textsAt position notes = second.textsAt position notes := by
  simp only [textsAt, target?_of_unbound shape]

theorem unbound_assignAll (root : Section) (notes : List Note) :
    (root.assignAll notes).1.unbound = root.unbound := by
  induction notes generalizing root with
  | nil => rfl
  | cons note rest ih =>
    rw [assignAll]
    cases assigned : root.assign? note with
    | none => exact ih root
    | some after => exact (ih after).trans (unbound_of_assign? assigned)

theorem count_assignAll (root : Section) (notes : List Note) :
    (root.assignAll notes).2 = notes.countP fun note => (root.accepted? note).isSome := by
  induction notes generalizing root with
  | nil => rfl
  | cons note rest ih =>
    have counts := root.isSome_assign? note
    rw [assignAll, List.countP_cons, ← counts]
    cases assigned : root.assign? note with
    | none => exact ih root
    | some after =>
      have same := accepted?_of_unbound (unbound_of_assign? assigned)
      dsimp only
      rw [ih after]
      simp only [same, Option.isSome_some, if_true]

section
variable (target : root.target? note.sectionPath note.key = some position)
include target

theorem textsAt_cons_of_target (rest : List Note) :
    root.textsAt position (note :: rest) = note.value :: root.textsAt position rest := by
  rw [textsAt, List.filter_cons_of_pos (by simpa using target), List.map_cons, textsAt]

theorem assign?_of_target (found : root.leafAt? position = some item) :
    root.assign? note = (item.denoted? note.value).map fun value =>
      root.replaceAt (.leaf { item with value := some value }) position := by
  rw [assign?_eq, target, Option.bind_some, found, Option.bind_some]

end

section
variable (other : root.target? note.sectionPath note.key ≠ some position)
include other

theorem textsAt_cons_of_ne (rest : List Note) :
    root.textsAt position (note :: rest) = root.textsAt position rest := by
  rw [textsAt, List.filter_cons_of_neg (by simpa using other), textsAt]

theorem leafAt?_of_assign?_of_ne (assigned : root.assign? note = some after) :
    after.leafAt? position = root.leafAt? position := by
  rw [assign?_eq] at assigned
  obtain ⟨place, target, assigned⟩ := Option.bind_eq_some_iff.mp assigned
  obtain ⟨old, found, assigned⟩ := Option.bind_eq_some_iff.mp assigned
  obtain ⟨value, _, rfl⟩ := Option.map_eq_some_iff.mp assigned
  have apart : position ≠ place := by
    rintro rfl
    exact other target
  rw [leafAt?_replaceAt found, if_neg apart]

end

/-- The texts assigned to a leaf are all that changes it. -/
theorem leafAt?_assignAll (found : root.leafAt? position = some item) (notes : List Note) :
    (root.assignAll notes).1.leafAt? position =
      some (item.assigned (root.textsAt position notes)) := by
  induction notes generalizing root item with
  | nil => exact found
  | cons note rest ih =>
    rw [assignAll]
    by_cases target : root.target? note.sectionPath note.key = some position
    · have assigned := assign?_of_target target found
      rw [textsAt_cons_of_target target, assigned]
      cases denoted : item.denoted? note.value with
      | none =>
        rw [Leaf.assigned_cons_of_none denoted]
        exact ih found
      | some value =>
        rw [denoted, Option.map_some] at assigned
        have next := leafAt?_replaceAt found { item with value := some value } position
        rw [if_pos rfl] at next
        rw [Leaf.assigned_cons_of_some denoted,
          ← textsAt_of_unbound (unbound_of_assign? assigned) position rest]
        exact ih next
    · -- One for another entry keeps this leaf, and keeps what the later ones are meant for.
      rw [textsAt_cons_of_ne target]
      cases assigned : root.assign? note with
      | none => exact ih found
      | some after =>
        have kept := leafAt?_of_assign?_of_ne target assigned
        rw [← textsAt_of_unbound (unbound_of_assign? assigned) position rest]
        exact ih (kept.trans found)

end

end Section

namespace Note
variable {notes others : List Note}

theorem count_values (notes : List Note) (note : Note) :
    (values notes note.sectionPath note.key).count note.value = notes.count note := by
  rw [values, List.count, List.countP_map, List.countP_filter]
  apply List.countP_congr
  intro other _
  obtain ⟨sectionPath, key, value⟩ := note
  obtain ⟨otherPath, otherKey, otherValue⟩ := other
  simp only [Function.comp, Bool.and_eq_true, beq_iff_eq, decide_eq_true_eq, mk.injEq]
  tauto

theorem perm_of_values
    (same : ∀ sectionPath key, values notes sectionPath key = values others sectionPath key) :
    notes.Perm others := by
  rw [List.perm_iff_count]
  intro note
  rw [← count_values, ← count_values, same]

end Note

namespace Section
variable {root : Section} {notes others : List Note}

theorem textsAt_eq_values {sectionPath key : String} {position : Position}
    (target : root.target? sectionPath key = some position) (notes : List Note) :
    root.textsAt position notes = Note.values notes sectionPath key := by
  rw [textsAt, Note.values]
  congr 1
  apply List.filter_congr
  intro note _
  rw [decide_eq_decide]
  constructor
  · exact fun own => target?_injective own target
  · rintro ⟨rfl, rfl⟩
    exact target

theorem textsAt_of_values (position : Position)
    (same : ∀ sectionPath key,
      Note.values notes sectionPath key = Note.values others sectionPath key) :
    root.textsAt position notes = root.textsAt position others := by
  by_cases meant : ∃ sectionPath key, root.target? sectionPath key = some position
  · obtain ⟨sectionPath, key, target⟩ := meant
    rw [textsAt_eq_values target, textsAt_eq_values target, same]
  · have none (notes : List Note) : root.textsAt position notes = [] := by
      rw [textsAt, List.map_eq_nil_iff, List.filter_eq_nil_iff]
      intro note _ own
      exact meant ⟨_, _, of_decide_eq_true own⟩
    rw [none, none]

theorem assignAll_of_values
    (same : ∀ sectionPath key,
      Note.values notes sectionPath key = Note.values others sectionPath key) :
    root.assignAll notes = root.assignAll others := by
  -- Trees of one shape with the same leaves are the same, and a leaf is a matter of one key.
  have shape := (unbound_assignAll root notes).trans (unbound_assignAll root others).symm
  apply Prod.ext
  · apply eq_of_leafAt? shape
    intro position
    cases found : root.leafAt? position with
    | none =>
      have absent (notes : List Note) : (root.assignAll notes).1.leafAt? position = none := by
        have declared := unbind_leafAt?_of_unbound (unbound_assignAll root notes) position
        rw [found] at declared
        exact Option.map_eq_none_iff.mp declared
      rw [absent, absent]
    | some item =>
      rw [leafAt?_assignAll found, leafAt?_assignAll found, textsAt_of_values position same]
  · rw [count_assignAll, count_assignAll]
    exact (Note.perm_of_values same).countP_eq _

theorem load_of_values (root : Section) {octets more : List UInt8} {outline other : Outline}
    (read : Outline.read octets = .ok outline) (again : Outline.read more = .ok other)
    (same : ∀ sectionPath key,
      Note.values other.notes sectionPath key = Note.values outline.notes sectionPath key) :
    root.load more = root.load octets := by
  rw [load_eq_assignAll root read, load_eq_assignAll root again, assignAll_of_values same]

/-- After a document is loaded each leaf has what the last of the texts assigned to it denotes that
denotes anything, or what it had before. As many assignments count as there are accepted ones. So
documents that assign the same values to every key of every section, each key in the same order,
load alike. -/
theorem load_last (root : Section) {octets : List UInt8} {outline : Outline}
    (read : Outline.read octets = .ok outline) :
    (∃ after,
      root.load octets =
        (.ok (outline.notes.countP fun note => (root.accepted? note).isSome), after) ∧
      after.unbound = root.unbound ∧
      ∀ position item, root.leafAt? position = some item →
        after.leafAt? position = some (item.assigned (root.textsAt position outline.notes))) ∧
    ∀ more other, Outline.read more = .ok other →
      (∀ sectionPath key,
        Note.values other.notes sectionPath key = Note.values outline.notes sectionPath key) →
      root.load more = root.load octets := by
  constructor
  · refine ⟨(root.assignAll outline.notes).1, ?_, unbound_assignAll root outline.notes, ?_⟩
    · rw [load_eq_assignAll root read, count_assignAll]
    · intro position item found
      exact leafAt?_assignAll found outline.notes
  · intro more other again same
    exact load_of_values root read again same

theorem load_last_of_reopened :
    let size : Leaf := { name := "n", kind := .unsigned .w8, value := some (.unsigned .w8 7) }
    let flag : Leaf := { name := "x", kind := .boolean }
    let root := leaf size (branch "a" 0 (leaf flag (leaf flag empty)) empty)
    let octets := Text.Utf8.encode "n = 1\n[a]\nx = on\n[b]\nx = 0\n[a]\nx = ?\nn = 2".toList
    let more := Text.Utf8.encode "n = 1\n[b]\nx = 0\n[a]\nn = 2\nx = on\nx = ?".toList
    let outline : Outline := {
      headers := [⟨"a", 2⟩, ⟨"b", 4⟩, ⟨"a", 6⟩]
      assignments := [⟨"", "n", "1", 1⟩, ⟨"a", "x", "on", 3⟩, ⟨"b", "x", "0", 5⟩,
        ⟨"a", "x", "?", 7⟩, ⟨"a", "n", "2", 8⟩] }
    let other : Outline := {
      headers := [⟨"b", 2⟩, ⟨"a", 4⟩]
      assignments := [⟨"", "n", "1", 1⟩, ⟨"b", "x", "0", 3⟩, ⟨"a", "n", "2", 5⟩,
        ⟨"a", "x", "on", 6⟩, ⟨"a", "x", "?", 7⟩] }
    Outline.read octets = .ok outline ∧ Outline.read more = .ok other ∧
      (∃ after, root.load octets = (.ok 2, after) ∧
        after.leafAt? [0] = some { size with value := some (.unsigned .w8 1) } ∧
        after.leafAt? [1, 0] = some { flag with value := some (.boolean true) } ∧
        after.leafAt? [1, 1] = some flag) ∧
      root.load more = root.load octets := by
  intro size flag root octets more outline other
  have read : Outline.read octets = .ok outline := by decide +kernel
  have again : Outline.read more = .ok other := by decide +kernel
  have same : ∀ sectionPath key,
      Note.values other.notes sectionPath key = Note.values outline.notes sectionPath key := by
    intro sectionPath key
    simp only [Note.values, Outline.notes, other, outline, List.map_cons, List.map_nil,
      Note.ofAssignment, List.filter_cons, List.filter_nil, decide_eq_true_eq]
    split_ifs <;> grind
  have count : outline.notes.countP (fun note => (root.accepted? note).isSome) = 2 := by
    decide +kernel
  have bound : size.assigned (root.textsAt [0] outline.notes) =
      { size with value := some (.unsigned .w8 1) } := by decide +kernel
  have first : flag.assigned (root.textsAt [1, 0] outline.notes) =
      { flag with value := some (.boolean true) } := by decide +kernel
  have second : flag.assigned (root.textsAt [1, 1] outline.notes) = flag := by decide +kernel
  obtain ⟨⟨after, loaded, -, leaves⟩, alike⟩ := load_last root read
  rw [count] at loaded
  refine ⟨read, again, ⟨after, loaded, ?_, ?_, ?_⟩, alike more other again same⟩
  · rw [← bound]
    exact leaves [0] size rfl
  · rw [← first]
    exact leaves [1, 0] flag rfl
  · exact (leaves [1, 1] flag rfl).trans (congrArg some second)

end Section

end ConfigTree
