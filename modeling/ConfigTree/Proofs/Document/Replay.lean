import ConfigTree.Proofs.Document.Assigned
import ConfigTree.Proofs.Tree.Changes

/-!
Loading a document by setting leaves. An outline says which paths a document assigns which texts,
and setting these one after the other leaves the tree that loading the document leaves. The loader
takes two steps to a leaf, by the path of the section and by the name in it; setting resolves the
joined path at once.

Main statement: `Section.load_eq_replay`.
-/

namespace ConfigTree

def Outline.changes (outline : Outline) : List Change :=
  outline.assignments.map fun assignment => ⟨assignment.path, assignment.value⟩

def Note.change (note : Note) : Change :=
  ⟨String.ofList (joinPath note.sectionPath.toList note.key.toList), note.value⟩

theorem Outline.changes_eq (outline : Outline) :
    outline.changes = outline.notes.map Note.change := by
  rw [notes, List.map_map]
  rfl

namespace Section

theorem assign?_eq_decodeAt? {root : Section} (named : root.Named IsSegment IsSegment) {note : Note}
    (apart : separator ∉ note.key.toList) :
    root.assign? note = root.decodeAt? note.change.path note.change.text := by
  rw [assign?_eq_editNamed?, Note.change, decodeAt?, edit?_joinPath named note.sectionPath apart,
    Option.bind_assoc]

theorem assignAll_eq_replay {root : Section} (named : root.Named IsSegment IsSegment)
    {notes : List Note} (apart : ∀ note ∈ notes, separator ∉ note.key.toList) :
    root.assignAll notes = root.replay (notes.map Note.change) := by
  induction notes generalizing root with
  | nil => rfl
  | cons note rest ih =>
    have first := assign?_eq_decodeAt? named (apart note List.mem_cons_self)
    have others : ∀ other ∈ rest, separator ∉ other.key.toList :=
      fun other member => apart other (List.mem_cons_of_mem note member)
    rw [List.map_cons, replay_cons, assignAll, first]
    cases applied : root.decodeAt? note.change.path note.change.text with
    | none => exact ih named others
    | some after =>
      have shape := unbound_of_assign? (first.trans applied)
      dsimp only
      rw [ih (named_of_unbound shape named) others]

theorem load_of_recorded {root : Section} (named : root.Named IsSegment IsSegment)
    {octets : List UInt8} {after : Document.Progress Outline}
    (recorded : Outline.recorder.readLines 1 { state := {} } (Document.lines octets) =
      (after, none)) :
    root.load octets =
      (.ok (root.replay after.state.changes).2, (root.replay after.state.changes).1) := by
  have origin := Document.fromLines_readLines (Document.lines octets)
  rw [recorded] at origin
  have apart : ∀ note ∈ after.state.notes, separator ∉ note.key.toList := by
    intro note member
    obtain ⟨line, _, given⟩ := origin.notes note member
    cases Document.gives_of_readLine given with
    | assignment _ _ _ _ apart => exact apart
  rw [load_of_readLines_recorder root recorded, assignAll_eq_replay named apart,
    Outline.changes_eq]

/-- Loading a document is setting, one after the other, every path that it assigns. What setting
refuses, because nothing or no leaf is found or because the text is rejected, loading passes over,
and the number of assignments applied is the number of those that are not refused. -/
theorem load_eq_replay {root : Section} (named : root.Named IsSegment IsSegment)
    {octets : List UInt8} {outline : Outline} (read : Outline.read octets = .ok outline) :
    root.load octets =
      (.ok (root.replay outline.changes).2, (root.replay outline.changes).1) := by
  obtain ⟨after, recorded, rfl⟩ := Outline.readLines_of_read read
  exact load_of_recorded named recorded

theorem load_eq_replay_of_flag :
    let root := branch "a" 0 (leaf { name := "x", kind := .boolean } empty) empty
    let octets := Text.Utf8.encode "[a]\nx = 1\nx = 2\n[a/]\nx = 0\n[a/x]\ny = 1".toList
    let outline : Outline := {
      headers := [⟨"a", 1⟩, ⟨"a/", 4⟩, ⟨"a/x", 6⟩]
      assignments := [⟨"a", "x", "1", 2⟩, ⟨"a", "x", "2", 3⟩, ⟨"a/", "x", "0", 5⟩,
        ⟨"a/x", "y", "1", 7⟩] }
    root.Named IsSegment IsSegment ∧ Outline.read octets = .ok outline ∧
      root.load octets =
        (.ok (root.replay outline.changes).2, (root.replay outline.changes).1) := by
  intro root octets outline
  have named : root.Named IsSegment IsSegment := by decide
  have read : Outline.read octets = .ok outline := by decide +kernel
  exact ⟨named, read, load_eq_replay named read⟩

end Section

end ConfigTree
