import ConfigTree.Proofs.Operations.Step
import ConfigTree.Proofs.Tree.Targets

/-!
Setting a leaf. What is read at a path depends on where the path leads and on the leaf there, and no
other path leads to that leaf. So setting the leaf at a path changes what is read at this path and
at no other, whatever the names in the tree are.

Main statement: `Section.set_changes_one`.
-/

namespace ConfigTree

theorem Kind.fault_of_decode {kind : Kind} {maxLength : Nat} {text : String} {fault : Fault}
    (refused : kind.decode maxLength text = .error fault) :
    fault = .undecodable kind text ∨ fault = .unsupported kind := by
  unfold decode at refused
  split at refused
  · split at refused
    · cases refused
    · cases refused
      exact .inl rfl
  · cases refused
    exact .inr rfl

namespace Section

variable {root first second after : Section} {path : String} {text : Option String}
  {position : Position} {item changed : Leaf} {fault : Fault}

theorem leafAt?_eq_some_iff :
    root.leafAt? position = some item ↔ root.at? position = some (.leaf item) := by
  rw [leafAt?]
  rcases root.at? position with _ | (other | _)
  · simp
  · simp [Entry.leaf?]
  · simp [Entry.leaf?]

theorem entry?_eq_leaf_iff : root.entry? path = some (.leaf item) ↔
    ∃ position, root.locate? path.toList = some position ∧ root.leafAt? position = some item := by
  unfold entry?
  rw [Option.bind_eq_some_iff]
  simp only [leafAt?_eq_some_iff]

theorem get_of_entry? (found : root.entry? path = some (.leaf item)) :
    root.get path = .ok item.text := by
  rw [get, found]

theorem get_congr (shape : first.unbound = second.unbound)
    (same : ∀ position, first.locate? path.toList = some position →
      first.leafAt? position = second.leafAt? position) : first.get path = second.get path := by
  rw [get, get, entry?, entry?, ← locate?_of_unbound shape]
  cases located : first.locate? path.toList with
  | none => rfl
  | some position =>
    have declared : (first.at? position).map (Entry.mapLeaves Leaf.unbind) =
        (second.at? position).map (Entry.mapLeaves Leaf.unbind) := by
      rw [← at?_mapLeaves, ← at?_mapLeaves, ← unbound_eq_mapLeaves, ← unbound_eq_mapLeaves, shape]
    have leaves := same position located
    rw [leafAt?, leafAt?] at leaves
    rw [Option.bind_some, Option.bind_some]
    generalize first.at? position = here at declared leaves
    generalize second.at? position = there at declared leaves
    rcases here with _ | (item | ⟨name, maxLength, child⟩)
    · rw [Option.map_eq_none_iff.mp declared.symm]
    · rcases there with _ | (other | _)
      · cases declared
      · cases leaves
        rfl
      · cases leaves
    · rcases there with _ | (other | _)
      · cases declared
      · cases leaves
      · rfl

theorem set_of_none (missing : root.entry? path = none) :
    root.set path text = .error (.pathNotFound path) := by
  unfold entry? at missing
  rw [set, edit?]
  cases located : root.locate? path.toList with
  | none => rfl
  | some position =>
    rw [located, Option.bind_some] at missing
    rw [Option.bind_some, editAt?, missing]
    rfl

theorem set_of_isBranch {entry : Entry} (found : root.entry? path = some entry)
    (isBranch : entry.isBranch = true) : root.set path text = .error (.notALeaf path) := by
  obtain ⟨position, located, inside⟩ := Option.bind_eq_some_iff.mp found
  rw [set, edit?, located, Option.bind_some, editAt?, inside]
  cases entry with
  | leaf item => cases isBranch
  | branch name maxLength child => rfl

theorem set_of_leafAt? (located : root.locate? path.toList = some position)
    (found : root.leafAt? position = some item) :
    root.set path text = (item.kind.decode item.maxLength (text.getD nullText)).map fun value =>
      root.replaceAt (.leaf { item with value := some value }) position := by
  rw [set, edit?, located, Option.bind_some, editAt?, leafAt?_eq_some_iff.mp found]
  simp only [Option.map_some, Option.getD_some, Leaf.decode]
  cases item.kind.decode item.maxLength (text.getD nullText) <;> rfl

theorem exists_of_set_ok (accepted : root.set path text = .ok after) :
    ∃ position item value, root.locate? path.toList = some position ∧
      root.leafAt? position = some item ∧
      item.kind.decode item.maxLength (text.getD nullText) = .ok value ∧
      after = root.replaceAt (.leaf { item with value := some value }) position := by
  rcases found : root.entry? path with _ | (item | ⟨name, maxLength, child⟩)
  · rw [set_of_none found] at accepted
    cases accepted
  · obtain ⟨position, located, inside⟩ := entry?_eq_leaf_iff.mp found
    rw [set_of_leafAt? located inside] at accepted
    cases decoded : item.kind.decode item.maxLength (text.getD nullText) with
    | error fault => rw [decoded] at accepted; cases accepted
    | ok value =>
      rw [decoded] at accepted
      cases accepted
      exact ⟨position, item, value, located, inside, decoded, rfl⟩
  · rw [set_of_isBranch found rfl] at accepted
    cases accepted

theorem cases_of_set_error (refused : root.set path text = .error fault) :
    root.entry? path = none ∧ fault = .pathNotFound path ∨
      (∃ entry, root.entry? path = some entry ∧ entry.isBranch = true) ∧ fault = .notALeaf path ∨
      ∃ item, root.entry? path = some (.leaf item) ∧
        item.kind.decode item.maxLength (text.getD nullText) = .error fault := by
  rcases found : root.entry? path with _ | (item | ⟨name, maxLength, child⟩)
  · rw [set_of_none found] at refused
    cases refused
    exact .inl ⟨rfl, rfl⟩
  · obtain ⟨position, located, inside⟩ := entry?_eq_leaf_iff.mp found
    rw [set_of_leafAt? located inside] at refused
    cases decoded : item.kind.decode item.maxLength (text.getD nullText) with
    | error other =>
      rw [decoded] at refused
      cases refused
      exact .inr (.inr ⟨item, rfl, decoded⟩)
    | ok value => rw [decoded] at refused; cases refused
  · rw [set_of_isBranch found rfl] at refused
    cases refused
    exact .inr (.inl ⟨⟨_, rfl, rfl⟩, rfl⟩)

section
variable (found : root.leafAt? position = some item) (same : changed.unbind = item.unbind)
include found same

theorem unbound_replaceAt_leaf :
    (root.replaceAt (.leaf changed) position).unbound = root.unbound :=
  unbound_replaceAt (leafAt?_eq_some_iff.mp found) (congrArg Entry.leaf same)

theorem get_replaceAt_self (located : root.locate? path.toList = some position) :
    (root.replaceAt (.leaf changed) position).get path = .ok changed.text := by
  apply get_of_entry?
  apply entry?_eq_leaf_iff.mpr
  refine ⟨position, ?_, ?_⟩
  · rw [locate?_of_unbound (unbound_replaceAt_leaf found same), located]
  · rw [leafAt?_replaceAt found, if_pos rfl]

theorem get_replaceAt_of_ne (located : root.locate? path.toList = some position) {other : String}
    (apart : other ≠ path) :
    (root.replaceAt (.leaf changed) position).get other = root.get other := by
  have shape := unbound_replaceAt_leaf found same
  apply get_congr shape
  intro place leads
  rw [locate?_of_unbound shape] at leads
  have elsewhere : place ≠ position := by
    intro equal
    rw [equal] at leads
    exact apart (String.toList_inj.mp (locate?_injective leads located))
  rw [leafAt?_replaceAt found, if_neg elsewhere]

end

/-- Setting a path changes one leaf or nothing. Where it succeeds, the path leads to a leaf, and
reading at the path gives the text of the value that the new text denotes there; reading at any
other path gives what it gave before, and the leaves at all other positions and the declarations are
those of before. Where it fails, the tree stays as it is, and the fault says that the path leads
nowhere, that it leads to a branch, or why the leaf refuses the text. -/
theorem set_changes_one (root : Section) (path : String) (text : Option String) :
    (∀ after, root.set path text = .ok after →
      ∃ position item value, root.locate? path.toList = some position ∧
        root.entry? path = some (.leaf item) ∧
        item.kind.decode item.maxLength (text.getD nullText) = .ok value ∧
        after.get path = .ok ((item.kind.encode value).getD nullText) ∧
        (∀ other, other ≠ path → after.get other = root.get other) ∧
        (∀ place, place ≠ position → after.leafAt? place = root.leafAt? place) ∧
        after.unbound = root.unbound) ∧
    ∀ fault, root.set path text = .error fault →
      (Operation.set path text).apply root = root ∧
      (fault = .pathNotFound path ↔ root.entry? path = none) ∧
      (fault = .notALeaf path ↔
        ∃ entry, root.entry? path = some entry ∧ entry.isBranch = true) ∧
      ∀ item, root.entry? path = some (.leaf item) →
        item.kind.decode item.maxLength (text.getD nullText) = .error fault := by
  constructor
  · intro after accepted
    obtain ⟨position, item, value, located, found, decoded, rfl⟩ := exists_of_set_ok accepted
    have same : ({ item with value := some value } : Leaf).unbind = item.unbind := rfl
    refine ⟨position, item, value, located, entry?_eq_leaf_iff.mpr ⟨position, located, found⟩,
      decoded, get_replaceAt_self found same located, ?_, ?_, unbound_replaceAt_leaf found same⟩
    · intro other apart
      exact get_replaceAt_of_ne found same located apart
    · intro place elsewhere
      rw [leafAt?_replaceAt found, if_neg elsewhere]
  · intro fault refused
    have kept : (Operation.set path text).apply root = root := by
      rw [Operation.apply, refused]
      rfl
    refine ⟨kept, ?_⟩
    rcases cases_of_set_error refused with ⟨missing, rfl⟩ | ⟨⟨entry, found, isBranch⟩, rfl⟩ |
      ⟨item, found, decoded⟩
    · simp [missing]
    · cases entry with
      | leaf item => cases isBranch
      | branch name maxLength child => simp [found, Entry.isBranch, Entry.child?]
    · rcases Kind.fault_of_decode decoded with rfl | rfl <;>
        simp [found, decoded, Entry.isBranch, Entry.child?]

theorem set_changes_one_of_shadowed :
    let flag : Leaf := { name := "a", kind := .boolean }
    let letter : Leaf := { name := "a/b", kind := .char, value := some (.char 'c') }
    let root := leaf letter (leaf flag (branch "a" 0 (leaf { flag with name := "" } empty) empty))
    (∃ after, root.set "a" (some "on") = .ok after ∧ after.get "a" = .ok "True" ∧
        after.get "a/b" = root.get "a/b" ∧ after.leafAt? [2, 0] = root.leafAt? [2, 0]) ∧
      root.set "a" none = .error (.undecodable .boolean "NULL") ∧
      (Operation.set "a" none).apply root = root := by
  intro flag letter root
  let after := leaf letter (leaf { flag with value := some (.boolean true) }
    (branch "a" 0 (leaf { flag with name := "" } empty) empty))
  have accepted : root.set "a" (some "on") = .ok after := by decide +kernel
  have refused : root.set "a" none = .error (.undecodable .boolean "NULL") := by decide +kernel
  obtain ⟨position, item, value, located, found, decoded, read, others, leaves, -⟩ :=
    (set_changes_one root "a" (some "on")).1 after accepted
  have here : root.locate? "a".toList = some [1] := by decide +kernel
  have own : root.entry? "a" = some (.leaf flag) := by decide +kernel
  have denoted : flag.kind.decode flag.maxLength "on" = .ok (.boolean true) := by decide +kernel
  cases here.symm.trans located
  cases own.symm.trans found
  cases denoted.symm.trans decoded
  refine ⟨⟨after, accepted, read, others "a/b" (by decide), leaves [2, 0] (by decide)⟩, refused, ?_⟩
  exact ((set_changes_one root "a" none).2 _ refused).1

end Section

end ConfigTree
