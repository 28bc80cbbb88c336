import ConfigTree.Proofs.Document.Recorded

/-!
A tree read from its own document. The assignments of the document are changes of the tree, and each
of them reaches the leaf that it was written for, however deep that leaf lies.

Main statement: `Section.reload_eq`.
-/

namespace ConfigTree

theorem joinPath_joinPath (path : List Char) {name : List Char} (nonempty : name ≠ [])
    (key : List Char) :
    joinPath (joinPath path name) key = joinPath path (joinPath name key) := by
  by_cases empty : path = []
  · simp only [joinPath, if_pos empty]
  · have filled : path ++ separator :: name ≠ [] := by simp
    simp only [joinPath, if_neg empty, if_neg nonempty, if_neg filled, List.append_assoc,
      List.cons_append]

namespace Change

theorem below_nil (change : Change) : change.below [] = change := by
  rw [below, joinPath, if_pos rfl, String.ofList_toList]

theorem below_below (path : List Char) {name : List Char} (nonempty : name ≠ [])
    (change : Change) : (change.below name).below path = change.below (joinPath path name) := by
  simp only [below, String.toList_ofList, joinPath_joinPath path nonempty]

end Change

namespace Section

theorem map_change_leafNotes (level : Section) (path : List Char) :
    (level.leafNotes (String.ofList path)).map Note.change =
      level.leafChanges.map (Change.below path) := by
  induction level with
  | empty => rfl
  | leaf item rest ih =>
    have own : Note.change ⟨String.ofList path, item.name, item.bareText⟩ =
        Change.below path ⟨item.name, item.bareText⟩ := by
      rw [Note.change, Change.below, String.toList_ofList]
    rw [leafNotes, leafChanges, List.map_cons, List.map_cons, own, ih]
  | branch name maxLength child rest _ ih => exact ih

theorem map_change_branchNotes {level : Section} (named : level.Named IsSegment IsSegment)
    (path : List Char) :
    (level.branchNotes path).map Note.change =
      level.branchChanges.map (Change.below path) := by
  induction level generalizing path with
  | empty => rfl
  | leaf item rest ih => exact ih named.2 path
  | branch name maxLength child rest ihChild ihRest =>
    have nonempty : name.toList ≠ [] := by simpa using named.1.1
    have join : (fun change : Change => (change.below name.toList).below path) =
        Change.below (joinPath path name.toList) := by
      funext change
      exact Change.below_below path nonempty change
    calc
      _ = (child.leafChanges ++ child.branchChanges).map
              (Change.below (joinPath path name.toList)) ++
            rest.branchChanges.map (Change.below path) := by
        simp only [branchNotes, List.map_append, map_change_leafNotes, ihChild named.2.1,
          ihRest named.2.2]
      _ = _ := by
        simp only [branchChanges, List.map_append, List.map_map, Function.comp_def, join]

theorem changes_octets {root : Section} (legible : root.Legible) :
    ∃ after, Outline.recorder.readLines 1 { state := {} } (Document.lines root.octets) =
        (after, none) ∧
      after.state.changes = root.leafChanges ++ root.branchChanges := by
  obtain ⟨after, recorded, _, notes⟩ := records_octets legible
  have same : Change.below [] = id := by
    funext change
    exact change.below_nil
  have own := map_change_leafNotes root []
  have below := map_change_branchNotes legible.segments []
  rw [same, List.map_id] at own below
  refine ⟨after, recorded, ?_⟩
  rw [Outline.changes_eq, notes, List.map_append, ← own, ← below]

/-- Loading a tree from its own text binds every leaf to what its own text denotes, if it denotes
anything, and leaves all others unbound. The number of assignments applied is the number of leaves
that are bound by it. -/
theorem reload_eq {root : Section} (legible : root.Legible) (distinct : root.Distinct) :
    root.reload =
      (.ok (root.leaves.countP fun item => item.reread.value.isSome),
        root.mapLeaves Leaf.reread) := by
  have named := legible.segments
  obtain ⟨after, recorded, changes⟩ := changes_octets legible
  rw [reload, load_of_recorded ((named_unbound root).mpr named) recorded, changes,
    replay_changes distinct named]

theorem reload_eq_of_nested :
    let tree (initial : Option Value) (text : String) :=
      leaf { name := "x", kind := .boolean, value := some (.boolean true) }
        (branch "a" 0
          (leaf { name := "x", kind := .char, value := initial }
            (leaf { name := "y", kind := .string, maxLength := 2, value := some (.string text) }
              empty))
          empty)
    (tree none "long").Legible ∧ (tree none "long").Distinct ∧
      (tree none "long").reload = (.ok 3, tree (some (.char 'N')) "lo") := by
  intro tree
  have legible : (tree none "long").Legible :=
    ⟨by decide +kernel, by decide +kernel, by decide +kernel⟩
  have distinct : (tree none "long").Distinct := by decide +kernel
  have count : (tree none "long").leaves.countP (fun item => item.reread.value.isSome) = 3 := by
    decide +kernel
  have reached : (tree none "long").mapLeaves Leaf.reread = tree (some (.char 'N')) "lo" := by
    decide +kernel
  refine ⟨legible, distinct, ?_⟩
  rw [reload_eq legible distinct, count, reached]

end Section

end ConfigTree
