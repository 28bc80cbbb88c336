import ConfigTree.Proofs.Tree.Targets

/-!
Walks through a tree. A path that resolves, resolves to the way of a walk: every index on it but the
last leads into the child of a branch, and the names that are met on it spell the path. So reading
and changing an entry by its path find what they look for wherever the path resolves, whatever the
names of the tree are.

Main statement: `Section.resolves_to_walk`.
-/

namespace ConfigTree.Section

/-- A walk along a position, the names that are met on it, and the entry at its end. All that is
passed on the way is a branch, and the walk goes on in its child. -/
inductive Walk : Section → Position → List String → Entry → Prop where
  | last {level : Section} {index : Nat} {entry : Entry} (inside : level.get? index = some entry) :
      Walk level [index] [entry.name] entry
  | into {level child : Section} {index maxLength : Nat} {name : String} {position : Position}
      {names : List String} {entry : Entry}
      (inside : level.get? index = some (.branch name maxLength child))
      (below : Walk child position names entry) :
      Walk level (index :: position) (name :: names) entry

namespace Walk

variable {root : Section} {position : Position} {names : List String} {entry : Entry}

theorem position_ne_nil (walk : Walk root position names entry) : position ≠ [] := by
  cases walk with
  | last inside => exact List.cons_ne_nil _ _
  | into inside below => exact List.cons_ne_nil _ _

theorem names_ne_nil (walk : Walk root position names entry) : names ≠ [] := by
  cases walk with
  | last inside => exact List.cons_ne_nil _ _
  | into inside below => exact List.cons_ne_nil _ _

theorem at? (walk : Walk root position names entry) : root.at? position = some entry := by
  induction walk with
  | last inside => exact inside
  | into inside below ih =>
    obtain ⟨next, rest, rfl⟩ := List.exists_cons_of_ne_nil below.position_ne_nil
    rw [at?_cons_cons, inside]
    exact ih

theorem at?_replaceAt (walk : Walk root position names entry) (changed : Entry) :
    (root.replaceAt changed position).at? position = some changed := by
  induction walk with
  | last inside => exact get?_replace_self inside changed
  | into inside below ih =>
    obtain ⟨next, rest, rfl⟩ := List.exists_cons_of_ne_nil below.position_ne_nil
    rw [replaceAt_cons inside, at?_cons_cons, get?_replace_self inside]
    exact ih

end Walk

theorem exists_walk_of_pathAt? {root : Section} {position : Position} {path : List Char}
    (spelled : root.pathAt? position = some path) :
    ∃ names entry, Walk root position names entry ∧ path = ("/".intercalate names).toList := by
  induction position generalizing root path with
  | nil => cases spelled
  | cons index rest ih =>
    cases rest with
    | nil =>
      obtain ⟨entry, inside, rfl⟩ := Option.map_eq_some_iff.mp spelled
      exact ⟨[entry.name], entry, .last inside, by rw [String.intercalate_singleton]⟩
    | cons next more =>
      simp only [pathAt?, bind, Option.bind_eq_some_iff, pure, Option.some.injEq] at spelled
      obtain ⟨passed, inside, child, own, below, spelled, rfl⟩ := spelled
      obtain ⟨names, entry, walk, rfl⟩ := ih spelled
      cases passed with
      | leaf item => cases own
      | branch name maxLength inner =>
        cases own
        obtain ⟨first, others, rfl⟩ := List.exists_cons_of_ne_nil walk.names_ne_nil
        refine ⟨name :: first :: others, entry, .into inside walk, ?_⟩
        rw [String.intercalate_cons_cons, String.toList_append, String.toList_append,
          List.append_assoc]
        rfl

theorem exists_walk_of_locate? {root : Section} {path : String} {position : Position}
    (located : root.locate? path.toList = some position) :
    ∃ names entry, Walk root position names entry ∧ path = "/".intercalate names := by
  obtain ⟨names, entry, walk, spelled⟩ := exists_walk_of_pathAt? (pathAt?_of_locate? located)
  exact ⟨names, entry, walk, String.toList_inj.mp spelled⟩

/-- Where a path resolves, it is spelled by the names of a walk, the entry at the end of the walk is
the one that is read and changed by the path, and a changed entry stands in its place. Where it does
not, there is nothing to read or change. No two paths resolve to one position. -/
theorem resolves_to_walk (root : Section) (path : String) :
    (∀ position, root.locate? path.toList = some position →
      position ≠ [] ∧ ∃ names entry, Walk root position names entry ∧
        path = "/".intercalate names ∧
        root.at? position = some entry ∧ root.entry? path = some entry ∧
        (∀ change, root.edit? path change =
          some ((change entry).map fun changed => root.replaceAt changed position)) ∧
        ∀ changed, (root.replaceAt changed position).at? position = some changed) ∧
      (root.locate? path.toList = none →
        root.entry? path = none ∧ ∀ change, root.edit? path change = none) ∧
      ∀ other position, root.locate? path.toList = some position →
        root.locate? other.toList = some position → path = other := by
  refine ⟨?_, ?_, ?_⟩
  · intro position located
    obtain ⟨names, entry, walk, spelled⟩ := exists_walk_of_locate? located
    refine ⟨walk.position_ne_nil, names, entry, walk, spelled, walk.at?, ?_, ?_, walk.at?_replaceAt⟩
    · unfold entry?
      rw [located, Option.bind_some, walk.at?]
    · intro change
      rw [edit?, located, Option.bind_some, editAt?, walk.at?, Option.map_some]
  · intro missing
    refine ⟨?_, fun change => ?_⟩
    · unfold entry?
      rw [missing, Option.bind_none]
    · rw [edit?, missing, Option.bind_none]
  · intro other position located same
    exact String.toList_inj.mp (locate?_injective located same)

/-- A name may be empty, be a separator or hold one. The leaf without a name stands in the way of
all paths that begin with a separator. -/
theorem resolves_to_walk_of_separators :
    let flag (name : String) : Leaf := { name, kind := .boolean }
    let root := leaf (flag "") (branch "a/b" 0 (leaf (flag "/") empty) (leaf (flag "/") empty))
    root.locate? "a/b//".toList = some [1, 0] ∧ root.entry? "a/b//" = some (.leaf (flag "/")) ∧
      (∃ names entry, Walk root [1, 0] names entry ∧ "a/b//" = "/".intercalate names) ∧
      root.locate? "/".toList = none ∧ root.entry? "/" = none := by
  intro flag root
  have located : root.locate? "a/b//".toList = some [1, 0] := by decide +kernel
  have missing : root.locate? "/".toList = none := by decide +kernel
  obtain ⟨-, names, entry, walk, spelled, inside, read, -⟩ :=
    (resolves_to_walk root "a/b//").1 [1, 0] located
  refine ⟨located, ?_, ⟨names, entry, walk, spelled⟩, missing, ?_⟩
  · rw [read, ← inside]
    rfl
  · exact ((resolves_to_walk root "/").2.1 missing).1

end ConfigTree.Section
