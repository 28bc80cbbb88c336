import ConfigTree.Proofs.Tree.Reread
import ConfigTree.Proofs.Tree.Shape

/-!
The leaves of a tree under edits. After an edit at one position every leaf is one of before or one
of the new entry. A change of all leaves that keeps their declarations keeps the shape of the tree,
so that every path leads to the same leaf, changed.
-/

namespace ConfigTree

namespace Entry

def leaves : Entry → List Leaf
  | leaf item => [item]
  | branch _ _ child => child.leaves

def mapLeaves (change : Leaf → Leaf) : Entry → Entry
  | leaf item => leaf (change item)
  | branch name maxLength child => branch name maxLength (child.mapLeaves change)

end Entry

namespace Section

section
variable {root level : Section} {entry changed : Entry} {item : Leaf} {position : Position}

theorem mem_leaves_iff : item ∈ level.leaves ↔ ∃ entry ∈ level.toList, item ∈ entry.leaves := by
  induction level with
  | empty => simp [leaves, toList]
  | leaf other rest ih => simp [leaves, toList, Entry.leaves, ih]
  | branch name maxLength child rest _ ih => simp [leaves, toList, Entry.leaves, ih]

theorem mem_leaves_replace {index : Nat} (member : item ∈ (level.replace index entry).leaves) :
    item ∈ entry.leaves ∨ item ∈ level.leaves := by
  rw [mem_leaves_iff, toList_replace] at member
  obtain ⟨other, inside, own⟩ := member
  rcases List.mem_or_eq_of_mem_set inside with kept | rfl
  · exact .inr (mem_leaves_iff.mpr ⟨other, kept, own⟩)
  · exact .inl own

theorem mem_leaves_at? (found : root.at? position = some entry) (member : item ∈ entry.leaves) :
    item ∈ root.leaves := by
  induction position generalizing root with
  | nil => cases found
  | cons index rest ih =>
    cases rest with
    | nil => exact mem_leaves_iff.mpr ⟨entry, List.mem_of_getElem? found, member⟩
    | cons next below =>
      rw [at?_cons_cons] at found
      cases inside : root.get? index with
      | none => rw [inside] at found; cases found
      | some head =>
        rw [inside] at found
        cases head with
        | leaf other => cases found
        | branch name maxLength child =>
          exact mem_leaves_iff.mpr ⟨_, List.mem_of_getElem? inside, ih found⟩

theorem mem_leaves_replaceAt (member : item ∈ (root.replaceAt changed position).leaves) :
    item ∈ changed.leaves ∨ item ∈ root.leaves := by
  induction position generalizing root with
  | nil => exact .inr member
  | cons index rest ih =>
    cases rest with
    | nil => exact mem_leaves_replace member
    | cons next below =>
      rw [replaceAt] at member
      cases inside : root.get? index with
      | none => rw [inside] at member; exact .inr member
      | some head =>
        rw [inside] at member
        cases head with
        | leaf other => exact .inr member
        | branch name maxLength child =>
          rcases mem_leaves_replace member with own | other
          · rcases ih own with new | old
            · exact .inl new
            · exact .inr (mem_leaves_iff.mpr ⟨_, List.mem_of_getElem? inside, old⟩)
          · exact .inr other

/-- What the change of an entry keeps of the leaves in it, the edit keeps of all leaves. -/
theorem forall_leaves_editAt? {P : Leaf → Prop} {after : Section}
    {change : Entry → Except Fault Entry}
    (edited : root.editAt? position change = some (.ok after))
    (kept : ∀ entry changed, root.at? position = some entry → change entry = .ok changed →
      (∀ item ∈ entry.leaves, P item) → ∀ item ∈ changed.leaves, P item)
    (all : ∀ item ∈ root.leaves, P item) : ∀ item ∈ after.leaves, P item := by
  rw [editAt?] at edited
  obtain ⟨entry, found, result⟩ := Option.map_eq_some_iff.mp edited
  cases answer : change entry with
  | error fault => rw [answer] at result; cases result
  | ok changed =>
    rw [answer] at result
    cases result
    have own : ∀ item ∈ entry.leaves, P item :=
      fun item member => all item (mem_leaves_at? found member)
    intro item member
    rcases mem_leaves_replaceAt member with new | old
    · exact kept entry changed found answer own item new
    · exact all item old

end

theorem leaves_unbound (level : Section) : level.unbound.leaves = level.leaves.map Leaf.unbind := by
  induction level with
  | empty => rfl
  | leaf item rest ih => rw [unbound, leaves, leaves, List.map_cons, ih]
  | branch name maxLength child rest ihChild ihRest =>
    rw [unbound, leaves, leaves, List.map_append, ihChild, ihRest]

theorem kind_of_unbound {schema root : Section} (shape : root.unbound = schema.unbound)
    {item : Leaf} (member : item ∈ root.leaves) :
    ∃ other ∈ schema.leaves, other.kind = item.kind := by
  have declared : item.unbind ∈ schema.unbound.leaves := by
    rw [← shape, leaves_unbound]
    exact List.mem_map_of_mem member
  rw [leaves_unbound] at declared
  obtain ⟨other, inside, same⟩ := List.mem_map.mp declared
  have kinds : other.unbind.kind = item.unbind.kind := congrArg Leaf.kind same
  exact ⟨other, inside, kinds⟩

theorem names_unbound (level : Section) : level.unbound.names = level.names := by
  rw [names, names, toList_unbound, List.map_map]
  refine List.map_congr_left fun entry _ => ?_
  cases entry <;> rfl

theorem distinct_unbound (level : Section) : level.unbound.Distinct ↔ level.Distinct := by
  induction level with
  | empty => rfl
  | leaf item rest ih => simp only [unbound, Distinct, Leaf.unbind, names_unbound, ih]
  | branch name maxLength child rest ihChild ihRest =>
    simp only [unbound, Distinct, names_unbound, ihChild, ihRest]

theorem distinct_of_unbound {schema root : Section} (shape : root.unbound = schema.unbound)
    (distinct : schema.Distinct) : root.Distinct := by
  rw [← distinct_unbound, shape, distinct_unbound]
  exact distinct

section
variable {change : Leaf → Leaf}

theorem toList_mapLeaves (level : Section) :
    (level.mapLeaves change).toList = level.toList.map (Entry.mapLeaves change) := by
  induction level with
  | empty => rfl
  | leaf item rest ih => simp [mapLeaves, toList, Entry.mapLeaves, ih]
  | branch name maxLength child rest _ ih => simp [mapLeaves, toList, Entry.mapLeaves, ih]

theorem get?_mapLeaves (level : Section) (index : Nat) :
    (level.mapLeaves change).get? index = (level.get? index).map (Entry.mapLeaves change) := by
  rw [get?, get?, toList_mapLeaves, List.getElem?_map]

theorem at?_mapLeaves (root : Section) (position : Position) :
    (root.mapLeaves change).at? position = (root.at? position).map (Entry.mapLeaves change) := by
  induction position generalizing root with
  | nil => rfl
  | cons index rest ih =>
    cases rest with
    | nil => exact get?_mapLeaves root index
    | cons next below =>
      rw [at?_cons_cons, at?_cons_cons, get?_mapLeaves]
      cases root.get? index with
      | none => rfl
      | some entry =>
        cases entry with
        | leaf item => rfl
        | branch name maxLength child => exact ih child

section
variable (keeps : ∀ item, (change item).unbind = item.unbind)
include keeps

theorem unbound_mapLeaves (level : Section) : (level.mapLeaves change).unbound = level.unbound := by
  induction level with
  | empty => rfl
  | leaf item rest ih => rw [mapLeaves, unbound, unbound, keeps, ih]
  | branch name maxLength child rest ihChild ihRest =>
    rw [mapLeaves, unbound, unbound, ihChild, ihRest]

theorem entry?_mapLeaves (root : Section) (path : String) :
    Section.entry? (root.mapLeaves change) path =
      (root.entry? path).map (Entry.mapLeaves change) := by
  unfold entry?
  rw [locate?_of_unbound (unbound_mapLeaves keeps root)]
  cases root.locate? path.toList with
  | none => rfl
  | some position => exact at?_mapLeaves root position

theorem get_mapLeaves {root : Section} {path : String} {item : Leaf}
    (found : root.entry? path = some (.leaf item)) :
    (root.mapLeaves change).get path = .ok (change item).text := by
  rw [get, entry?_mapLeaves keeps, found]
  rfl

end

end

theorem mem_leaves_entry? {root : Section} {path : String} {item : Leaf}
    (found : root.entry? path = some (.leaf item)) : item ∈ root.leaves := by
  unfold entry? at found
  obtain ⟨position, _, inside⟩ := Option.bind_eq_some_iff.mp found
  exact mem_leaves_at? inside (List.mem_singleton.mpr rfl)

end Section

end ConfigTree
