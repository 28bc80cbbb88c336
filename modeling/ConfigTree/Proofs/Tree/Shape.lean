import ConfigTree.Tree.Path

/-!
The shape of a tree is the tree without its values. Paths are resolved by the shape alone, and an
edit that keeps the declaration of an entry keeps the shape of the whole tree.
-/

namespace ConfigTree

namespace Leaf

theorem exists_of_decode {item changed : Leaf} {text : String}
    (decoded : item.decode text = .ok changed) :
    ∃ value, item.kind.decode item.maxLength text = .ok value ∧
      changed = { item with value := some value } := by
  rw [decode] at decoded
  cases read : item.kind.decode item.maxLength text with
  | error fault => rw [read] at decoded; cases decoded
  | ok value =>
    rw [read] at decoded
    cases decoded
    exact ⟨value, rfl, rfl⟩

theorem exists_of_bind {item changed : Leaf} {value : Value}
    (bound : item.bind value = .ok changed) :
    item.kind.holds value = true ∧ changed = { item with value := some value } := by
  rw [bind] at bound
  split at bound
  · next held =>
    cases bound
    exact ⟨held, rfl⟩
  · cases bound

end Leaf

namespace Entry

def unbound : Entry → Entry
  | leaf item => leaf item.unbind
  | branch name maxLength child => branch name maxLength child.unbound

@[simp] theorem unbound_leaf (item : Leaf) : (leaf item).unbound = leaf item.unbind := rfl

@[simp] theorem unbound_branch (name : String) (maxLength : Nat) (child : Section) :
    (branch name maxLength child).unbound = branch name maxLength child.unbound := rfl

theorem exists_of_decode {entry changed : Entry} {text : String}
    (decoded : entry.decode text = .ok changed) :
    ∃ item other, entry = .leaf item ∧ item.decode text = .ok other ∧ changed = .leaf other := by
  cases entry with
  | leaf item =>
    rw [decode] at decoded
    cases own : item.decode text with
    | error fault => rw [own] at decoded; cases decoded
    | ok other =>
      rw [own] at decoded
      cases decoded
      exact ⟨item, other, rfl, own, rfl⟩
  | branch name maxLength child => cases decoded

theorem exists_of_bind {entry changed : Entry} {value : Value}
    (bound : entry.bind value = .ok changed) :
    ∃ item other, entry = .leaf item ∧ item.bind value = .ok other ∧ changed = .leaf other := by
  cases entry with
  | leaf item =>
    rw [bind] at bound
    cases own : item.bind value with
    | error fault => rw [own] at bound; cases bound
    | ok other =>
      rw [own] at bound
      cases bound
      exact ⟨item, other, rfl, own, rfl⟩
  | branch name maxLength child => cases bound

theorem unbound_of_decode {entry changed : Entry} {text : String}
    (decoded : entry.decode text = .ok changed) : changed.unbound = entry.unbound := by
  obtain ⟨item, other, rfl, own, rfl⟩ := exists_of_decode decoded
  obtain ⟨value, _, rfl⟩ := Leaf.exists_of_decode own
  rfl

theorem unbound_of_bind {entry changed : Entry} {value : Value}
    (bound : entry.bind value = .ok changed) : changed.unbound = entry.unbound := by
  obtain ⟨item, other, rfl, own, rfl⟩ := exists_of_bind bound
  obtain ⟨_, rfl⟩ := Leaf.exists_of_bind own
  rfl

end Entry

namespace Section

theorem toList_unbound (level : Section) :
    level.unbound.toList = level.toList.map Entry.unbound := by
  induction level with
  | empty => rfl
  | leaf item rest ih => simp [unbound, toList, ih]
  | branch name maxLength child rest _ ih => simp [unbound, toList, ih]

@[simp] theorem get?_unbound (level : Section) (index : Nat) :
    level.unbound.get? index = (level.get? index).map Entry.unbound := by
  rw [get?, get?, toList_unbound, List.getElem?_map]

theorem unbound_replace (level : Section) (index : Nat) (entry : Entry) :
    (level.replace index entry).unbound = level.unbound.replace index entry.unbound := by
  apply toList_injective
  rw [toList_unbound, toList_replace, toList_replace, toList_unbound, List.map_set]

theorem replace_of_get? {level : Section} {index : Nat} {entry : Entry}
    (found : level.get? index = some entry) : level.replace index entry = level := by
  apply toList_injective
  rw [toList_replace]
  obtain ⟨inside, same⟩ := List.getElem?_eq_some_iff.mp found
  rw [← same, List.set_getElem_self]

theorem find?_eq_bind (level : Section) (name : String) :
    level.find? name = (level.findIndex? name).bind level.get? :=
  List.find?_eq_bind_findIdx?_getElem?

theorem locate?_unbound (root : Section) (path : List Char) :
    root.unbound.locate? path = root.locate? path := by
  induction root generalizing path with
  | empty => rfl
  | leaf item rest ih => simp only [unbound, locate?, Leaf.unbind, ih]
  | branch name maxLength child rest ihChild ihRest =>
    simp only [unbound, locate?, ihChild, ihRest]

theorem locate?_of_unbound {first second : Section} (shape : first.unbound = second.unbound)
    (path : List Char) : first.locate? path = second.locate? path := by
  rw [← locate?_unbound first, shape, locate?_unbound]

theorem sectionAt?_cons (root : Section) (index : Nat) (rest : Position) :
    root.sectionAt? (index :: rest) =
      ((root.get? index).bind Entry.child?).bind (·.sectionAt? rest) := by
  simp only [sectionAt?, bind, Option.bind_assoc]

theorem at?_cons_cons (root : Section) (index next : Nat) (rest : Position) :
    root.at? (index :: next :: rest) =
      ((root.get? index).bind Entry.child?).bind (·.at? (next :: rest)) := by
  simp only [at?, bind, Option.bind_assoc]

theorem sectionAt?_unbound (root : Section) (position : Position) :
    root.unbound.sectionAt? position = (root.sectionAt? position).map unbound := by
  induction position generalizing root with
  | nil => rfl
  | cons index rest ih =>
    rw [sectionAt?_cons, sectionAt?_cons, get?_unbound]
    cases root.get? index with
    | none => rfl
    | some entry =>
      cases entry with
      | leaf item => rfl
      | branch name maxLength child => exact ih child

theorem isSome_sectionAt?_of_unbound {first second : Section}
    (shape : first.unbound = second.unbound) (position : Position) :
    (first.sectionAt? position).isSome = (second.sectionAt? position).isSome := by
  have same := congrArg Option.isSome (congrArg (·.sectionAt? position) shape)
  simpa only [sectionAt?_unbound, Option.isSome_map] using same

theorem sectionAt?_eq_bind {position : Position} (nonempty : position ≠ []) (root : Section) :
    root.sectionAt? position = (root.at? position).bind Entry.child? := by
  induction position generalizing root with
  | nil => exact absurd rfl nonempty
  | cons index rest ih =>
    cases rest with
    | nil =>
      rw [sectionAt?_cons, at?]
      exact Option.bind_fun_some _
    | cons next below =>
      rw [sectionAt?_cons, at?_cons_cons]
      cases (root.get? index).bind Entry.child? with
      | none => rfl
      | some child => exact ih (List.cons_ne_nil next below) child

theorem section?_eq (root : Section) (path : String) :
    root.section? path = (root.locate? path.toList).bind root.sectionAt? := by
  rw [section?, entry?]
  cases located : root.locate? path.toList with
  | none => rfl
  | some position => exact (sectionAt?_eq_bind (locate?_ne_nil located) root).symm

theorem isSome_section?_of_unbound {first second : Section}
    (shape : first.unbound = second.unbound) (path : String) :
    (first.section? path).isSome = (second.section? path).isSome := by
  rw [section?_eq, section?_eq, locate?_of_unbound shape]
  cases second.locate? path.toList with
  | none => rfl
  | some position => exact isSome_sectionAt?_of_unbound shape position

theorem isSome_position? {path : String} (nonempty : path ≠ "") (root : Section) :
    (root.position? path).isSome = (root.section? path).isSome := by
  rw [position?, if_neg nonempty, section?_eq]
  cases root.locate? path.toList with
  | none => rfl
  | some position => cases inside : root.sectionAt? position <;> simp [Option.filter, inside]

theorem position?_of_unbound {first second : Section} (shape : first.unbound = second.unbound)
    (path : String) : first.position? path = second.position? path := by
  rw [position?, position?, locate?_of_unbound shape]
  simp only [isSome_sectionAt?_of_unbound shape]

theorem unbound_replaceAt {root : Section} {position : Position} {entry changed : Entry}
    (found : root.at? position = some entry) (same : changed.unbound = entry.unbound) :
    (root.replaceAt changed position).unbound = root.unbound := by
  induction position generalizing root with
  | nil => cases found
  | cons index rest ih =>
    cases rest with
    | nil =>
      rw [replaceAt, unbound_replace, same]
      have kept : root.unbound.get? index = some entry.unbound := by
        rw [get?_unbound]
        exact congrArg (Option.map Entry.unbound) found
      exact replace_of_get? kept
    | cons next below =>
      rw [at?_cons_cons] at found
      rw [replaceAt]
      cases inside : root.get? index with
      | none => rfl
      | some head =>
        rw [inside] at found
        cases head with
        | leaf item => rfl
        | branch name maxLength child =>
          have kept : root.unbound.get? index =
              some (.branch name maxLength (child.replaceAt changed (next :: below)).unbound) := by
            rw [get?_unbound, inside, ih found]
            rfl
          rw [unbound_replace]
          exact replace_of_get? kept

theorem unbound_of_editAt? {root after : Section} {position : Position}
    {change : Entry → Except Fault Entry}
    (keeps : ∀ entry changed, change entry = .ok changed → changed.unbound = entry.unbound)
    (edited : root.editAt? position change = some (.ok after)) : after.unbound = root.unbound := by
  rw [editAt?] at edited
  obtain ⟨entry, found, result⟩ := Option.map_eq_some_iff.mp edited
  cases answer : change entry with
  | error fault => rw [answer] at result; cases result
  | ok changed =>
    rw [answer] at result
    cases result
    exact unbound_replaceAt found (keeps entry changed answer)

end Section

end ConfigTree
