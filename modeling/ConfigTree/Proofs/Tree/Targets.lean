import ConfigTree.Proofs.Tree.Changes
import ConfigTree.Proofs.Tree.Leaves

/-!
Where paths lead. A path is spelled by the names on the way to the position that it resolves to, so
no two paths resolve to one position, whatever the names are. An assignment of a key in a section is
meant for the first entry of that name, and for the same reason no two keys of a section, and no
keys of two sections, are meant for one entry.

A tree is known by its declarations and by its leaves at all positions. Exchanging the leaf at one
position leaves the others as they are.

Main statements: `Section.target?_injective`, `Section.leafAt?_replaceAt` and
`Section.eq_of_leafAt?`.
-/

namespace ConfigTree

namespace Entry

def leaf? : Entry → Option Leaf
  | leaf item => some item
  | branch _ _ _ => none

end Entry

namespace Section

def pathAt? (root : Section) : Position → Option (List Char)
  | [] => none
  | [index] => (root.get? index).map fun entry => entry.name.toList
  | index :: next :: rest => do
    let entry ← root.get? index
    let child ← entry.child?
    let below ← child.pathAt? (next :: rest)
    return entry.name.toList ++ separator :: below

/-- The position of the entry that an assignment in a section is meant for: the first entry of the
section with the key for its name. -/
def target? (root : Section) (sectionPath key : String) : Option Position := do
  let position ← root.position? sectionPath
  let level ← root.sectionAt? position
  let index ← level.findIndex? key
  return position ++ [index]

def leafAt? (root : Section) (position : Position) : Option Leaf :=
  (root.at? position).bind Entry.leaf?

theorem pathAt?_shift (entry : Entry) (rest : Section) {position : Position}
    (nonempty : position ≠ []) :
    (cons entry rest).pathAt? position.shift = rest.pathAt? position := by
  cases position with
  | nil => exact absurd rfl nonempty
  | cons index below => cases below <;> cases entry <;> rfl

theorem pathAt?_zero (name : String) (maxLength : Nat) (child rest : Section) {position : Position}
    (nonempty : position ≠ []) :
    (branch name maxLength child rest).pathAt? (0 :: position) =
      (child.pathAt? position).map (name.toList ++ separator :: ·) := by
  cases position with
  | nil => exact absurd rfl nonempty
  | cons index below =>
    exact Option.map_eq_bind.symm

theorem pathAt?_of_locate?_cons (entry : Entry) {rest : Section} {path : List Char}
    {position : Position}
    (inner : ∀ child below more, entry.child? = some child → child.locate? below = some more →
      child.pathAt? more = some below)
    (later : ∀ more, rest.locate? path = some more → rest.pathAt? more = some path)
    (located : (cons entry rest).locate? path = some position) :
    (cons entry rest).pathAt? position = some path := by
  rw [locate?_cons] at located
  cases compared : Segment.compare path entry.name.toList with
  | whole =>
    rw [compared] at located
    obtain ⟨rfl, -⟩ := Segment.compare_eq_whole_iff.mp compared
    cases located
    cases entry <;> rfl
  | inside below =>
    rw [compared] at located
    obtain ⟨more, found, rfl⟩ := Option.map_eq_some_iff.mp located
    obtain ⟨child, own, found⟩ := Option.bind_eq_some_iff.mp found
    rw [Segment.compare_eq_inside_iff.mp compared]
    cases entry with
    | leaf item => cases own
    | branch name maxLength other =>
      cases own
      rw [cons, pathAt?_zero name maxLength child rest (locate?_ne_nil found),
        inner child below more rfl found]
      rfl
  | elsewhere =>
    rw [compared] at located
    obtain ⟨more, found, rfl⟩ := Option.map_eq_some_iff.mp located
    rw [pathAt?_shift entry rest (locate?_ne_nil found)]
    exact later more found

theorem pathAt?_of_locate? {root : Section} {path : List Char} {position : Position}
    (located : root.locate? path = some position) : root.pathAt? position = some path := by
  induction root generalizing path position with
  | empty => cases located
  | leaf item rest ih =>
    refine pathAt?_of_locate?_cons (.leaf item) ?_ (fun more => ih) located
    intro child below more own
    cases own
  | branch name maxLength child rest ihChild ihRest =>
    refine pathAt?_of_locate?_cons (.branch name maxLength child) ?_ (fun more => ihRest) located
    intro other below more own
    cases own
    exact ihChild

/-- No two paths lead to one entry. -/
theorem locate?_injective {root : Section} {first second : List Char} {position : Position}
    (found : root.locate? first = some position) (same : root.locate? second = some position) :
    first = second := by
  have spelled := pathAt?_of_locate? found
  rw [pathAt?_of_locate? same] at spelled
  exact (Option.some.inj spelled).symm

theorem position?_injective {root : Section} {first second : String} {position : Position}
    (found : root.position? first = some position) (same : root.position? second = some position) :
    first = second := by
  -- the root is at the empty position, and nothing below it is
  have nonempty (path : String) (located : (root.locate? path.toList).filter
      (fun other => (root.sectionAt? other).isSome) = some position) :
      root.locate? path.toList = some position ∧ position ≠ [] := by
    have whole := (Option.filter_eq_some_iff.mp located).1
    exact ⟨whole, locate?_ne_nil whole⟩
  rw [position?] at found same
  split at found
  · next empty =>
    cases found
    split at same
    · next other => rw [empty, other]
    · exact absurd rfl (nonempty second same).2
  · obtain ⟨whole, filled⟩ := nonempty first found
    split at same
    · cases same
      exact absurd rfl filled
    · exact String.toList_inj.mp (locate?_injective whole (nonempty second same).1)

theorem name_of_findIndex? {level : Section} {name : String} {index : Nat}
    (found : level.findIndex? name = some index) :
    (level.get? index).map Entry.name = some name := by
  have entry := List.of_findIdx?_eq_some found
  rw [get?]
  cases inside : level.toList[index]? with
  | none => simp [inside] at entry
  | some other =>
    rw [inside] at entry
    exact congrArg some (beq_iff_eq.mp entry)

/-- No two keys are meant for one entry, and no keys of two sections. -/
theorem target?_injective {root : Section} {first second key other : String} {position : Position}
    (found : root.target? first key = some position)
    (same : root.target? second other = some position) : first = second ∧ key = other := by
  simp only [target?, bind, Option.bind_eq_some_iff, pure, Option.some.injEq] at found same
  obtain ⟨before, located, level, inside, index, named, rfl⟩ := found
  obtain ⟨again, relocated, others, inner, place, renamed, whole⟩ := same
  obtain ⟨rfl, last⟩ := List.append_inj' whole rfl
  cases last
  rw [inside] at inner
  cases inner
  have name := name_of_findIndex? named
  rw [name_of_findIndex? renamed] at name
  exact ⟨position?_injective located relocated, (Option.some.inj name).symm⟩

theorem unbound_eq_mapLeaves (root : Section) : root.unbound = root.mapLeaves Leaf.unbind := by
  induction root with
  | empty => rfl
  | leaf item rest ih => rw [unbound, mapLeaves, ih]
  | branch name maxLength child rest ihChild ihRest => rw [unbound, mapLeaves, ihChild, ihRest]

theorem unbound_unbound (root : Section) : root.unbound.unbound = root.unbound := by
  have keeps (item : Leaf) : item.unbind.unbind = item.unbind := rfl
  calc
    _ = (root.mapLeaves Leaf.unbind).unbound := by rw [← unbound_eq_mapLeaves]
    _ = root.unbound := unbound_mapLeaves keeps root

theorem findIndex?_unbound (level : Section) (name : String) :
    level.unbound.findIndex? name = level.findIndex? name := by
  have byName (level : Section) : level.findIndex? name = level.names.findIdx? (· == name) := by
    rw [names, List.findIdx?_map]
    rfl
  rw [byName, byName, names_unbound]

theorem target?_unbound (root : Section) (sectionPath key : String) :
    root.unbound.target? sectionPath key = root.target? sectionPath key := by
  rw [target?, target?, position?_of_unbound (unbound_unbound root)]
  congr
  funext position
  rw [sectionAt?_unbound]
  cases root.sectionAt? position with
  | none => rfl
  | some level =>
    calc
      _ = (level.unbound.findIndex? key).bind fun index => some (position ++ [index]) := rfl
      _ = _ := by rw [findIndex?_unbound]; rfl

theorem target?_of_unbound {first second : Section} (shape : first.unbound = second.unbound)
    (sectionPath key : String) :
    first.target? sectionPath key = second.target? sectionPath key := by
  rw [← target?_unbound first, shape, target?_unbound]

theorem leafAt?_mapLeaves (change : Leaf → Leaf) (root : Section) (position : Position) :
    (root.mapLeaves change).leafAt? position = (root.leafAt? position).map change := by
  rw [leafAt?, leafAt?, at?_mapLeaves]
  rcases root.at? position with _ | (item | _)
  · rfl
  · rfl
  · rfl

theorem unbind_leafAt?_of_unbound {first second : Section}
    (shape : first.unbound = second.unbound) (position : Position) :
    (first.leafAt? position).map Leaf.unbind = (second.leafAt? position).map Leaf.unbind := by
  calc
    _ = first.unbound.leafAt? position := by rw [unbound_eq_mapLeaves, leafAt?_mapLeaves]
    _ = second.unbound.leafAt? position := by rw [shape]
    _ = _ := by rw [unbound_eq_mapLeaves, leafAt?_mapLeaves]

theorem leafAt?_nil (root : Section) : root.leafAt? [] = none := rfl

end Section

namespace Entry

def leafAt? : Entry → Position → Option Leaf
  | leaf item, [] => some item
  | leaf _, _ :: _ => none
  | branch _ _ child, position => child.leafAt? position

def replaceAt : Entry → Entry → Position → Entry
  | _, changed, [] => changed
  | leaf item, _, _ :: _ => leaf item
  | branch name maxLength child, changed, next :: rest =>
    branch name maxLength (child.replaceAt changed (next :: rest))

end Entry

namespace Section

section
variable {root level : Section} {entry : Entry} {item : Leaf} {index : Nat} {position : Position}

theorem leafAt?_cons (root : Section) (index : Nat) (rest : Position) :
    root.leafAt? (index :: rest) = (root.get? index).bind (·.leafAt? rest) := by
  cases rest with
  | nil =>
    rw [leafAt?, at?]
    congr
    funext entry
    cases entry <;> rfl
  | cons next below =>
    rw [leafAt?, at?_cons_cons, Option.bind_assoc, Option.bind_assoc]
    congr
    funext entry
    cases entry <;> rfl

theorem replaceAt_cons (found : root.get? index = some entry) (changed : Entry) (rest : Position) :
    root.replaceAt changed (index :: rest) =
      root.replace index (entry.replaceAt changed rest) := by
  cases rest with
  | nil => rfl
  | cons next below =>
    rw [replaceAt, found]
    cases entry with
    | leaf item => exact (replace_of_get? found).symm
    | branch name maxLength child => rfl

theorem get?_replace_self (found : level.get? index = some entry) (other : Entry) :
    (level.replace index other).get? index = some other := by
  have inside := (List.getElem?_eq_some_iff.mp found).1
  rw [get?, toList_replace, List.getElem?_set_self inside]

theorem get?_replace_of_ne {place : Nat} (apart : index ≠ place) (level : Section)
    (other : Entry) : (level.replace index other).get? place = level.get? place := by
  rw [get?, toList_replace, List.getElem?_set_ne apart, get?]

theorem leafAt?_replaceAt (found : root.leafAt? position = some item) (changed : Leaf)
    (other : Position) :
    (root.replaceAt (.leaf changed) position).leafAt? other =
      if other = position then some changed else root.leafAt? other := by
  induction position generalizing root other with
  | nil => cases found
  | cons index rest ih =>
    rw [leafAt?_cons] at found
    obtain ⟨entry, inside, own⟩ := Option.bind_eq_some_iff.mp found
    rw [replaceAt_cons inside]
    cases other with
    | nil => rfl
    | cons place more =>
      rw [leafAt?_cons, leafAt?_cons]
      by_cases same : index = place
      · subst same
        simp only [get?_replace_self inside, inside, Option.bind_some, List.cons.injEq, true_and]
        cases entry with
        | leaf old =>
          cases rest with
          | nil => cases more <;> rfl
          | cons next below => cases own
        | branch name maxLength child =>
          cases rest with
          | nil => cases own
          | cons next below => exact ih own more
      · have different : place :: more ≠ index :: rest :=
          fun equal => same (List.cons.inj equal).1.symm
        rw [get?_replace_of_ne same, if_neg different]

theorem leafAt?_shift (entry : Entry) (rest : Section) {position : Position}
    (nonempty : position ≠ []) :
    (cons entry rest).leafAt? position.shift = rest.leafAt? position := by
  rw [leafAt?, at?_shift entry rest nonempty, leafAt?]

theorem leafAt?_of_cons (entry other : Entry) {rest others : Section}
    (same : ∀ position,
      (cons entry rest).leafAt? position = (cons other others).leafAt? position)
    (position : Position) : rest.leafAt? position = others.leafAt? position := by
  by_cases empty : position = []
  · rw [empty, leafAt?_nil, leafAt?_nil]
  · rw [← leafAt?_shift entry rest empty, same, leafAt?_shift other others empty]

theorem eq_of_leafAt? {first second : Section} (shape : first.unbound = second.unbound)
    (same : ∀ position, first.leafAt? position = second.leafAt? position) : first = second := by
  induction first generalizing second with
  | empty =>
    cases second with
    | empty => rfl
    | leaf other others => cases shape
    | branch other bound below others => cases shape
  | leaf item rest ih =>
    cases second with
    | empty => cases shape
    | leaf other others =>
      obtain ⟨-, shape⟩ := Section.leaf.inj shape
      have own : item = other := Option.some.inj (same [0])
      rw [own, ih shape (leafAt?_of_cons (.leaf item) (.leaf other) same)]
    | branch other bound below others => cases shape
  | branch name maxLength child rest ihChild ihRest =>
    cases second with
    | empty => cases shape
    | leaf other others => cases shape
    | branch other bound below others =>
      obtain ⟨rfl, rfl, inner, shape⟩ := Section.branch.inj shape
      have children : child = below := by
        refine ihChild inner fun position => ?_
        cases position with
        | nil => rfl
        | cons index more => exact same (0 :: index :: more)
      rw [children, ihRest shape
        (leafAt?_of_cons (.branch name maxLength child) (.branch name maxLength below) same)]

end

end Section

end ConfigTree
