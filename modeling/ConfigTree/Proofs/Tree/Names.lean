import Mathlib.Data.List.Basic
import ConfigTree.Proofs.Tree.Shape
import ConfigTree.Tree.Render

/-!
Paths to sections and names in them. Where every name of a tree is a whole segment of a path, the
path of a section extended by a name resolves in two steps: the first part to the section, and the
name to an entry of that section.

Main statement: `Section.edit?_joinPath`, an edit by path is an edit by name in the section.
-/

namespace ConfigTree

/-- A name that takes up a segment of a path, and no more than one. -/
def IsSegment (name : String) : Prop :=
  name ≠ "" ∧ separator ∉ name.toList

instance (name : String) : Decidable (IsSegment name) :=
  inferInstanceAs (Decidable (_ ∧ _))

namespace Segment

theorem compare_eq_whole_iff {path name : List Char} :
    compare path name = .whole ↔ path = name ∧ path ≠ [] := by
  by_cases empty : path = []
  · simp [compare, empty]
  · rw [compare, if_neg empty]
    constructor
    · intro whole
      split at whole
      · next matched =>
        rw [List.isPrefixOf?_eq_some_iff_append_eq, List.append_nil] at matched
        exact ⟨matched.symm, empty⟩
      · split at whole <;> cases whole
      · cases whole
    · rintro ⟨rfl, -⟩
      have matched : path.isPrefixOf? path = some [] :=
        List.isPrefixOf?_eq_some_iff_append_eq.mpr (List.append_nil path)
      rw [matched]

theorem compare_eq_inside_iff {path name rest : List Char} :
    compare path name = .inside rest ↔ path = name ++ separator :: rest := by
  by_cases empty : path = []
  · simp [compare, empty]
  · rw [compare, if_neg empty]
    constructor
    · intro inside
      split at inside
      · cases inside
      · next next below matched =>
        rw [List.isPrefixOf?_eq_some_iff_append_eq] at matched
        split at inside
        · next bound =>
          cases inside
          rw [← matched, bound]
        · cases inside
      · cases inside
    · intro whole
      rw [List.isPrefixOf?_eq_some_iff_append_eq.mpr whole.symm]
      exact if_pos rfl

def extend (key : List Char) : Segment → Segment
  | whole => inside key
  | inside rest => inside (rest ++ separator :: key)
  | elsewhere => elsewhere

theorem eq_or_append_of_append_eq {path key name rest : List Char} (apart : separator ∉ name)
    (same : path ++ separator :: key = name ++ separator :: rest) :
    path = name ∨ ∃ more, path = name ++ separator :: more := by
  rcases List.append_eq_append_iff.mp same with ⟨more, longer, below⟩ | ⟨more, longer, below⟩
  · cases more with
    | nil =>
      rw [List.append_nil] at longer
      exact Or.inl longer.symm
    | cons next others =>
      rw [List.cons_append, List.cons.injEq] at below
      refine absurd ?_ apart
      rw [longer, ← below.1]
      exact List.mem_append_right path List.mem_cons_self
  · cases more with
    | nil =>
      rw [List.append_nil] at longer
      exact Or.inl longer
    | cons next others =>
      rw [List.cons_append, List.cons.injEq] at below
      refine Or.inr ⟨others, ?_⟩
      rw [longer, ← below.1]

theorem compare_append {name : List Char} (nonempty : name ≠ []) (apart : separator ∉ name)
    (path key : List Char) :
    compare (path ++ separator :: key) name = (compare path name).extend key := by
  cases before : compare path name with
  | whole =>
    obtain ⟨rfl, -⟩ := compare_eq_whole_iff.mp before
    exact compare_eq_inside_iff.mpr rfl
  | inside rest =>
    rw [compare_eq_inside_iff.mp before]
    refine compare_eq_inside_iff.mpr ?_
    rw [List.append_assoc, List.cons_append]
  | elsewhere =>
    cases after : compare (path ++ separator :: key) name with
    | elsewhere => rfl
    | whole =>
      obtain ⟨rfl, -⟩ := compare_eq_whole_iff.mp after
      exact absurd (List.mem_append_right path List.mem_cons_self) apart
    | inside rest =>
      rcases eq_or_append_of_append_eq apart (compare_eq_inside_iff.mp after) with rfl | ⟨more, rfl⟩
      · rw [compare_eq_whole_iff.mpr ⟨rfl, nonempty⟩] at before
        cases before
      · rw [compare_eq_inside_iff.mpr rfl] at before
        cases before

theorem compare_of_not_mem {path name : List Char} (nonempty : name ≠ [])
    (apart : separator ∉ path) :
    compare path name = if name = path then whole else elsewhere := by
  split
  · next same => exact compare_eq_whole_iff.mpr ⟨same.symm, same ▸ nonempty⟩
  · next other =>
    cases found : compare path name with
    | whole => exact absurd (compare_eq_whole_iff.mp found).1.symm other
    | inside rest =>
      refine absurd ?_ apart
      rw [compare_eq_inside_iff.mp found]
      exact List.mem_append_right name List.mem_cons_self
    | elsewhere => rfl

end Segment

namespace Section

/-- The names of the leaves have one property at all depths, and those of the branches another. -/
def Named (ofLeaf ofBranch : String → Prop) : Section → Prop
  | empty => True
  | leaf item rest => ofLeaf item.name ∧ rest.Named ofLeaf ofBranch
  | branch name _ child rest =>
    ofBranch name ∧ child.Named ofLeaf ofBranch ∧ rest.Named ofLeaf ofBranch

section
variable {ofLeaf ofBranch : String → Prop}

instance decidableNamed [DecidablePred ofLeaf] [DecidablePred ofBranch] :
    (level : Section) → Decidable (level.Named ofLeaf ofBranch)
  | empty => .isTrue trivial
  | leaf _ rest =>
    have := decidableNamed rest
    inferInstanceAs (Decidable (_ ∧ _))
  | branch _ _ child rest =>
    have := decidableNamed child
    have := decidableNamed rest
    inferInstanceAs (Decidable (_ ∧ _ ∧ _))

theorem Named.imp {level : Section} {toLeaf toBranch : String → Prop}
    (named : level.Named ofLeaf ofBranch)
    (leafs : ∀ name, ofLeaf name → toLeaf name)
    (branches : ∀ name, ofBranch name → toBranch name) : level.Named toLeaf toBranch := by
  induction level with
  | empty => trivial
  | leaf item rest ih => exact ⟨leafs _ named.1, ih named.2⟩
  | branch name maxLength child rest ihChild ihRest =>
    exact ⟨branches _ named.1, ihChild named.2.1, ihRest named.2.2⟩

theorem name_of_mem_toList {level : Section} {entry : Entry} (named : level.Named ofLeaf ofBranch)
    (member : entry ∈ level.toList) (isBranch : entry.isBranch = true) : ofBranch entry.name := by
  induction level with
  | empty => cases member
  | leaf other rest ih =>
    rcases List.mem_cons.mp member with rfl | later
    · cases isBranch
    · exact ih named.2 later
  | branch name maxLength child rest _ ih =>
    rcases List.mem_cons.mp member with rfl | later
    · exact named.1
    · exact ih named.2.2 later

theorem named_child {level child : Section} {name : String} {maxLength : Nat}
    (named : level.Named ofLeaf ofBranch)
    (member : .branch name maxLength child ∈ level.toList) : child.Named ofLeaf ofBranch := by
  induction level with
  | empty => cases member
  | leaf item rest ih =>
    rcases List.mem_cons.mp member with same | later
    · cases same
    · exact ih named.2 later
  | branch other bound inner rest _ ih =>
    rcases List.mem_cons.mp member with same | later
    · cases same
      exact named.2.1
    · exact ih named.2.2 later

theorem named_sectionAt? {root level : Section} {position : Position}
    (named : root.Named ofLeaf ofBranch) (found : root.sectionAt? position = some level) :
    level.Named ofLeaf ofBranch := by
  induction position generalizing root with
  | nil => exact Option.some.inj found ▸ named
  | cons index rest ih =>
    rw [sectionAt?_cons] at found
    cases inside : root.get? index with
    | none => rw [inside] at found; cases found
    | some entry =>
      rw [inside] at found
      cases entry with
      | leaf item => cases found
      | branch name maxLength child =>
        exact ih (named_child named (List.mem_of_getElem? inside)) found

theorem named_section? {root level : Section} {path : String}
    (named : root.Named ofLeaf ofBranch) (found : root.section? path = some level) :
    level.Named ofLeaf ofBranch := by
  rw [section?_eq] at found
  obtain ⟨position, -, inside⟩ := Option.bind_eq_some_iff.mp found
  exact named_sectionAt? named inside

theorem named_of_find? {root level : Section} {name : String}
    (named : root.Named ofLeaf ofBranch)
    (found : (root.find? name).bind Entry.child? = some level) : level.Named ofLeaf ofBranch := by
  obtain ⟨entry, found, own⟩ := Option.bind_eq_some_iff.mp found
  cases entry with
  | leaf item => cases own
  | branch other maxLength child =>
    cases own
    exact named_child named (List.mem_of_find?_eq_some found)

theorem named_unbound (level : Section) :
    level.unbound.Named ofLeaf ofBranch ↔ level.Named ofLeaf ofBranch := by
  induction level with
  | empty => rfl
  | leaf item rest ih => simp only [unbound, Named, Leaf.unbind, ih]
  | branch name maxLength child rest ihChild ihRest =>
    simp only [unbound, Named, ihChild, ihRest]

theorem named_of_unbound {first second : Section}
    (shape : first.unbound = second.unbound) (named : second.Named ofLeaf ofBranch) :
    first.Named ofLeaf ofBranch := by
  rw [← named_unbound, shape, named_unbound]
  exact named

end

theorem locate?_cons (entry : Entry) (rest : Section) (path : List Char) :
    (cons entry rest).locate? path =
      match Segment.compare path entry.name.toList with
      | .whole => some [0]
      | .inside below => (entry.child?.bind (·.locate? below)).map (0 :: ·)
      | .elsewhere => (rest.locate? path).map Position.shift := by
  cases entry <;> rfl

theorem sectionAt?_shift (entry : Entry) (rest : Section) {position : Position}
    (nonempty : position ≠ []) :
    (cons entry rest).sectionAt? position.shift = rest.sectionAt? position := by
  cases position with
  | nil => exact absurd rfl nonempty
  | cons index below => cases entry <;> rfl

def locateIn? (root : Section) (path : List Char) (position : Position) : Option Position :=
  (root.sectionAt? position).bind fun level => (level.locate? path).map (position ++ ·)

theorem locateIn?_nil (root : Section) (path : List Char) :
    root.locateIn? path [] = root.locate? path :=
  Option.map_id'

theorem locateIn?_shift (entry : Entry) (rest : Section) (path : List Char) {position : Position}
    (nonempty : position ≠ []) :
    (cons entry rest).locateIn? path position.shift =
      (rest.locateIn? path position).map Position.shift := by
  rw [locateIn?, locateIn?, sectionAt?_shift entry rest nonempty]
  cases rest.sectionAt? position with
  | none => rfl
  | some level =>
    cases position with
    | nil => exact absurd rfl nonempty
    | cons index below =>
      cases found : level.locate? path with
      | none => simp only [found, Option.bind_some, Option.map_none]
      | some more => simp only [found, Option.bind_some, Option.map_some, Position.shift,
          List.cons_append]

theorem locateIn?_zero (name : String) (maxLength : Nat) (child rest : Section) (path : List Char)
    (position : Position) :
    (branch name maxLength child rest).locateIn? path (0 :: position) =
      (child.locateIn? path position).map (0 :: ·) := by
  have inner : (branch name maxLength child rest).sectionAt? (0 :: position) =
      child.sectionAt? position := rfl
  rw [locateIn?, locateIn?, inner]
  cases child.sectionAt? position with
  | none => rfl
  | some level =>
    cases found : level.locate? path with
    | none => simp only [found, Option.bind_some, Option.map_none]
    | some more => simp only [found, Option.bind_some, Option.map_some, List.cons_append]

theorem locate?_cons_append (entry : Entry) (segment : IsSegment entry.name) {rest : Section}
    {path key : List Char}
    (inner : ∀ child below, entry.child? = some child →
      child.locate? (below ++ separator :: key) = (child.locate? below).bind (child.locateIn? key))
    (later : rest.locate? (path ++ separator :: key) =
      (rest.locate? path).bind (rest.locateIn? key)) :
    (cons entry rest).locate? (path ++ separator :: key) =
      ((cons entry rest).locate? path).bind ((cons entry rest).locateIn? key) := by
  have filled : entry.name.toList ≠ [] := by simpa using segment.1
  rw [locate?_cons, locate?_cons, Segment.compare_append filled segment.2]
  -- A key behind the path matters only if the path is the name: then it leads into the branch.
  cases Segment.compare path entry.name.toList with
  | whole =>
    cases entry with
    | leaf item => rfl
    | branch name maxLength child =>
      have own := locateIn?_zero name maxLength child rest key []
      rw [locateIn?_nil] at own
      exact own.symm
  | inside below =>
    cases entry with
    | leaf item => rfl
    | branch name maxLength child =>
      have below := inner child below rfl
      dsimp only [Segment.extend, Entry.child?, Option.bind_some]
      rw [below]
      cases child.locate? _ with
      | none => rfl
      | some position => exact (locateIn?_zero name maxLength child rest key position).symm
  | elsewhere =>
    dsimp only [Segment.extend]
    rw [later]
    cases located : rest.locate? path with
    | none => rfl
    | some position => exact (locateIn?_shift entry rest key (locate?_ne_nil located)).symm

/-- A longer path resolves in two steps, first to a section and then in that section. -/
theorem locate?_append {root : Section} (named : root.Named IsSegment IsSegment)
    (path key : List Char) :
    root.locate? (path ++ separator :: key) =
      (root.locate? path).bind (root.locateIn? key) := by
  induction root generalizing path with
  | empty => rfl
  | leaf item rest ih =>
    refine locate?_cons_append (.leaf item) named.1 ?_ (ih named.2 path)
    intro child below inside
    cases inside
  | branch name maxLength child rest ihChild ihRest =>
    refine locate?_cons_append (.branch name maxLength child) named.1 ?_ (ihRest named.2.2 path)
    intro other below inside
    cases inside
    exact ihChild named.2.1 below

theorem findIndex?_cons (entry : Entry) (rest : Section) (name : String) :
    (cons entry rest).findIndex? name =
      if entry.name = name then some 0 else (rest.findIndex? name).map (· + 1) := by
  rw [findIndex?, toList_cons, List.findIdx?_cons]
  by_cases same : entry.name = name
  · rw [if_pos same, beq_iff_eq.mpr same]
    rfl
  · rw [if_neg same, beq_eq_false_iff_ne.mpr same]
    rfl

theorem locate?_cons_of_not_mem (entry : Entry) (nonempty : entry.name ≠ "") {rest : Section}
    {name : String} (apart : separator ∉ name.toList)
    (later : rest.locate? name.toList = (rest.findIndex? name).map fun index => [index]) :
    (cons entry rest).locate? name.toList =
      ((cons entry rest).findIndex? name).map fun index => [index] := by
  have filled : entry.name.toList ≠ [] := by simpa using nonempty
  rw [locate?_cons, findIndex?_cons, Segment.compare_of_not_mem filled apart]
  by_cases same : entry.name = name
  · rw [if_pos same, if_pos (congrArg String.toList same)]
    rfl
  · rw [if_neg same, if_neg fun equal => same (String.toList_inj.mp equal)]
    dsimp only
    rw [later]
    cases rest.findIndex? name <;> rfl

theorem locate?_of_not_mem {level : Section} (named : level.Named IsSegment IsSegment)
    {name : String} (apart : separator ∉ name.toList) :
    level.locate? name.toList = (level.findIndex? name).map fun index => [index] := by
  induction level with
  | empty => rfl
  | leaf item rest ih =>
    exact locate?_cons_of_not_mem (.leaf item) named.1.1 apart (ih named.2)
  | branch other maxLength child rest _ ih =>
    exact locate?_cons_of_not_mem (.branch other maxLength child) named.1.1 apart (ih named.2.2)

theorem edit?_joinPath {root : Section} (named : root.Named IsSegment IsSegment) (path : String)
    {name : String} (apart : separator ∉ name.toList) (change : Entry → Except Fault Entry) :
    root.edit? (String.ofList (joinPath path.toList name.toList)) change =
      (root.position? path).bind fun position => root.editNamed? position name change := by
  rw [edit?, position?, String.toList_ofList, joinPath]
  by_cases atRoot : path = ""
  · have first : path.toList = [] := by rw [atRoot]; rfl
    rw [if_pos first, if_pos atRoot, locate?_of_not_mem named apart]
    cases found : root.findIndex? name with
    | none => simp [editNamed?, sectionAt?, found]
    | some index => simp [editNamed?, sectionAt?, found]
  · have below : path.toList ≠ [] := by simpa using atRoot
    rw [if_neg below, if_neg atRoot, locate?_append named]
    cases root.locate? path.toList with
    | none => rfl
    | some position =>
      rw [Option.bind_some, locateIn?]
      cases inside : root.sectionAt? position with
      | none => simp [Option.filter, inside]
      | some level =>
        have apartLevel := locate?_of_not_mem (named_sectionAt? named inside) apart
        cases found : level.findIndex? name with
        | none => simp [Option.filter, inside, editNamed?, apartLevel, found]
        | some index => simp [Option.filter, inside, editNamed?, apartLevel, found]

end Section

end ConfigTree
