import ConfigTree.Proofs.Tree.Changes

/-!
What is left of the values of a tree after they have been written and read again, each by the kind
and under the bound of its own leaf.

The changes of a section are listed as they are written, first those of its own leaves and then
those below its branches. Names that are distinct keep them apart: none of them reaches a leaf that
it was not written for.
-/

namespace ConfigTree

/-- The characters that a document does not keep in front of a value. -/
def isLineSpace (c : Char) : Bool :=
  c == ' ' || c == '\t' || c == '\r'

namespace Leaf

def bareText (item : Leaf) : String :=
  String.ofList (item.text.toList.dropWhile isLineSpace)

/-- The leaf with the value that its own text denotes, and unbound if that denotes none. -/
def reread (item : Leaf) : Leaf :=
  { item with value := (item.kind.decode item.maxLength item.bareText).toOption }

theorem unbind_reread (item : Leaf) : item.reread.unbind = item.unbind := rfl

theorem toOption_decode_unbind (item : Leaf) :
    (item.unbind.decode item.bareText).toOption =
      if item.reread.value.isSome then some item.reread else none := by
  rw [decode, unbind, reread]
  cases item.kind.decode item.maxLength item.bareText <;> rfl

theorem reread_of_isNone {item : Leaf} (refused : ¬item.reread.value.isSome) :
    item.reread = item.unbind := by
  rw [reread, unbind]
  cases read : item.kind.decode item.maxLength item.bareText with
  | error fault => rfl
  | ok value => simp [reread, read, Except.toOption] at refused

end Leaf

namespace Section

def leaves : Section → List Leaf
  | empty => []
  | leaf item rest => item :: rest.leaves
  | branch _ _ child rest => child.leaves ++ rest.leaves

def mapLeaves (change : Leaf → Leaf) : Section → Section
  | empty => empty
  | leaf item rest => leaf (change item) (rest.mapLeaves change)
  | branch name maxLength child rest =>
    branch name maxLength (child.mapLeaves change) (rest.mapLeaves change)

/-- No section has two entries of one name. -/
def Distinct : Section → Prop
  | empty => True
  | leaf item rest => item.name ∉ rest.names ∧ rest.Distinct
  | branch name _ child rest => name ∉ rest.names ∧ child.Distinct ∧ rest.Distinct

instance decidableDistinct : (level : Section) → Decidable level.Distinct
  | empty => .isTrue trivial
  | leaf _ rest =>
    have := decidableDistinct rest
    inferInstanceAs (Decidable (_ ∧ _))
  | branch _ _ child rest =>
    have := decidableDistinct child
    have := decidableDistinct rest
    inferInstanceAs (Decidable (_ ∧ _ ∧ _))

def leafChanges : Section → List Change
  | empty => []
  | leaf item rest => ⟨item.name, item.bareText⟩ :: rest.leafChanges
  | branch _ _ _ rest => rest.leafChanges

def branchChanges : Section → List Change
  | empty => []
  | leaf _ rest => rest.branchChanges
  | branch name _ child rest =>
    (child.leafChanges ++ child.branchChanges).map (Change.below name.toList) ++
      rest.branchChanges

section
variable {level : Section} {name : String}

theorem elsewhere_of_ne {other : String} (segment : IsSegment name) (apart : separator ∉ other.toList)
    (different : other ≠ name) :
    Segment.compare other.toList name.toList = .elsewhere := by
  have filled : name.toList ≠ [] := by simpa using segment.1
  have apartNames : name.toList ≠ other.toList :=
    fun same => different (String.toList_inj.mp same).symm
  rw [Segment.compare_of_not_mem filled apart, if_neg apartNames]

theorem elsewhere_of_changes (segment : IsSegment name)
    (named : level.Named IsSegment IsSegment) (fresh : name ∉ level.names) :
    ∀ change ∈ level.leafChanges ++ level.branchChanges,
      Segment.compare change.path.toList name.toList = .elsewhere := by
  intro change member
  induction level with
  | empty => cases member
  | leaf item rest ih =>
    have others : name ∉ rest.names := fun later => fresh (List.mem_cons_of_mem _ later)
    rcases List.mem_cons.mp member with rfl | later
    · have different : item.name ≠ name := fun same => fresh (same ▸ List.mem_cons_self)
      exact elsewhere_of_ne segment named.1.2 different
    · exact ih named.2 others later
  | branch other maxLength child rest _ ih =>
    have others : name ∉ rest.names := fun later => fresh (List.mem_cons_of_mem _ later)
    rw [leafChanges, branchChanges, List.mem_append, List.mem_append] at member
    rcases member with own | inside | later
    · exact ih named.2.2 others (List.mem_append_left _ own)
    · obtain ⟨inner, _, rfl⟩ := List.mem_map.mp inside
      have different : other ≠ name := fun same => fresh (same ▸ List.mem_cons_self)
      have filled : other.toList ≠ [] := by simpa using named.1.1
      rw [Change.below, String.toList_ofList, joinPath, if_neg filled,
        Segment.compare_append (by simpa using segment.1) segment.2,
        elsewhere_of_ne segment named.1.2 different]
      rfl
    · exact ih named.2.2 others (List.mem_append_right _ later)

end

theorem replay_leaf {item : Leaf} (nonempty : item.name ≠ "") (rest : Section)
    (changes : List Change) :
    (leaf item.unbind rest).replay (⟨item.name, item.bareText⟩ :: changes) =
      (((leaf item.reread rest).replay changes).1,
        ((leaf item.reread rest).replay changes).2 +
          if item.reread.value.isSome then 1 else 0) := by
  have unbound : item.unbind.name = item.name := rfl
  have step := decodeAt?_leaf item.unbind nonempty rest item.bareText
  rw [unbound, Leaf.toOption_decode_unbind] at step
  rw [replay_cons, step]
  by_cases read : item.reread.value.isSome
  · rw [if_pos read, if_pos read]
    rfl
  · rw [if_neg read, if_neg read, Leaf.reread_of_isNone read]
    rfl

/-- Each change reaches the leaf that it was written for and no other. -/
theorem replay_changes {level : Section} (distinct : level.Distinct)
    (named : level.Named IsSegment IsSegment) :
    level.unbound.replay (level.leafChanges ++ level.branchChanges) =
      (level.mapLeaves Leaf.reread,
        level.leaves.countP fun item => item.reread.value.isSome) := by
  induction level with
  | empty => rfl
  | leaf item rest ih =>
    obtain ⟨fresh, distinct⟩ := distinct
    obtain ⟨segment, named⟩ := named
    -- The leaf takes its own change, and the changes of the entries after it pass the leaf by.
    have apart := elsewhere_of_changes segment named fresh
    have others : (leaf item.reread rest.unbound).replay
        (rest.leafChanges ++ rest.branchChanges) = _ :=
      replay_elsewhere (.leaf item.reread) rest.unbound apart
    rw [ih distinct named] at others
    rw [unbound, leafChanges, branchChanges, List.cons_append, replay_leaf segment.1, others,
      leaves, List.countP_cons]
    rfl
  | branch name maxLength child rest ihChild ihRest =>
    obtain ⟨fresh, distinctChild, distinctRest⟩ := distinct
    obtain ⟨segment, namedChild, namedRest⟩ := named
    have apart := elsewhere_of_changes segment namedRest fresh
    rw [unbound, leafChanges, branchChanges,
      replay_branch segment.1 maxLength child.unbound rest.unbound _ apart,
      ihChild distinctChild namedChild, ihRest distinctRest namedRest, leaves, List.countP_append]
    rfl

end Section

end ConfigTree
