import ConfigTree.Proofs.Tree.Names

/-!
Changes to a tree by path. A change is a path and a text for the leaf at that path. Changes that are
refused are passed over, so a list of them always leads to a tree.

What a change does shows at the first entry of a section: a path about something else goes on to the
rest, and a path that leads into a branch is a change of the child.
-/

namespace ConfigTree

structure Change where
  path : String
  text : String
  deriving DecidableEq, Repr

/-- The same change, seen from a section that has the path as that of a section below it. -/
def Change.below (path : List Char) (change : Change) : Change :=
  { change with path := String.ofList (joinPath path change.path.toList) }

@[simp] theorem Change.text_below (path : List Char) (change : Change) :
    (change.below path).text = change.text := rfl

namespace Section

/-- Sets one leaf after the other and passes over what is refused. The number is that of the
changes that are not refused. -/
def replay (root : Section) : List Change → Section × Nat
  | [] => (root, 0)
  | change :: rest =>
    match root.set change.path (some change.text) with
    | .ok after => ((after.replay rest).1, (after.replay rest).2 + 1)
    | .error _ => root.replay rest

def decodeAt? (root : Section) (path text : String) : Option Section :=
  (root.edit? path (·.decode text)).bind Except.toOption

theorem toOption_editAt? (root : Section) (position : Position)
    {first second : Entry → Except Fault Entry}
    (same : ∀ entry, (first entry).toOption = (second entry).toOption) :
    (root.editAt? position first).bind Except.toOption =
      (root.editAt? position second).bind Except.toOption := by
  rw [editAt?, editAt?]
  cases root.at? position with
  | none => rfl
  | some entry =>
    have agree := same entry
    simp only [Option.map_some, Option.bind_some]
    cases left : first entry <;> cases right : second entry <;> rw [left, right] at agree
    · rfl
    · cases agree
    · cases agree
    · cases agree
      rfl

theorem toOption_set (root : Section) (path text : String) :
    (root.set path (some text)).toOption = root.decodeAt? path text := by
  rw [set, decodeAt?, edit?, edit?]
  cases root.locate? path.toList with
  | none => rfl
  | some position =>
    simp only [Option.bind_some]
    rw [← toOption_editAt? root position fun entry => ?_]
    · generalize root.editAt? position _ = edited
      cases edited <;> rfl
    · cases entry <;> rfl

theorem replay_cons (root : Section) (change : Change) (rest : List Change) :
    root.replay (change :: rest) =
      match root.decodeAt? change.path change.text with
      | some after => ((after.replay rest).1, (after.replay rest).2 + 1)
      | none => root.replay rest := by
  rw [replay, ← toOption_set]
  cases root.set change.path (some change.text) <;> rfl

theorem replay_append (root : Section) (changes more : List Change) :
    root.replay (changes ++ more) =
      (((root.replay changes).1.replay more).1,
        (root.replay changes).2 + ((root.replay changes).1.replay more).2) := by
  induction changes generalizing root with
  | nil => rw [List.nil_append, replay, Nat.zero_add]
  | cons change rest ih =>
    rw [List.cons_append, replay_cons, replay_cons]
    cases root.decodeAt? change.path change.text with
    | none => exact ih root
    | some after =>
      dsimp only
      rw [ih after, Nat.add_right_comm]

section
variable (entry : Entry) (rest : Section) {position : Position}

theorem at?_shift (nonempty : position ≠ []) :
    (cons entry rest).at? position.shift = rest.at? position := by
  cases position with
  | nil => exact absurd rfl nonempty
  | cons index below => cases below <;> cases entry <;> rfl

theorem replace_shift (index : Nat) (changed : Entry) :
    (cons entry rest).replace (index + 1) changed = cons entry (rest.replace index changed) := by
  apply toList_injective
  simp only [toList_replace, toList_cons, List.set_cons_succ]

theorem replaceAt_shift (changed : Entry) (nonempty : position ≠ []) :
    (cons entry rest).replaceAt changed position.shift =
      cons entry (rest.replaceAt changed position) := by
  cases position with
  | nil => exact absurd rfl nonempty
  | cons index below =>
    cases below with
    | nil => exact replace_shift entry rest index changed
    | cons next more =>
      have same : (cons entry rest).get? (index + 1) = rest.get? index := by cases entry <;> rfl
      rw [Position.shift, replaceAt, replaceAt, same]
      cases rest.get? index with
      | none => rfl
      | some head =>
        cases head with
        | leaf item => rfl
        | branch name maxLength child => exact replace_shift entry rest index _

theorem editAt?_shift (change : Entry → Except Fault Entry) (nonempty : position ≠ []) :
    (cons entry rest).editAt? position.shift change =
      (rest.editAt? position change).map (Except.map (cons entry)) := by
  rw [editAt?, editAt?, at?_shift entry rest nonempty]
  cases rest.at? position with
  | none => rfl
  | some found =>
    simp only [Option.map_some]
    cases change found with
    | error fault => rfl
    | ok changed =>
      simp only [Except.map]
      rw [replaceAt_shift entry rest changed nonempty]

theorem editAt?_zero (name : String) (maxLength : Nat) (child : Section)
    (change : Entry → Except Fault Entry) (nonempty : position ≠ []) :
    (branch name maxLength child rest).editAt? (0 :: position) change =
      (child.editAt? position change).map
        (Except.map fun changed => branch name maxLength changed rest) := by
  cases position with
  | nil => exact absurd rfl nonempty
  | cons index below =>
    have same : (branch name maxLength child rest).at? (0 :: index :: below) =
        child.at? (index :: below) := rfl
    rw [editAt?, editAt?, same]
    cases child.at? (index :: below) with
    | none => rfl
    | some found =>
      simp only [Option.map_some]
      cases change found with
      | error fault => rfl
      | ok changed =>
        have inner : (branch name maxLength child rest).replaceAt changed (0 :: index :: below) =
            branch name maxLength (child.replaceAt changed (index :: below)) rest := by
          apply toList_injective
          exact toList_replace (branch name maxLength child rest) 0 _
        simp only [Except.map]
        rw [inner]

end

theorem decodeAt?_elsewhere (entry : Entry) (rest : Section) {path : String} (text : String)
    (apart : Segment.compare path.toList entry.name.toList = .elsewhere) :
    (cons entry rest).decodeAt? path text = (rest.decodeAt? path text).map (cons entry) := by
  rw [decodeAt?, decodeAt?, edit?, edit?, locate?_cons, apart]
  dsimp only
  cases located : rest.locate? path.toList with
  | none => rfl
  | some position =>
    simp only [Option.map_some, Option.bind_some]
    rw [editAt?_shift entry rest _ (locate?_ne_nil located)]
    cases rest.editAt? position (·.decode text) with
    | none => rfl
    | some result => cases result <;> rfl

theorem decodeAt?_inside (name : String) (maxLength : Nat) (child rest : Section)
    {path key : String} (text : String)
    (inside : Segment.compare path.toList name.toList = .inside key.toList) :
    (branch name maxLength child rest).decodeAt? path text =
      (child.decodeAt? key text).map fun changed => branch name maxLength changed rest := by
  rw [decodeAt?, decodeAt?, edit?, edit?, locate?, inside]
  dsimp only
  cases located : child.locate? key.toList with
  | none => rfl
  | some position =>
    simp only [Option.map_some, Option.bind_some]
    rw [editAt?_zero rest name maxLength child _ (locate?_ne_nil located)]
    cases child.editAt? position (·.decode text) with
    | none => rfl
    | some result => cases result <;> rfl

theorem decodeAt?_leaf (item : Leaf) (nonempty : item.name ≠ "") (rest : Section) (text : String) :
    (leaf item rest).decodeAt? item.name text =
      (item.decode text).toOption.map fun changed => leaf changed rest := by
  have whole : Segment.compare item.name.toList item.name.toList = .whole :=
    Segment.compare_eq_whole_iff.mpr ⟨rfl, by simpa using nonempty⟩
  have head : (leaf item rest).at? [0] = some (.leaf item) := rfl
  rw [decodeAt?, edit?, locate?, whole]
  simp only [Option.bind_some, editAt?, head, Option.map_some, Entry.decode]
  cases item.decode text with
  | error fault => rfl
  | ok changed =>
    have here : (leaf item rest).replaceAt (.leaf changed) [0] = leaf changed rest := by
      apply toList_injective
      exact toList_replace (leaf item rest) 0 _
    exact congrArg some here

theorem replay_elsewhere (entry : Entry) (rest : Section) {changes : List Change}
    (apart : ∀ change ∈ changes,
      Segment.compare change.path.toList entry.name.toList = .elsewhere) :
    (cons entry rest).replay changes =
      (cons entry (rest.replay changes).1, (rest.replay changes).2) := by
  induction changes generalizing rest with
  | nil => rfl
  | cons change later ih =>
    have below := fun other member => apart other (List.mem_cons_of_mem change member)
    rw [replay_cons, replay_cons, decodeAt?_elsewhere entry rest change.text
      (apart change List.mem_cons_self)]
    cases rest.decodeAt? change.path change.text with
    | none => exact ih rest below
    | some after =>
      simp only [Option.map_some]
      rw [ih after below]

theorem replay_inside {name : String} (nonempty : name ≠ "") (maxLength : Nat)
    (child rest : Section) (changes : List Change) :
    (branch name maxLength child rest).replay (changes.map (Change.below name.toList)) =
      (branch name maxLength (child.replay changes).1 rest, (child.replay changes).2) := by
  induction changes generalizing child with
  | nil => rfl
  | cons change later ih =>
    have inside : Segment.compare (change.below name.toList).path.toList name.toList =
        .inside change.path.toList := by
      have filled : name.toList ≠ [] := by simpa using nonempty
      rw [Change.below, String.toList_ofList, joinPath, if_neg filled]
      exact Segment.compare_eq_inside_iff.mpr rfl
    rw [List.map_cons, replay_cons, replay_cons, Change.text_below,
      decodeAt?_inside name maxLength child rest change.text inside]
    cases child.decodeAt? change.path change.text with
    | none => exact ih child
    | some after =>
      simp only [Option.map_some]
      rw [ih after]

theorem replay_branch {name : String} (nonempty : name ≠ "") (maxLength : Nat)
    (child rest : Section) {earlier later : List Change} (inner : List Change)
    (apart : ∀ change ∈ earlier ++ later,
      Segment.compare change.path.toList name.toList = .elsewhere) :
    (branch name maxLength child rest).replay
        (earlier ++ (inner.map (Change.below name.toList) ++ later)) =
      (branch name maxLength (child.replay inner).1 (rest.replay (earlier ++ later)).1,
        (child.replay inner).2 + (rest.replay (earlier ++ later)).2) := by
  have first : (branch name maxLength child rest).replay earlier =
      (branch name maxLength child (rest.replay earlier).1, (rest.replay earlier).2) :=
    replay_elsewhere (.branch name maxLength child) rest
      fun change member => apart change (List.mem_append_left later member)
  have last : (branch name maxLength (child.replay inner).1 (rest.replay earlier).1).replay later =
      (branch name maxLength (child.replay inner).1 ((rest.replay earlier).1.replay later).1,
        ((rest.replay earlier).1.replay later).2) :=
    replay_elsewhere (.branch name maxLength (child.replay inner).1) (rest.replay earlier).1
      fun change member => apart change (List.mem_append_right earlier member)
  rw [replay_append, replay_append, replay_append, first]
  dsimp only
  rw [replay_inside nonempty, last]
  dsimp only
  rw [Nat.add_left_comm]

end Section

end ConfigTree
