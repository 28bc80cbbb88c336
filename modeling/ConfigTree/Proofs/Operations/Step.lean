import ConfigTree.Document.Load
import ConfigTree.Proofs.Document.Loaded

/-!
Operations on a tree. A client declares a tree with the builders of entries, and then loads
documents into it, binds and unbinds leaves and adds entries, in any section that it can get hold
of. What is refused, or leads nowhere, changes nothing, and so every list of steps leads to a tree.

Main statements: `Operation.unbound_apply` on the declarations of a tree, and
`Step.forall_leaves_run` on its leaves.
-/

namespace ConfigTree

inductive Entry.Built : Entry → Prop where
  | declare (name : String) (kind : Kind) : Built (declare name kind)
  | branch (name : String) {child : Section} :
      (∀ entry ∈ child.toList, Built entry) → Built (branch name 0 child)
  | withMaxLength {entry : Entry} (maxLength : Nat) :
      Built entry → Built (entry.withMaxLength maxLength)
  | bind {entry bound : Entry} {value : Value} :
      Built entry → entry.bind value = .ok bound → Built bound

def Section.Built (root : Section) : Prop :=
  ∀ entry ∈ root.toList, entry.Built

/-- How a client gets hold of an entry: by a path, or by its name in the section itself. -/
inductive Handle where
  | path (path : String)
  | name (name : String)

namespace Section

def held? (level : Section) : Handle → Option Entry
  | .path path => level.entry? path
  | .name name => level.find? name

def editHeld? (level : Section) (handle : Handle) (change : Entry → Except Fault Entry) :
    Option (Except Fault Section) :=
  match handle with
  | .path path => level.edit? path change
  | .name name => level.editNamed? [] name change

/-- The section after an edit, the same section where the edit is refused or leads nowhere. -/
def settle (level : Section) (edited : Option (Except Fault Section)) : Section :=
  (edited.bind Except.toOption).getD level

end Section

/-- What a client can do to a section. -/
inductive Operation where
  | load (octets : List UInt8)
  | set (path : String) (text : Option String)
  | decode (handle : Handle) (text : String)
  | bind (handle : Handle) (value : Value)
  | unbind (handle : Handle)
  | push (entry : Entry) (built : entry.Built)

namespace Operation

def apply (level : Section) : Operation → Section
  | load octets => (level.load octets).2
  | set path text => level.settle (some (level.set path text))
  | decode handle text => level.settle (level.editHeld? handle (·.decode text))
  | bind handle value => level.settle (level.editHeld? handle (·.bind value))
  | unbind handle => level.settle (level.editHeld? handle fun entry => .ok entry.unbind)
  | push entry _ => level.push entry

def isPush : Operation → Bool
  | push _ _ => true
  | _ => false

/-- The leaves that an operation brings into a section as the client has them, and not by reading a
text. -/
inductive Gives (level : Section) : Operation → Leaf → Prop where
  | bind {handle : Handle} {value : Value} {item bound : Leaf} :
      level.held? handle = some (.leaf item) → item.bind value = .ok bound →
        Gives level (.bind handle value) bound
  | push {entry : Entry} {built : entry.Built} {item : Leaf} :
      item ∈ entry.leaves → Gives level (.push entry built) item

end Operation

structure Step where
  position : Position := []
  operation : Operation

namespace Step

def apply (root : Section) (step : Step) : Section :=
  (root.modifySection? (step.operation.apply ·) step.position).getD root

def Gives (root : Section) (step : Step) (item : Leaf) : Prop :=
  ∃ level, root.sectionAt? step.position = some level ∧ step.operation.Gives level item

end Step

def Section.run (root : Section) (steps : List Step) : Section :=
  steps.foldl Step.apply root

namespace Section

theorem editAt?_of_editHeld? {level : Section} {handle : Handle}
    {change : Entry → Except Fault Entry} {result : Except Fault Section}
    (edited : level.editHeld? handle change = some result) :
    ∃ position, level.at? position = level.held? handle ∧
      level.editAt? position change = some result := by
  cases handle with
  | path path =>
    obtain ⟨position, located, result⟩ := Option.bind_eq_some_iff.mp edited
    refine ⟨position, ?_, result⟩
    rw [held?, entry?, located, Option.bind_some]
  | name name =>
    simp only [editHeld?, editNamed?, sectionAt?, Option.bind_eq_bind, Option.bind_some,
      Option.bind_eq_some_iff] at edited
    obtain ⟨index, named, result⟩ := edited
    refine ⟨[index], ?_, result⟩
    rw [held?, find?_eq_bind, named, Option.bind_some]
    rfl

section
variable {level : Section} {handle : Handle} {change : Entry → Except Fault Entry}

theorem unbound_settle_editHeld?
    (keeps : ∀ entry changed, change entry = .ok changed → changed.unbound = entry.unbound) :
    (level.settle (level.editHeld? handle change)).unbound = level.unbound := by
  rcases edited : level.editHeld? handle change with _ | (fault | after)
  · rfl
  · rfl
  · obtain ⟨position, -, result⟩ := editAt?_of_editHeld? edited
    exact unbound_of_editAt? keeps result

theorem forall_leaves_settle_editHeld? {P : Leaf → Prop}
    (kept : ∀ entry changed, level.held? handle = some entry → change entry = .ok changed →
      (∀ item ∈ entry.leaves, P item) → ∀ item ∈ changed.leaves, P item)
    (all : ∀ item ∈ level.leaves, P item) :
    ∀ item ∈ (level.settle (level.editHeld? handle change)).leaves, P item := by
  rcases edited : level.editHeld? handle change with _ | (fault | after)
  · exact all
  · exact all
  · obtain ⟨position, held, result⟩ := editAt?_of_editHeld? edited
    refine forall_leaves_editAt? result ?_ all
    intro entry changed found
    exact kept entry changed (held ▸ found)

end

theorem settle_set (level : Section) (path : String) (text : Option String) :
    level.settle (some (level.set path text)) =
      level.settle (level.editHeld? (.path path) (·.decode (text.getD nullText))) := by
  have same : level.set path text = level.set path (some (text.getD nullText)) := rfl
  rw [settle, Option.bind_some, same, toOption_set]
  rfl

end Section

namespace Entry

theorem unbound_unbind (entry : Entry) : entry.unbind.unbound = entry.unbound := by
  cases entry <;> rfl

end Entry

namespace Operation
variable {level : Section} {operation : Operation}

theorem unbound_apply (keeps : operation.isPush = false) :
    (operation.apply level).unbound = level.unbound := by
  cases operation with
  | load octets => exact Section.unbound_load level octets
  | set path text =>
    rw [apply, Section.settle_set]
    exact Section.unbound_settle_editHeld? fun _ _ => Entry.unbound_of_decode
  | decode handle text =>
    exact Section.unbound_settle_editHeld? fun _ _ => Entry.unbound_of_decode
  | bind handle value => exact Section.unbound_settle_editHeld? fun _ _ => Entry.unbound_of_bind
  | unbind handle =>
    apply Section.unbound_settle_editHeld?
    rintro entry changed ⟨⟩
    exact Entry.unbound_unbind entry
  | push entry built => cases keeps

section
variable {P : Leaf → Prop}
  (decodes : ∀ item other text, P item → item.decode text = .ok other → P other)
  (unbinds : ∀ item, P item → P item.unbind)
include decodes

theorem forall_leaves_settle_decode (handle : Handle) (text : String)
    (all : ∀ item ∈ level.leaves, P item) :
    ∀ item ∈ (level.settle (level.editHeld? handle (·.decode text))).leaves, P item := by
  refine Section.forall_leaves_settle_editHeld? ?_ all
  intro entry changed _ decoded own
  exact Entry.forall_leaves_of_decode (fun item other => decodes item other text) decoded own

include unbinds

theorem forall_leaves_apply (given : ∀ item, operation.Gives level item → P item)
    (all : ∀ item ∈ level.leaves, P item) : ∀ item ∈ (operation.apply level).leaves, P item := by
  cases operation with
  | load octets =>
    exact Section.forall_leaves_load (fun text _ item other => decodes item other text) all octets
  | set path text =>
    rw [apply, Section.settle_set]
    exact forall_leaves_settle_decode decodes (.path path) (text.getD nullText) all
  | decode handle text => exact forall_leaves_settle_decode decodes handle text all
  | bind handle value =>
    refine Section.forall_leaves_settle_editHeld? ?_ all
    intro entry changed held bound _
    obtain ⟨item, other, rfl, accepted, rfl⟩ := Entry.exists_of_bind bound
    intro leaf member
    rw [List.mem_singleton.mp member]
    exact given other (.bind held accepted)
  | unbind handle =>
    refine Section.forall_leaves_settle_editHeld? ?_ all
    rintro entry changed _ ⟨⟩ own
    cases entry with
    | leaf item =>
      intro leaf member
      rw [List.mem_singleton.mp member]
      exact unbinds item (own item (List.mem_singleton.mpr rfl))
    | branch name maxLength child => exact own
  | push entry built =>
    intro item member
    obtain ⟨other, inside, own⟩ := Section.mem_leaves_iff.mp member
    rw [apply, Section.toList_push, List.mem_append, List.mem_singleton] at inside
    rcases inside with old | rfl
    · exact all item (Section.mem_leaves_iff.mpr ⟨other, old, own⟩)
    · exact given item (.push own)

end

end Operation

namespace Section
variable {root after : Section} {change : Section → Section} {position : Position}

theorem unbound_modifySection? (keeps : ∀ level, (change level).unbound = level.unbound)
    (modified : root.modifySection? change position = some after) :
    after.unbound = root.unbound := by
  induction position generalizing root after with
  | nil =>
    cases modified
    exact keeps root
  | cons index rest ih =>
    rw [modifySection?] at modified
    split at modified
    · next name maxLength child found =>
      obtain ⟨changed, inner, rfl⟩ := Option.map_eq_some_iff.mp modified
      rw [unbound_replace, Entry.unbound_branch, ih inner]
      apply replace_of_get?
      rw [get?_unbound, found]
      rfl
    · cases modified

theorem forall_leaves_modifySection? {P : Leaf → Prop}
    (modified : root.modifySection? change position = some after)
    (kept : ∀ level, root.sectionAt? position = some level → (∀ item ∈ level.leaves, P item) →
      ∀ item ∈ (change level).leaves, P item)
    (all : ∀ item ∈ root.leaves, P item) : ∀ item ∈ after.leaves, P item := by
  induction position generalizing root after with
  | nil =>
    cases modified
    exact kept root rfl all
  | cons index rest ih =>
    rw [modifySection?] at modified
    split at modified
    · next name maxLength child found =>
      obtain ⟨changed, inner, rfl⟩ := Option.map_eq_some_iff.mp modified
      intro item member
      rcases mem_leaves_replace member with new | old
      · refine ih inner ?_ ?_ item new
        · intro level below
          apply kept level
          rw [sectionAt?_cons, found]
          exact below
        · intro other inside
          exact all other (mem_leaves_iff.mpr ⟨_, List.mem_of_getElem? found, inside⟩)
      · exact all item old
    · cases modified

end Section

namespace Step
variable {root : Section} {step : Step}

theorem unbound_apply (keeps : step.operation.isPush = false) :
    (step.apply root).unbound = root.unbound := by
  rw [apply]
  cases modified : root.modifySection? (step.operation.apply ·) step.position with
  | none => rfl
  | some after =>
    exact Section.unbound_modifySection? (fun _ => Operation.unbound_apply keeps) modified

section
variable {P : Leaf → Prop}
  (decodes : ∀ item other text, P item → item.decode text = .ok other → P other)
  (unbinds : ∀ item, P item → P item.unbind)
include decodes unbinds

theorem forall_leaves_apply (given : ∀ item, step.Gives root item → P item)
    (all : ∀ item ∈ root.leaves, P item) : ∀ item ∈ (step.apply root).leaves, P item := by
  rw [apply]
  cases modified : root.modifySection? (step.operation.apply ·) step.position with
  | none => exact all
  | some after =>
    refine Section.forall_leaves_modifySection? modified ?_ all
    intro level found own
    refine Operation.forall_leaves_apply decodes unbinds ?_ own
    intro item gives
    exact given item ⟨level, found, gives⟩

/-- What decoding and unbinding keep of a leaf, a run keeps of all leaves, as long as the leaves
that the client gives on the way have it too. -/
theorem forall_leaves_run {steps : List Step}
    (given : ∀ before step later, steps = before ++ step :: later →
      ∀ item, step.Gives (root.run before) item → P item)
    (all : ∀ item ∈ root.leaves, P item) : ∀ item ∈ (root.run steps).leaves, P item := by
  induction steps generalizing root with
  | nil => exact all
  | cons first rest ih =>
    have next := forall_leaves_apply decodes unbinds (given [] first rest rfl) all
    refine ih ?_ next
    intro before step later split
    exact given (first :: before) step later (congrArg (first :: ·) split)

end

end Step

end ConfigTree
