import ConfigTree.Proofs.Codec.Settled
import ConfigTree.Proofs.Document.Checked
import ConfigTree.Proofs.Document.Grammar
import ConfigTree.Proofs.Tree.Leaves

/-!
What loading a document leaves in a tree. No line and no document ends in the middle of a value, so
the values that the assignments of a document bind are settled, and the declarations stay as they
are.

Main statement: `Section.settled_load`.
-/

namespace ConfigTree.Document

theorem oneLine_text {octets : List UInt8} (feed : lineFeed ∉ octets) (nul : 0 ∉ octets) :
    Text.OneLine (text octets).toList := by
  rw [text, String.toList_ofList]
  constructor
  · intro member
    exact feed (Text.Utf8.mem_of_mem_decode (by decide) member)
  · intro member
    exact nul (Text.Utf8.mem_of_mem_decode (by decide) member)

theorem oneLine_of_readLine {skipping : Bool} {line : List UInt8} {name value : String}
    (feed : lineFeed ∉ line) (nul : 0 ∉ line)
    (given : readLine skipping line = .ok (.assignment name value)) :
    Text.OneLine value.toList := by
  cases (Grammar.means_iff feed).mpr given with
  | header _ header => cases header
  | @assignment before tail first _ _ _ _ _ _ assignment =>
    generalize whole : first :: tail = rest at *
    cases assignment with
    | @value name between gap value _ _ _ _ =>
      apply oneLine_text
      · intro member
        exact feed (by simp [member])
      · intro member
        exact nul (by simp [member])

end ConfigTree.Document

namespace ConfigTree

theorem Entry.forall_leaves_of_decode {P : Leaf → Prop} {entry changed : Entry} {text : String}
    (kept : ∀ item other, P item → item.decode text = .ok other → P other)
    (decoded : entry.decode text = .ok changed) (all : ∀ item ∈ entry.leaves, P item) :
    ∀ item ∈ changed.leaves, P item := by
  obtain ⟨old, new, rfl, own, rfl⟩ := exists_of_decode decoded
  intro item member
  rw [List.mem_singleton.mp member]
  exact kept old new (all old (List.mem_singleton.mpr rfl)) own

namespace Loading
open Document

section
variable {P : Leaf → Prop}

theorem forall_leaves_assign {loading : Loading} (name : String) {value : String}
    (kept : ∀ item other, P item → item.decode value = .ok other → P other)
    (all : ∀ item ∈ loading.root.leaves, P item) :
    ∀ item ∈ (loading.assign name value).2.root.leaves, P item := by
  unfold assign
  dsimp only
  split
  · next root edited =>
    simp only [Section.editNamed?, bind, Option.bind_eq_some_iff] at edited
    obtain ⟨position, _, level, _, index, _, result⟩ := edited
    refine Section.forall_leaves_editAt? result ?_ all
    intro entry changed _ decoded own
    exact Entry.forall_leaves_of_decode kept decoded own
  · exact all

theorem forall_leaves_accept {line : List UInt8} {progress : Progress Loading} {item : Item}
    (kept : ∀ text, Text.OneLine text.toList →
      ∀ item other, P item → item.decode text = .ok other → P other)
    (feed : lineFeed ∉ line) (nul : 0 ∉ line)
    (given : readLine progress.skipping line = .ok item) (number : Nat)
    (all : ∀ item ∈ progress.state.root.leaves, P item) :
    ∀ leaf ∈ (consumer.accept number progress item).state.root.leaves, P leaf := by
  cases item with
  | nothing => exact all
  | header path =>
    have same : (consumer.accept number progress (.header path)).state.root =
        progress.state.root := (openSection_spec path progress.state).2
    rw [same]
    exact all
  | assignment name value =>
    exact forall_leaves_assign name (kept value (oneLine_of_readLine feed nul given)) all

end

end Loading

namespace Section

theorem unbound_load (root : Section) (octets : List UInt8) :
    (root.load octets).2.unbound = root.unbound := by
  rcases read : Loading.consumer.readLines 1 { state := { root } } (Document.lines octets) with
    ⟨done, fault⟩
  have shape := Document.Consumer.readLines_invariant Loading.consumer
    (·.state.root.unbound = root.unbound) (Document.lines octets) ?_ 1 { state := { root } } rfl
  · rw [read] at shape
    rw [load_of_readLines read]
    exact shape
  · intro line _ number progress item _ before
    exact (Loading.unbound_accept number progress item).trans before

/-- What decoding the text of a line keeps of every leaf, loading a document keeps. -/
theorem forall_leaves_load {P : Leaf → Prop} {root : Section}
    (kept : ∀ text, Text.OneLine text.toList →
      ∀ item other, P item → item.decode text = .ok other → P other)
    (all : ∀ item ∈ root.leaves, P item) (octets : List UInt8) :
    ∀ item ∈ (root.load octets).2.leaves, P item := by
  rcases read : Loading.consumer.readLines 1 { state := { root } } (Document.lines octets) with
    ⟨done, fault⟩
  have reached := Document.Consumer.readLines_invariant Loading.consumer
    (∀ item ∈ ·.state.root.leaves, P item) (Document.lines octets) ?_ 1 { state := { root } } all
  · rw [read] at reached
    rw [load_of_readLines read]
    exact reached
  · intro line piece number progress item given before
    have clean := Document.clean_of_mem_lines piece
    exact Loading.forall_leaves_accept kept clean.1 clean.2 given number before

def Settled (root : Section) : Prop :=
  ∀ item ∈ root.leaves, item.Settled

theorem settled_unbound (root : Section) : root.unbound.Settled := by
  intro item member value bound
  rw [leaves_unbound] at member
  obtain ⟨other, _, rfl⟩ := List.mem_map.mp member
  cases bound

/-- Loading keeps the declarations of a tree, and it binds leaves to settled values only. -/
theorem settled_load {root : Section} (settled : root.Settled) (octets : List UInt8) :
    (root.load octets).2.unbound = root.unbound ∧ (root.load octets).2.Settled := by
  refine ⟨unbound_load root octets, forall_leaves_load ?_ settled octets⟩
  intro text line item other _ decoded
  exact Leaf.settled_of_decode decoded line

end Section

end ConfigTree
