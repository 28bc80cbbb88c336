import Mathlib.Logic.Function.Iterate
import ConfigTree.Proofs.Codec.Orbit
import ConfigTree.Proofs.Document.Resaved

/-!
A tree that is saved and loaded again and again. Every round rereads each leaf by itself from its
own text, so a tree settles as its leaves do.

Main statement: `Section.reload_settles`.
-/

namespace ConfigTree

namespace Section

theorem leaves_mapLeaves (change : Leaf → Leaf) (root : Section) :
    (root.mapLeaves change).leaves = root.leaves.map change := by
  induction root with
  | empty => rfl
  | leaf item rest ih => rw [mapLeaves, leaves, leaves, List.map_cons, ih]
  | branch name maxLength child rest ihChild ihRest =>
    rw [mapLeaves, leaves, leaves, List.map_append, ihChild, ihRest]

theorem mapLeaves_mapLeaves (first second : Leaf → Leaf) (root : Section) :
    (root.mapLeaves first).mapLeaves second = root.mapLeaves fun item => second (first item) := by
  induction root with
  | empty => rfl
  | leaf item rest ih => rw [mapLeaves, mapLeaves, mapLeaves, ih]
  | branch name maxLength child rest ihChild ihRest =>
    rw [mapLeaves, mapLeaves, mapLeaves, ihChild, ihRest]

theorem mapLeaves_congr {first second : Leaf → Leaf} {root : Section}
    (same : ∀ item ∈ root.leaves, first item = second item) :
    root.mapLeaves first = root.mapLeaves second := by
  induction root with
  | empty => rfl
  | leaf item rest ih =>
    rw [mapLeaves, mapLeaves, same item List.mem_cons_self,
      ih fun other later => same other (List.mem_cons_of_mem item later)]
  | branch name maxLength child rest ihChild ihRest =>
    rw [mapLeaves, mapLeaves, ihChild fun item inside => same item (List.mem_append_left _ inside),
      ihRest fun item later => same item (List.mem_append_right _ later)]

/-- A tree that can be saved and loaded: its names are spelled as documents spell them, and its
leaves can be written. -/
structure Savable (root : Section) : Prop where
  named : root.Named (isKey ·) (isWord isSectionChar ·.toList)
  distinct : root.Distinct
  writable : ∀ item ∈ root.leaves, item.Writable

section
variable {root : Section} (savable : root.Savable)
include savable

theorem Savable.legible : root.Legible := by
  apply legible_of_unbound rfl savable.named
  intro item member
  exact (savable.writable item member).oneLine_text

theorem Savable.reload_eq_mapLeaves :
    ∃ count, root.reload = (.ok count, root.mapLeaves Leaf.reread) := by
  have named := savable.legible.segments
  obtain ⟨after, recorded, changes⟩ := changes_octets savable.legible
  have loaded := load_of_recorded ((named_unbound root).mpr named) recorded
  rw [changes, replay_changes savable.distinct named] at loaded
  exact ⟨_, loaded⟩

theorem Savable.mapLeaves_reread : (root.mapLeaves Leaf.reread).Savable := by
  have shape := unbound_mapLeaves Leaf.unbind_reread root
  refine ⟨named_of_unbound shape savable.named, distinct_of_unbound shape savable.distinct, ?_⟩
  intro item member
  rw [leaves_mapLeaves] at member
  obtain ⟨old, inside, rfl⟩ := List.mem_map.mp member
  exact (savable.writable old inside).reread

end

def reloaded (root : Section) : Section :=
  root.reload.2

section
variable {root : Section} (savable : root.Savable)
include savable

theorem Savable.reloaded_eq : root.reloaded = root.mapLeaves Leaf.reread := by
  obtain ⟨count, reloads⟩ := savable.reload_eq_mapLeaves
  rw [reloaded, reloads]

theorem Savable.reloaded : root.reloaded.Savable := by
  rw [savable.reloaded_eq]
  exact savable.mapLeaves_reread

theorem Savable.iterate (rounds : Nat) : (Section.reloaded^[rounds] root).Savable := by
  induction rounds with
  | zero => exact savable
  | succ rounds ih =>
    rw [Function.iterate_succ_apply']
    exact ih.reloaded

theorem Savable.reloaded_reloaded :
    root.reloaded.reloaded = root.mapLeaves fun item => item.reread.reread := by
  rw [savable.reloaded.reloaded_eq, savable.reloaded_eq, mapLeaves_mapLeaves]

end

/-- Saving and loading a tree always succeeds. After two rounds it changes the tree no more, and
after one if no leaf has white space for a character. -/
theorem reload_settles {root : Section}
    (named : root.Named (isKey ·) (isWord isSectionChar ·.toList)) (distinct : root.Distinct)
    (exact : ∀ item ∈ root.leaves, item.kind = .float → item.value = none)
    (oneLine : ∀ item ∈ root.leaves, ∀ value, item.value = some value → value.OneLine) :
    (∀ rounds, ∃ count, (reloaded^[rounds] root).reload.1 = .ok count) ∧
      root.reloaded.reloaded.reloaded = root.reloaded.reloaded ∧
      ((∀ item ∈ root.leaves, item.kind = .char → ∀ c, item.value = some (.char c) →
          Text.isWhite c = false) →
        root.reloaded.reloaded = root.reloaded) := by
  have writable : ∀ item ∈ root.leaves, item.Writable := by
    intro item member value bound
    refine ⟨fun float => ?_, oneLine item member value bound⟩
    rw [exact item member float] at bound
    cases bound
  have savable : root.Savable := ⟨named, distinct, writable⟩
  refine ⟨?_, ?_, ?_⟩
  · intro rounds
    obtain ⟨count, reloads⟩ := (savable.iterate rounds).reload_eq_mapLeaves
    exact ⟨count, congrArg Prod.fst reloads⟩
  · calc
      root.reloaded.reloaded.reloaded =
          root.mapLeaves fun item => item.reread.reread.reread := by
        rw [savable.reloaded.reloaded.reloaded_eq, savable.reloaded_reloaded, mapLeaves_mapLeaves]
      _ = root.mapLeaves fun item => item.reread.reread := by
        apply mapLeaves_congr
        intro item member
        exact Leaf.reread_reread_reread (writable item member)
      _ = root.reloaded.reloaded := savable.reloaded_reloaded.symm
  · intro visible
    calc
      root.reloaded.reloaded = root.mapLeaves fun item => item.reread.reread :=
        savable.reloaded_reloaded
      _ = root.mapLeaves Leaf.reread := by
        apply mapLeaves_congr
        intro item member
        exact Leaf.reread_reread_of_visible (writable item member)
          fun c char bound => visible item member char c bound
      _ = root.reloaded := savable.reloaded_eq.symm

theorem reload_settles_of_nested :
    let tree (blank initial : Option Value) (first second : Option Value) :=
      leaf { name := "c", kind := .char, value := blank }
        (branch "a" 0
          (leaf { name := "p", kind := .void, value := initial }
            (leaf { name := "s", kind := .string, maxLength := 3, value := first }
              (leaf { name := "t", kind := .string, maxLength := 2, value := second } empty)))
          empty)
    let root := tree (some (.char '\t')) (some (.pointer 0)) (some (.string "ab\"cd")) none
    let settled := tree (some (.char 'N')) none (some (.string "ab")) (some (.string "NU"))
    root.Named (isKey ·) (isWord isSectionChar ·.toList) ∧ root.Distinct ∧
      (∀ item ∈ root.leaves, item.kind = .float → item.value = none) ∧
      (∀ item ∈ root.leaves, ∀ value, item.value = some value → value.OneLine) ∧
      root.reloaded = tree none none (some (.string "ab")) (some (.string "NU")) ∧
      root.reloaded.reloaded = settled ∧ root.reloaded.reloaded.reloaded = settled := by
  intro tree root settled
  have named : root.Named (isKey ·) (isWord isSectionChar ·.toList) := by decide +kernel
  have distinct : root.Distinct := by decide +kernel
  have exact : ∀ item ∈ root.leaves, item.kind = .float → item.value = none := by decide
  have oneLine : ∀ item ∈ root.leaves, ∀ value, item.value = some value → value.OneLine := by
    intro item member value bound
    simp only [root, tree, leaves, List.append_nil, List.mem_cons, List.not_mem_nil,
      or_false] at member
    rcases member with rfl | rfl | rfl | rfl <;> cases bound
    · exact ⟨by decide, by decide⟩
    · trivial
    · exact ⟨by decide, by decide⟩
  have first : root.reloaded = tree none none (some (.string "ab")) (some (.string "NU")) := by
    decide +kernel
  have second : root.reloaded.reloaded = settled := by
    rw [first]
    decide +kernel
  obtain ⟨-, still, -⟩ := reload_settles named distinct exact oneLine
  exact ⟨named, distinct, exact, oneLine, first, second, still.trans second⟩

end Section

end ConfigTree
