import ConfigTree.Proofs.Document.Loaded
import ConfigTree.Proofs.Document.Reload

/-!
A tree that was loaded from a document, written and loaded again. What a document can bind a leaf to
is written in one line, and apart from what stands behind a quotation mark in a string all of it is
read back.

Main statement: `Section.load_octets_of_load`.
-/

namespace ConfigTree

namespace Section

theorem isSectionName_of_isWord {name : String} (word : isWord isSectionChar name.toList = true) :
    isSectionName name = true ∧ name.toList.head?.any Char.isAlpha = true := by
  rw [isSectionName, bne, Bool.and_eq_true]
  cases spelled : name.toList with
  | nil =>
    rw [spelled] at word
    cases word
  | cons first tail =>
    rw [spelled, isWord, Bool.and_eq_true] at word
    have filled : name ≠ "" := by
      rintro rfl
      cases spelled
    have letter : isSectionChar first = true := by
      rw [isSectionChar, Char.isAlphanum, word.1]
      rfl
    refine ⟨⟨by simpa using filled, ?_⟩, word.1⟩
    rw [List.all_cons, letter, word.2]
    rfl

theorem legible_of_unbound {schema root : Section} (shape : root.unbound = schema.unbound)
    (named : schema.Named (isKey ·) (isWord isSectionChar ·.toList))
    (oneLine : ∀ item ∈ root.leaves, Text.OneLine item.text.toList) : root.Legible := by
  have spelled := named_of_unbound shape named
  refine ⟨?_, ?_, oneLine⟩
  · exact spelled.imp (fun _ => id) fun _ word => (isSectionName_of_isWord word).1
  · intro entry member isBranch
    exact (isSectionName_of_isWord (name_of_mem_toList spelled member isBranch)).2

/-- A tree that was loaded from a document has all leaves back after it is written and loaded again,
but for strings with quotation marks: of these the part before the first mark is left. -/
theorem load_octets_of_load {schema loaded : Section} {octets : List UInt8} {count : Nat}
    (fresh : schema.unbound = schema)
    (named : schema.Named (isKey ·) (isWord isSectionChar ·.toList)) (distinct : schema.Distinct)
    (exact : ∀ item ∈ schema.leaves, item.kind ≠ .float)
    (read : schema.load octets = (.ok count, loaded))
    (bound : ∀ item ∈ loaded.leaves, item.value.isSome = true) :
    ∃ again copy, schema.load loaded.octets = (.ok again, copy) ∧
      ∀ path item, loaded.entry? path = some (.leaf item) →
        ((∀ text, item.value = some (.string text) → '"' ∉ text.toList) →
          copy.get path = loaded.get path) ∧
        ∀ text, item.value = some (.string text) →
          copy.get path =
            .ok (String.ofList ('"' :: (text.toList.takeWhile (· ≠ '"') ++ ['"']))) := by
  obtain ⟨shape, settled⟩ := settled_load (fresh ▸ settled_unbound schema) octets
  rw [read] at shape settled
  have decimal : ∀ item ∈ loaded.leaves, item.kind ≠ .float := by
    intro item member
    obtain ⟨other, declared, same⟩ := kind_of_unbound shape member
    exact same ▸ exact other declared
  have legible : loaded.Legible := by
    refine legible_of_unbound shape named ?_
    intro item member
    obtain ⟨value, held⟩ := Option.isSome_iff_exists.mp (bound item member)
    exact (Leaf.oneLine_text (settled item member) held (decimal item member)).1
  obtain ⟨after, recorded, changes⟩ := changes_octets legible
  have blank : loaded.unbound = schema := shape.trans fresh
  have reloaded := load_of_recorded ((named_unbound loaded).mpr legible.segments) recorded
  rw [changes, replay_changes (distinct_of_unbound shape distinct) legible.segments, blank]
    at reloaded
  refine ⟨_, _, reloaded, ?_⟩
  -- the copy has the leaf at the same path, reread from its own text
  intro path item found
  have member := mem_leaves_entry? found
  have get : (loaded.mapLeaves Leaf.reread).get path = .ok item.reread.text :=
    get_mapLeaves Leaf.unbind_reread found
  obtain ⟨value, held⟩ := Option.isSome_iff_exists.mp (bound item member)
  constructor
  · intro unmarked
    have text := Leaf.text_reread_of_unmarked (settled item member) held (decimal item member)
      fun text string => unmarked text (held.trans (congrArg some string))
    rw [get, text, Section.get, found]
  · intro text string
    rw [get, Leaf.text_reread_of_string (settled item member) string]

theorem load_octets_of_load_of_nested :
    let location (value : Option Value) : Leaf := { name := "p", kind := .void, value }
    let flag (value : Option Value) : Leaf := { name := "x", kind := .boolean, value }
    let text (value : Option Value) : Leaf :=
      { name := "s", kind := .string, maxLength := 3, value }
    let schema :=
      leaf (location none) (branch "a" 0 (leaf (flag none) empty) (leaf (text none) empty))
    let loaded :=
      leaf (location (some (.pointer 0))) (branch "a" 0 (leaf (flag (some (.boolean true))) empty)
        (leaf (text (some (.string "a\"b"))) empty))
    let octets := Text.Utf8.encode "p = 0\ns = 'a\"bc'\n[a]\nx = on".toList
    schema.unbound = schema ∧ schema.Named (isKey ·) (isWord isSectionChar ·.toList) ∧
      schema.Distinct ∧ (∀ item ∈ schema.leaves, item.kind ≠ .float) ∧
      schema.load octets = (.ok 3, loaded) ∧ (∀ item ∈ loaded.leaves, item.value.isSome = true) ∧
      ∃ again copy, schema.load loaded.octets = (.ok again, copy) ∧
        copy.get "p" = .ok "NULL" ∧ copy.get "a/x" = .ok "True" ∧ copy.get "s" = .ok "\"a\"" := by
  intro location flag text schema loaded octets
  have fresh : schema.unbound = schema := rfl
  have named : schema.Named (isKey ·) (isWord isSectionChar ·.toList) := by decide +kernel
  have distinct : schema.Distinct := by decide +kernel
  have exact : ∀ item ∈ schema.leaves, item.kind ≠ .float := by decide
  have read : schema.load octets = (.ok 3, loaded) := by decide +kernel
  have bound : ∀ item ∈ loaded.leaves, item.value.isSome = true := by decide
  refine ⟨fresh, named, distinct, exact, read, bound, ?_⟩
  obtain ⟨again, copy, reloaded, kept⟩ :=
    load_octets_of_load fresh named distinct exact read bound
  have first := (kept "p" (location (some (.pointer 0))) (by decide +kernel)).1 (by simp [location])
  have inner := (kept "a/x" (flag (some (.boolean true))) (by decide +kernel)).1 (by simp [flag])
  have last := (kept "s" (text (some (.string "a\"b"))) (by decide +kernel)).2 "a\"b" rfl
  refine ⟨again, copy, reloaded, ?_, ?_, ?_⟩
  · rw [first]
    decide +kernel
  · rw [inner]
    decide +kernel
  · rw [last]
    decide +kernel

/-- A quotation mark between single quotes is text when it is loaded, and ends the text when it is
loaded again. -/
theorem get_changed_of_marked :
    let schema := leaf { name := "s", kind := .string } empty
    let loaded := leaf { name := "s", kind := .string, value := some (.string "a\"b") } empty
    schema.unbound = schema ∧ schema.Named (isKey ·) (isWord isSectionChar ·.toList) ∧
      schema.Distinct ∧ (∀ item ∈ schema.leaves, item.kind ≠ .float) ∧
      schema.load (Text.Utf8.encode "s = 'a\"b'\n".toList) = (.ok 1, loaded) ∧
      (∀ item ∈ loaded.leaves, item.value.isSome = true) ∧
      ¬∃ again copy, schema.load loaded.octets = (.ok again, copy) ∧
        ∀ path item, loaded.entry? path = some (.leaf item) →
          copy.get path = loaded.get path := by
  intro schema loaded
  refine ⟨rfl, by decide +kernel, by decide +kernel, by decide, by decide +kernel, by decide, ?_⟩
  rintro ⟨again, copy, reloaded, kept⟩
  have cut : schema.load loaded.octets =
      (.ok 1, leaf { name := "s", kind := .string, value := some (.string "a") } empty) := by
    decide +kernel
  rw [cut] at reloaded
  cases reloaded
  have same := kept "s" { name := "s", kind := .string, value := some (.string "a\"b") }
    (by decide +kernel)
  revert same
  decide +kernel

end Section

end ConfigTree
