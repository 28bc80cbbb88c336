import ConfigTree.Proofs.Codec.Settled
import ConfigTree.Proofs.Operations.Step

/-!
What holds of the leaves of a tree whatever a client does to it. A bound leaf has a value of its
kind, whether it was read from a text or given by the client, and so the leaves of reserved kinds
stay unbound and every value but the null pointer has a text. A string that was read is within the
bound of its leaf; one that the client gives need not be.

Main statement: `Section.sound_run`.
-/

namespace ConfigTree

namespace Leaf

/-- A leaf whose string, if it has one, is within its bound. -/
def Within (item : Leaf) : Prop :=
  ∀ text, item.value = some (.string text) →
    item.maxLength = 0 ∨ text.length ≤ item.maxLength

theorem sound_unbind (item : Leaf) : item.unbind.Sound := by
  rintro value ⟨⟩

theorem within_unbind (item : Leaf) : item.unbind.Within := by
  rintro text ⟨⟩

theorem sound_of_decode {item changed : Leaf} {text : String}
    (decoded : item.decode text = .ok changed) : changed.Sound := by
  obtain ⟨value, read, rfl⟩ := exists_of_decode decoded
  rintro other ⟨⟩
  exact Kind.holds_of_decode read

theorem sound_of_bind {item changed : Leaf} {value : Value}
    (bound : item.bind value = .ok changed) : changed.Sound := by
  obtain ⟨held, rfl⟩ := exists_of_bind bound
  rintro other ⟨⟩
  exact held

end Leaf

theorem Kind.length_of_decode {kind : Kind} {maxLength : Nat} {text read : String}
    (decoded : kind.decode maxLength text = .ok (.string read)) :
    maxLength = 0 ∨ read.length ≤ maxLength := by
  have string := holds_string_iff.mp (holds_of_decode decoded)
  subst string
  have cut : String.ofList (Codec.bounded maxLength (Codec.unquote text.toList)) = read :=
    Value.string.inj (Except.ok.inj decoded)
  rw [← cut, ← String.length_toList, String.toList_ofList]
  exact Codec.length_bounded maxLength _

namespace Leaf

theorem within_of_decode {item changed : Leaf} {text : String}
    (decoded : item.decode text = .ok changed) : changed.Within := by
  obtain ⟨value, read, rfl⟩ := exists_of_decode decoded
  rintro other ⟨⟩
  exact Kind.length_of_decode read

theorem Sound.value_of_isReserved {item : Leaf} (sound : item.Sound)
    (reserved : item.kind.isReserved = true) : item.value = none := by
  cases bound : item.value with
  | none => rfl
  | some value =>
    have codec := Kind.hasCodec_of_holds (sound value bound)
    rw [Kind.hasCodec, reserved] at codec
    cases codec

theorem Sound.within {item : Leaf} (sound : item.Sound)
    (unbound : item.kind = .string → item.value = none) : item.Within := by
  intro text bound
  have string := Kind.holds_string_iff.mp (sound _ bound)
  rw [unbound string] at bound
  cases bound

end Leaf

theorem Entry.Built.sound {entry : Entry} (built : entry.Built) :
    ∀ item ∈ entry.leaves, item.Sound := by
  induction built with
  | declare name kind =>
    intro item member value bound
    rw [Entry.declare] at member
    split at member
    · cases member
    · rw [List.mem_singleton.mp member] at bound
      cases bound
  | branch name _ ih =>
    intro item member
    obtain ⟨entry, inside, own⟩ := Section.mem_leaves_iff.mp member
    exact ih entry inside item own
  | @withMaxLength entry maxLength _ ih =>
    cases entry with
    | leaf old =>
      intro item member value bound
      rw [List.mem_singleton.mp member] at bound ⊢
      exact ih old (List.mem_singleton.mpr rfl) value bound
    | branch name _ child => exact ih
  | bind _ bound _ =>
    obtain ⟨old, new, rfl, accepted, rfl⟩ := exists_of_bind bound
    intro item member
    rw [List.mem_singleton.mp member]
    exact Leaf.sound_of_bind accepted

theorem Section.Built.sound {root : Section} (built : root.Built) :
    ∀ item ∈ root.leaves, item.Sound := by
  intro item member
  obtain ⟨entry, inside, own⟩ := mem_leaves_iff.mp member
  exact (built entry inside).sound item own

theorem Operation.sound_of_gives {level : Section} {operation : Operation} {item : Leaf}
    (gives : operation.Gives level item) : item.Sound := by
  cases gives with
  | bind _ bound => exact Leaf.sound_of_bind bound
  | @push entry built _ member => exact built.sound item member

theorem Step.sound_of_gives {root : Section} {step : Step} {item : Leaf}
    (gives : step.Gives root item) : item.Sound := by
  obtain ⟨level, -, own⟩ := gives
  exact Operation.sound_of_gives own

namespace Section
variable {root : Section}

theorem sound_of_built (built : root.Built) (steps : List Step) :
    ∀ item ∈ (root.run steps).leaves, item.Sound := by
  apply Step.forall_leaves_run
  · exact fun item other text _ decoded => Leaf.sound_of_decode decoded
  · exact fun item _ => item.sound_unbind
  · exact fun before step later _ item gives => Step.sound_of_gives gives
  · exact built.sound

theorem within_of_built (built : root.Built) {steps : List Step}
    (unbound : ∀ item ∈ root.leaves, item.kind = .string → item.value = none)
    (given : ∀ before step later, steps = before ++ step :: later →
      ∀ item, step.Gives (root.run before) item → item.kind = .string → item.value = none) :
    ∀ item ∈ (root.run steps).leaves, item.Within := by
  apply Step.forall_leaves_run
  · exact fun item other text _ decoded => Leaf.within_of_decode decoded
  · exact fun item _ => item.within_unbind
  · intro before step later split item gives
    exact (Step.sound_of_gives gives).within (given before step later split item gives)
  · intro item member
    exact (built.sound item member).within (unbound item member)

/-- What holds of every tree that a client can reach from declarations of its own. Every bound leaf
has a value of its kind; leaves of reserved kinds are unbound; branches, unbound leaves and null
pointers have no text, and all other entries have one. No step but adding an entry changes a
declaration. As long as the client itself gives no string, every string is within the bound of its
leaf. -/
theorem sound_run (built : root.Built) (steps : List Step) :
    let after := root.run steps
    (∀ item ∈ after.leaves, ∀ value, item.value = some value → item.kind.holds value = true) ∧
    (∀ item ∈ after.leaves, item.kind.isReserved = true → item.value = none) ∧
    (∀ position entry, after.at? position = some entry →
      (entry.encode = none ↔
        entry.isBranch = true ∨ entry.value? = none ∨ entry.value? = some (.pointer 0))) ∧
    (∀ step : Step, step.operation.isPush = false →
      (step.apply after).unbound = after.unbound) ∧
    ((∀ item ∈ root.leaves, item.kind = .string → item.value = none) →
      (∀ before step later, steps = before ++ step :: later →
        ∀ item, step.Gives (root.run before) item → item.kind = .string → item.value = none) →
      ∀ item ∈ after.leaves, ∀ text, item.value = some (.string text) →
        0 < item.maxLength → text.length ≤ item.maxLength) := by
  intro after
  have sound : ∀ item ∈ after.leaves, item.Sound := sound_of_built built steps
  refine ⟨sound, ?_, ?_, ?_, ?_⟩
  · intro item member
    exact (sound item member).value_of_isReserved
  · intro position entry found
    cases entry with
    | leaf item =>
      have member : item ∈ after.leaves := mem_leaves_at? found (List.mem_singleton.mpr rfl)
      have texts := (sound item member).encode_eq_none_iff
      simpa [Entry.encode, Entry.isBranch, Entry.child?, Entry.value?] using texts
    | branch name maxLength child => exact iff_of_true rfl (.inl rfl)
  · intro step keeps
    exact Step.unbound_apply keeps
  · intro unbound given item member text bound limited
    have within := within_of_built built unbound given item member text bound
    omega

theorem sound_run_of_pair :
    let bounded := (Entry.declare "s" .string).withMaxLength 3
    let pair := ofList [.declare "p" .void, .declare "r" .rgb]
    let root := ofList [bounded, .branch "a" 0 pair]
    let octets := Text.Utf8.encode "s = 'abcdef'\n[a]\np = 1\nr = 1\n?".toList
    let steps : List Step := [
      ⟨[], .load octets⟩,
      ⟨[1], .bind (.name "p") (.pointer 0)⟩,
      ⟨[], .set "a/r" none⟩,
      ⟨[1], .push (.declare "q" .char) (.declare "q" .char)⟩]
    let after := root.run steps
    root.Built ∧ (∀ item ∈ root.leaves, item.kind = .string → item.value = none) ∧
      (∀ before step later, steps = before ++ step :: later →
        ∀ item, step.Gives (root.run before) item → item.kind = .string → item.value = none) ∧
      after.leaves.map Leaf.value = [some (.string "abc"), some (.pointer 0), none, none] ∧
      (∀ item ∈ after.leaves, ∀ value, item.value = some value → item.kind.holds value = true) ∧
      (Step.apply after ⟨[], .set "s" none⟩).unbound = after.unbound ∧
      ∀ item ∈ after.leaves, ∀ text, item.value = some (.string text) →
        0 < item.maxLength → text.length ≤ item.maxLength := by
  intro bounded pair root octets steps after
  have built : root.Built := by
    intro entry member
    rcases List.mem_pair.mp member with rfl | rfl
    · exact .withMaxLength 3 (.declare "s" .string)
    · refine .branch "a" fun inner inside => ?_
      rcases List.mem_pair.mp inside with rfl | rfl
      · exact .declare "p" .void
      · exact .declare "r" .rgb
  have unbound : ∀ item ∈ root.leaves, item.kind = .string → item.value = none := by decide
  have given : ∀ before step later, steps = before ++ step :: later →
      ∀ item, step.Gives (root.run before) item → item.kind = .string → item.value = none := by
    intro before step later split item gives string
    have member : step ∈ steps := split ▸ List.mem_append_right before List.mem_cons_self
    obtain ⟨level, -, own⟩ := gives
    simp only [steps, List.mem_cons, List.not_mem_nil, or_false] at member
    rcases member with rfl | rfl | rfl | rfl
    · cases own
    · cases own with
      | bind _ bound =>
        obtain ⟨pointer, rfl⟩ := Leaf.exists_of_bind bound
        rw [Kind.holds_pointer_iff.mp pointer] at string
        cases string
    · cases own
    · cases own with
      | push inside =>
        rw [List.mem_singleton.mp inside]
  have values : after.leaves.map Leaf.value =
      [some (.string "abc"), some (.pointer 0), none, none] := by decide +kernel
  obtain ⟨held, -, -, shape, within⟩ := sound_run built steps
  exact ⟨built, unbound, given, values, held, shape _ rfl, within unbound given⟩

end Section

end ConfigTree
