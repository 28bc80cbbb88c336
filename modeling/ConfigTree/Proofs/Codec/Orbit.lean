import ConfigTree.Proofs.Codec.Settled

/-!
Leaves that are written and reread again and again. What is reread from the text of a leaf lasts: it
has a text that denotes it again. Where nothing is reread the leaf is unbound, and then the null
text is written for it, which denotes something for strings and characters alone. So after two
rounds nothing changes any more, and after one if no character was lost in it.

Main statements: `Leaf.reread_reread_reread` and `Leaf.reread_reread_of_visible`.
-/

namespace ConfigTree

/-- A value that a leaf of a kind keeps when it is written and reread. -/
structure Kind.Lasting (kind : Kind) (maxLength : Nat) (value : Value) : Prop where
  held : kind.holds value = true
  filled : value ≠ .pointer 0
  exact : ∀ number, value ≠ .float number
  kept : value.Recoverable maxLength

/-- A leaf whose value, if it has one, is no decimal fraction and stays in one line. -/
def Leaf.Writable (item : Leaf) : Prop :=
  ∀ value, item.value = some value → item.kind ≠ .float ∧ value.OneLine

namespace Value
variable {maxLength : Nat}

theorem recoverable_bounded {text : List Char} (unmarked : '"' ∉ text) :
    (string (String.ofList (Codec.bounded maxLength text))).Recoverable maxLength := by
  have cut := (Codec.bounded_isPrefix maxLength text).subset
  rw [Recoverable, ← String.length_toList, String.toList_ofList]
  exact ⟨fun member => unmarked (cut member), Codec.length_bounded maxLength text⟩

theorem not_mem_takeWhile (mark : Char) (text : List Char) :
    mark ∉ text.takeWhile (· ≠ mark) := by
  intro member
  simpa using List.mem_takeWhile_imp member

theorem isWhite_of_recovered? {value : Value} (lost : value.recovered? maxLength = none) :
    ∃ c, value = .char c ∧ Text.isWhite c = true := by
  cases value with
  | char c =>
    rw [recovered?] at lost
    split at lost
    · next white => exact ⟨c, rfl, white⟩
    · cases lost
  | _ => cases lost

section
variable {value other : Value} (recovered : value.recovered? maxLength = some other)
include recovered

theorem eq_or_string_of_recovered? :
    other = value ∨ ∃ text, value = .string text ∧ other = .string
      (String.ofList (Codec.bounded maxLength (text.toList.takeWhile (· ≠ '"')))) := by
  cases value with
  | string text => exact .inr ⟨text, rfl, (Option.some.inj recovered).symm⟩
  | char c =>
    rw [recovered?] at recovered
    split at recovered
    · cases recovered
    · exact .inl (Option.some.inj recovered).symm
  | _ => exact .inl (Option.some.inj recovered).symm

theorem recoverable_of_recovered? : other.Recoverable maxLength := by
  rcases eq_or_string_of_recovered? recovered with rfl | ⟨text, rfl, rfl⟩
  · exact recovered?_eq_some_iff.mp recovered
  · exact recoverable_bounded (not_mem_takeWhile '"' text.toList)

theorem oneLine_of_recovered? (line : value.OneLine) : other.OneLine := by
  rcases eq_or_string_of_recovered? recovered with rfl | ⟨text, rfl, rfl⟩
  · exact line
  · rw [OneLine, String.toList_ofList]
    apply Text.OneLine.of_subset line
    intro c member
    exact (List.takeWhile_prefix _).subset ((Codec.bounded_isPrefix maxLength _).subset member)

theorem lasting_of_recovered? {kind : Kind} (held : kind.holds value = true)
    (filled : value ≠ .pointer 0) (exact : ∀ number, value ≠ .float number) :
    kind.Lasting maxLength other := by
  have kept := recoverable_of_recovered? recovered
  rcases eq_or_string_of_recovered? recovered with rfl | ⟨text, rfl, rfl⟩
  · exact ⟨held, filled, exact, kept⟩
  · have string := Kind.holds_string_iff.mp held
    exact ⟨Kind.holds_string_iff.mpr string, by simp, by simp, kept⟩

end

end Value

theorem Kind.lasting_of_nullValue? {kind : Kind} {maxLength : Nat} {value : Value}
    (null : kind.nullValue? maxLength = some value) :
    kind.Lasting maxLength value ∧ value.OneLine := by
  cases kind with
  | string =>
    cases null
    refine ⟨⟨rfl, by simp, by simp, Value.recoverable_bounded (by decide)⟩, ?_⟩
    rw [Value.OneLine, String.toList_ofList]
    have whole : Text.OneLine nullText.toList := ⟨by decide, by decide⟩
    exact whole.of_subset (Codec.bounded_isPrefix maxLength _).subset
  | char =>
    cases null
    exact ⟨⟨rfl, by simp, by simp, rfl⟩, ⟨by decide, by decide⟩⟩
  | _ => cases null

theorem Kind.Written.filled {kind : Kind} {value : Value} {text : List Char}
    (written : Written kind value text) : value ≠ .pointer 0 := by
  rintro rfl
  cases written with
  | pointer _ nonzero => exact nonzero rfl

namespace Leaf
variable {item : Leaf}

theorem exists_value_of_written (written : item.encode ≠ none) :
    ∃ value, item.value = some value := by
  cases bound : item.value with
  | none => exact absurd (by rw [encode, bound]; rfl) written
  | some value => exact ⟨value, rfl⟩

theorem writable_unbind (item : Leaf) : item.unbind.Writable := by
  rintro value ⟨⟩

theorem encode_of_lasting {value : Value} (bound : item.value = some value)
    (lasting : item.kind.Lasting item.maxLength value) : item.encode ≠ none := by
  rw [encode, bound, Option.bind_some, Kind.encode, Ne, Option.map_eq_none_iff,
    Kind.write?_eq_none_iff lasting.held]
  exact lasting.filled

theorem reread_of_lasting {value : Value} (bound : item.value = some value)
    (lasting : item.kind.Lasting item.maxLength value) : item.reread = item := by
  have written := encode_of_lasting bound lasting
  have same : item.reread.value = item.value := by
    rw [value_reread_of_written bound written lasting.exact, bound]
    exact Value.recovered?_eq_some_iff.mpr lasting.kept
  calc
    item.reread = { item with value := item.reread.value } := rfl
    _ = item := by rw [same]

section
variable (writable : item.Writable)
include writable

theorem Writable.exact {value : Value} (bound : item.value = some value)
    (held : item.kind.holds value = true) (number : Number.Binary64) : value ≠ .float number := by
  rintro rfl
  exact (writable _ bound).1 (Kind.holds_float_iff.mp held)

theorem lasting_of_reread {value : Value} (reread : item.reread.value = some value) :
    item.kind.Lasting item.maxLength value ∧ value.OneLine := by
  by_cases unwritten : item.encode = none
  · rw [value_reread_of_unwritten unwritten] at reread
    exact Kind.lasting_of_nullValue? reread
  · obtain ⟨old, bound⟩ := exists_value_of_written unwritten
    have written := (encode_eq_some_text bound unwritten).2
    have exact := writable.exact bound written.holds
    rw [value_reread_of_written bound unwritten exact] at reread
    exact ⟨Value.lasting_of_recovered? reread written.holds written.filled exact,
      Value.oneLine_of_recovered? reread (writable old bound).2⟩

theorem Writable.reread : item.reread.Writable := by
  intro value bound
  obtain ⟨lasting, line⟩ := lasting_of_reread writable bound
  refine ⟨fun float => ?_, line⟩
  have held := lasting.held
  rw [show item.kind = .float from float] at held
  cases value with
  | float number => exact lasting.exact number rfl
  | _ => cases held

theorem Writable.oneLine_text : Text.OneLine item.text.toList := by
  by_cases unwritten : item.encode = none
  · rw [text_of_unwritten unwritten]
    exact ⟨by decide, by decide⟩
  · obtain ⟨value, bound⟩ := exists_value_of_written unwritten
    have written := (encode_eq_some_text bound unwritten).2
    exact written.oneLine (writable.exact bound written.holds) (writable value bound).2

theorem reread_reread_of_some {value : Value} (reread : item.reread.value = some value) :
    item.reread.reread = item.reread :=
  reread_of_lasting reread (lasting_of_reread writable reread).1

/-- A leaf that is written and reread twice changes no more. -/
theorem reread_reread_reread : item.reread.reread.reread = item.reread.reread := by
  cases first : item.reread.value with
  | some value => rw [reread_reread_of_some writable first, reread_reread_of_some writable first]
  | none =>
    have lost : item.reread = item.unbind := reread_of_isNone (by rw [first]; exact nofun)
    rw [lost]
    cases second : item.unbind.reread.value with
    | some value => exact reread_reread_of_some (writable_unbind item) second
    | none =>
      have still : item.unbind.reread = item.unbind :=
        reread_of_isNone (by rw [second]; exact nofun)
      rw [still, still]

/-- A leaf that has no white space for a value changes no more after it is reread once. -/
theorem reread_reread_of_visible
    (visible : ∀ c, item.kind = .char → item.value = some (.char c) → Text.isWhite c = false) :
    item.reread.reread = item.reread := by
  cases first : item.reread.value with
  | some value => exact reread_reread_of_some writable first
  | none =>
    have lost : item.reread = item.unbind := reread_of_isNone (by rw [first]; exact nofun)
    have unwritten : item.encode = none := by
      by_contra written
      obtain ⟨value, bound⟩ := exists_value_of_written written
      have held := (encode_eq_some_text bound written).2.holds
      rw [value_reread_of_written bound written (writable.exact bound held)] at first
      obtain ⟨c, rfl, white⟩ := Value.isWhite_of_recovered? first
      have shown := visible c (Kind.holds_char_iff.mp held) bound
      exact Bool.false_ne_true (shown.symm.trans white)
    -- the null text denotes nothing here, and it is written again
    have second : item.unbind.reread.value = none := by
      rw [← first, value_reread_of_unwritten unwritten]
      exact value_reread_of_unwritten rfl
    rw [lost]
    exact reread_of_isNone (by rw [second]; exact nofun)

end

end Leaf

end ConfigTree
