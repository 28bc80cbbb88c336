import ConfigTree.Proofs.Document.Lines
import ConfigTree.Proofs.Text.Ascii

/-!
What the lines of a document give. A header gives a path that is not empty, and an assignment gives
a name without a separator. In a section that is skipped the headers give the same and the
assignments nothing.
-/

namespace ConfigTree.Document

def Item.path? : Item → Option String
  | .header path => some path
  | _ => none

/-- What is seen of an item in a section that is skipped or in one that is not. -/
def Item.seen : Bool → Item → Item
  | true, .assignment _ _ => .nothing
  | _, item => item

/-- Whether a line is a header, well formed or not. -/
def IsHeader (line : List UInt8) : Prop :=
  (skipBlanks line).head? = some openBracket

def headerPath? (line : List UInt8) : Option String :=
  (readLine true line).toOption.bind Item.path?

def lastHeader? (pieces : List (List UInt8)) : Option String :=
  (pieces.filterMap headerPath?).getLast?

theorem lt_of_isAlphanumeric {b : UInt8} (allowed : isAlphanumeric b = true) : b < 0x80 := by
  simp only [isAlphanumeric, isLetter, Bool.or_eq_true, Bool.and_eq_true, decide_eq_true_eq,
    UInt8.le_iff_toNat_le] at allowed
  rw [UInt8.lt_iff_toNat_lt]
  simp only [UInt8.reduceToNat] at allowed ⊢
  omega

theorem lt_of_isNameOctet {b : UInt8} (allowed : isNameOctet b = true) : b < 0x80 := by
  simp only [isNameOctet, Bool.or_eq_true, beq_iff_eq] at allowed
  rcases allowed with ((alphanumeric | rfl) | rfl) | rfl
  · exact lt_of_isAlphanumeric alphanumeric
  all_goals decide

theorem lt_of_isPathOctet {b : UInt8} (allowed : isPathOctet b = true) : b < 0x80 := by
  simp only [isPathOctet, Bool.or_eq_true, beq_iff_eq] at allowed
  rcases allowed with (alphanumeric | rfl) | rfl
  · exact lt_of_isAlphanumeric alphanumeric
  all_goals decide

theorem toList_text_of_ascii {octets : List UInt8} (ascii : ∀ b ∈ octets, b < 0x80) :
    (text octets).toList = octets.map fun b => Char.ofNat b.toNat := by
  rw [text, String.toList_ofList, Text.Utf8.decode_of_ascii ascii]

theorem text_ne_empty {first : UInt8} {tail : List UInt8} (letter : isLetter first = true) :
    text (first :: tail) ≠ "" := by
  intro empty
  have ascii := lt_of_isNameOctet (isNameOctet_of_isLetter letter)
  have characters := congrArg String.toList empty
  rw [text, String.toList_ofList, Text.Utf8.decode_cons_of_ascii ascii] at characters
  cases characters

theorem not_mem_text {octets : List UInt8} (allowed : ∀ b ∈ octets, isNameOctet b = true) :
    '/' ∉ (text octets).toList := by
  intro member
  rw [toList_text_of_ascii fun b inside => lt_of_isNameOctet (allowed b inside)] at member
  obtain ⟨b, inside, same⟩ := List.mem_map.mp member
  have value := Text.Utf8.toNat_ofNat_of_ascii (lt_of_isNameOctet (allowed b inside))
  rw [same] at value
  have slash : b = 0x2F := UInt8.toNat_inj.mp value.symm
  have wrong := allowed b inside
  rw [slash] at wrong
  exact absurd wrong (by decide)

section
variable {line tail rest left : List UInt8} {first : UInt8} {item : Item}

theorem header_of_takeHeader (taken : takeHeader rest = .ok (item, left)) :
    ∃ path, item = .header path ∧ path ≠ "" := by
  unfold takeHeader at taken
  split at taken
  · cases taken
  · split at taken
    · next first tail _ letter =>
      split at taken
      · cases taken
      · next next after _ =>
        split at taken
        · cases trailer : takeTrailer after with
          | error expected => rw [trailer] at taken; cases taken
          | ok left =>
            rw [trailer] at taken
            cases taken
            exact ⟨_, rfl, text_ne_empty letter⟩
        · cases taken
    · cases taken

theorem assignment_of_takeAssignment (taken : takeAssignment first tail = .ok (item, left)) :
    ∃ name value, item = .assignment name value ∧ '/' ∉ name.toList := by
  unfold takeAssignment at taken
  split at taken
  · next letter =>
    split at taken
    · cases taken
    · split at taken
      · cases taken
        refine ⟨_, _, rfl, not_mem_text ?_⟩
        intro b member
        rcases List.mem_cons.mp member with rfl | inside
        · exact isNameOctet_of_isLetter letter
        · exact List.mem_takeWhile_imp inside
      · cases taken
  · cases taken

/-- A line gives nothing, a header in skipped sections and outside of them, or an assignment that
is not read in skipped sections. -/
inductive Gives (line : List UInt8) : Item → Prop where
  | nothing : ¬IsHeader line → readLine true line = .ok .nothing → Gives line .nothing
  | header (path : String) : IsHeader line → readLine true line = .ok (.header path) →
      path ≠ "" → Gives line (.header path)
  | assignment (name value : String) : ¬IsHeader line → readLine true line = .ok .nothing →
      '/' ∉ name.toList → Gives line (.assignment name value)

theorem readLine_of_not_isHeader (plain : ¬IsHeader line) : readLine true line = .ok .nothing := by
  rw [IsHeader] at plain
  rw [readLine]
  cases seen : skipBlanks line with
  | nil => rfl
  | cons first tail =>
    rw [seen] at plain
    have other : first ≠ openBracket := fun same => plain (congrArg some same)
    simp only [takeLine, if_neg other, if_true]
    split
    · rfl
    · split <;> rfl

theorem readLine_of_isHeader (header : IsHeader line) (skipping other : Bool) :
    readLine skipping line = readLine other line := by
  rw [IsHeader] at header
  rw [readLine, readLine]
  cases seen : skipBlanks line with
  | nil => rfl
  | cons first tail =>
    rw [seen] at header
    cases header
    rfl

theorem takeLine_of_readLine {skipping : Bool} (seen : skipBlanks line = first :: tail)
    (given : readLine skipping line = .ok item) :
    ∃ left, takeLine skipping first tail = .ok (item, left) := by
  rw [readLine, seen] at given
  dsimp only at given
  cases taken : takeLine skipping first tail with
  | error expected => rw [taken] at given; cases given
  | ok pair =>
    rw [taken] at given
    cases given
    exact ⟨pair.2, rfl⟩

theorem gives_of_readLine (given : readLine false line = .ok item) : Gives line item := by
  by_cases header : IsHeader line
  · have same := readLine_of_isHeader header true false
    cases seen : skipBlanks line with
    | nil => simp [IsHeader, seen] at header
    | cons first tail =>
      obtain ⟨left, taken⟩ := takeLine_of_readLine seen given
      have bracket : first = openBracket := by simpa [IsHeader, seen] using header
      subst bracket
      obtain ⟨path, rfl, nonempty⟩ := header_of_takeHeader taken
      exact .header path header (same.trans given) nonempty
  · have skipped := readLine_of_not_isHeader header
    cases seen : skipBlanks line with
    | nil =>
      rw [readLine, seen] at given
      cases given
      exact .nothing header skipped
    | cons first tail =>
      obtain ⟨left, taken⟩ := takeLine_of_readLine seen given
      have other : first ≠ openBracket := fun bracket => header (by simp [IsHeader, seen, bracket])
      simp only [takeLine, if_neg other, Bool.false_eq_true, if_false] at taken
      split at taken
      · cases taken
        exact .nothing header skipped
      split at taken
      · cases taken
        exact .nothing header skipped
      · obtain ⟨name, value, rfl, apart⟩ := assignment_of_takeAssignment taken
        exact .assignment name value header skipped apart

theorem readLine_of_ok (given : readLine false line = .ok item) (skipping : Bool) :
    readLine skipping line = .ok (item.seen skipping) := by
  cases skipping with
  | false => exact given
  | true =>
    cases gives_of_readLine given with
    | nothing _ skipped => exact skipped
    | header path _ skipped _ => exact skipped
    | assignment name value _ skipped _ => exact skipped

theorem headerPath?_of_ok {skipping : Bool} (given : readLine skipping line = .ok item) :
    headerPath? line = item.path? := by
  rw [headerPath?]
  cases skipping with
  | true =>
    rw [given]
    rfl
  | false =>
    rw [readLine_of_ok given]
    cases item <;> rfl

end

theorem lastHeader?_cons (line : List UInt8) (rest : List (List UInt8)) :
    lastHeader? (line :: rest) = (lastHeader? rest).or (headerPath? line) := by
  rw [lastHeader?, lastHeader?, List.filterMap_cons]
  cases headerPath? line with
  | none => exact Option.or_none.symm
  | some path =>
    cases rest.filterMap headerPath? with
    | nil => rfl
    | cons next below =>
      rw [List.getLast?_cons_cons, List.getLast?_eq_some_getLast (List.cons_ne_nil next below)]
      rfl

end ConfigTree.Document
