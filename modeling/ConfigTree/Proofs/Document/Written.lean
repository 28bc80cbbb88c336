import ConfigTree.Proofs.Document.Grammar
import ConfigTree.Proofs.Text.Ascii
import ConfigTree.Proofs.Tree.Reread
import ConfigTree.Proofs.Tree.Writing

/-!
The document that a tree is written as. Its lines are the lines of the tree, and each of them is read
as what it was written for: a header as the path of its section, and the line of a leaf as the name
of the leaf and its text without leading blanks.
-/

namespace ConfigTree

def isWord (p : Char → Bool) : List Char → Bool
  | [] => false
  | first :: tail => first.isAlpha && tail.all p

def isKeyChar (c : Char) : Bool :=
  c.isAlphanum || c == '.' || c == '-' || c == '_'

def isSectionChar (c : Char) : Bool :=
  c.isAlphanum || c == '_'

def isPathChar (c : Char) : Bool :=
  isSectionChar c || c == separator

/-- A letter, and after it letters, digits, points, hyphens and low lines, all of ASCII. -/
def isKey (name : String) : Bool :=
  isWord isKeyChar name.toList

/-- One or more letters, digits and low lines, all of ASCII. -/
def isSectionName (name : String) : Bool :=
  name != "" && name.toList.all isSectionChar

def assignmentLine (name text : List Char) : List Char :=
  name ++ [' ', '=', ' '] ++ text

namespace Document
open Grammar

theorem lt_of_isAlphanum {c : Char} (allowed : c.isAlphanum = true) : c.toNat < 0x80 := by
  rw [Text.isAlphanum_iff, Text.isAlpha_iff] at allowed
  omega

theorem isLetter_ofNat {c : Char} (letter : c.isAlpha = true) :
    isLetter (UInt8.ofNat c.toNat) = true := by
  rw [Text.isAlpha_iff] at letter
  have value := UInt8.toNat_ofNat_of_lt' (show c.toNat < 256 by omega)
  simp only [isLetter, Bool.or_eq_true, Bool.and_eq_true, decide_eq_true_eq,
    UInt8.le_iff_toNat_le, value, UInt8.reduceToNat]
  exact letter

theorem isAlphanumeric_ofNat {c : Char} (allowed : c.isAlphanum = true) :
    isAlphanumeric (UInt8.ofNat c.toNat) = true := by
  have small := lt_of_isAlphanum allowed
  have value := UInt8.toNat_ofNat_of_lt' (show c.toNat < 256 by omega)
  rw [Text.isAlphanum_iff] at allowed
  rw [isAlphanumeric, Bool.or_eq_true]
  rcases allowed with letter | digit
  · exact Or.inl (isLetter_ofNat letter)
  · right
    simp only [Bool.and_eq_true, decide_eq_true_eq, UInt8.le_iff_toNat_le, value,
      UInt8.reduceToNat]
    exact digit

def Spells (p : Char → Bool) (q : UInt8 → Bool) : Prop :=
  ∀ c, p c = true → c.toNat < 0x80 ∧ q (UInt8.ofNat c.toNat) = true

theorem spells_key : Spells isKeyChar isNameOctet := by
  intro c allowed
  simp only [isKeyChar, Bool.or_eq_true, beq_iff_eq] at allowed
  rcases allowed with ((alphanumeric | rfl) | rfl) | rfl
  · refine ⟨lt_of_isAlphanum alphanumeric, ?_⟩
    rw [isNameOctet, isAlphanumeric_ofNat alphanumeric]
    rfl
  all_goals decide

theorem spells_path : Spells isPathChar isPathOctet := by
  intro c allowed
  simp only [isPathChar, isSectionChar, Bool.or_eq_true, beq_iff_eq] at allowed
  rcases allowed with (alphanumeric | rfl) | rfl
  · refine ⟨lt_of_isAlphanum alphanumeric, ?_⟩
    rw [isPathOctet, isAlphanumeric_ofNat alphanumeric]
    rfl
  all_goals decide

theorem spells_lineSpace : Spells isLineSpace Text.isLineBlank := by
  intro c blank
  simp only [isLineSpace, Bool.or_eq_true, beq_iff_eq] at blank
  rcases blank with (rfl | rfl) | rfl <;> decide

theorem encode_of_spells {p : Char → Bool} {q : UInt8 → Bool} (spells : Spells p q)
    {text : List Char} (all : ∀ c ∈ text, p c = true) :
    ∀ b ∈ Text.Utf8.encode text, q b = true := by
  have ascii : ∀ c ∈ text, c.toNat < 0x80 := fun c member => (spells c (all c member)).1
  rw [Text.Utf8.encode_of_ascii ascii]
  intro b member
  obtain ⟨c, inside, rfl⟩ := List.mem_map.mp member
  exact (spells c (all c inside)).2

theorem word_encode {p : Char → Bool} {q : UInt8 → Bool} (spells : Spells p q)
    {word : List Char} (spelled : isWord p word = true) : Word q (Text.Utf8.encode word) := by
  cases word with
  | nil => cases spelled
  | cons first tail =>
    rw [isWord, Bool.and_eq_true, List.all_eq_true] at spelled
    obtain ⟨letter, all⟩ := spelled
    have ascii : first.toNat < 0x80 := by
      rw [Text.isAlpha_iff] at letter
      omega
    refine ⟨UInt8.ofNat first.toNat, Text.Utf8.encode tail, ?_, isLetter_ofNat letter, ?_⟩
    · rw [Text.Utf8.encode_cons, Text.Utf8.encodeChar_of_ascii ascii]
      rfl
    · exact encode_of_spells spells all

theorem text_encode (name : List Char) : text (Text.Utf8.encode name) = String.ofList name := by
  rw [text, Text.Utf8.decode_encode]

theorem not_mem_encode {text : List Char} (clean : '\n' ∉ text) :
    lineFeed ∉ Text.Utf8.encode text :=
  fun member => clean (Text.Utf8.mem_of_mem_encode (by decide) member)

theorem isLineSpace_of_isLineBlank {b : UInt8} (blank : Text.isLineBlank b = true) :
    b < 0x80 ∧ isLineSpace (Char.ofNat b.toNat) = true := by
  simp only [Text.isLineBlank, Bool.or_eq_true, beq_iff_eq] at blank
  rcases blank with (rfl | rfl) | rfl <;> decide

theorem avoids_encode (text : List Char) :
    Avoids Text.isLineBlank (Text.Utf8.encode (text.dropWhile isLineSpace)) := by
  cases left : text.dropWhile isLineSpace with
  | nil => exact Avoids.nil
  | cons c rest =>
    have visible : isLineSpace c = false := by
      have filled : text.dropWhile isLineSpace ≠ [] := by simp [left]
      have stops := List.head_dropWhile_not isLineSpace filled
      simpa [left] using stops
    rw [Text.Utf8.encode_cons]
    cases octets : Text.Utf8.encodeChar c with
    | nil => exact absurd octets (Text.Utf8.encodeChar_ne_nil c)
    | cons first tail =>
      apply Avoids.cons
      by_contra blank
      rw [Bool.not_eq_false] at blank
      obtain ⟨ascii, space⟩ := isLineSpace_of_isLineBlank blank
      have member : first ∈ Text.Utf8.encodeChar c := octets ▸ List.mem_cons_self
      rw [← Text.Utf8.eq_of_mem_encodeChar ascii member, visible] at space
      cases space

theorem blanks_nil : Blanks [] := by
  intro b member
  cases member

theorem blanks_cons {first : UInt8} {rest : List UInt8} (blank : Text.isLineBlank first = true)
    (others : Blanks rest) : Blanks (first :: rest) := by
  intro b member
  rcases List.mem_cons.mp member with rfl | inside
  · exact blank
  · exact others b inside

theorem blanks_encode (text : List Char) :
    Blanks (Text.Utf8.encode (text.takeWhile isLineSpace)) := by
  apply encode_of_spells spells_lineSpace
  intro c member
  exact List.mem_takeWhile_imp member

theorem not_special_of_isLetter {b : UInt8} (letter : isLetter b = true) :
    b ≠ hash ∧ b ≠ openBracket := by
  constructor <;> rintro rfl <;> exact absurd letter (by decide)

theorem not_mem_of_isWord {p : Char → Bool} {word : List Char} (spelled : isWord p word = true)
    {c : Char} (noLetter : c.isAlpha = false) (other : p c = false) : c ∉ word := by
  intro member
  cases word with
  | nil => cases member
  | cons first tail =>
    rw [isWord, Bool.and_eq_true, List.all_eq_true] at spelled
    rcases List.mem_cons.mp member with rfl | inside
    · rw [spelled.1] at noLetter
      cases noLetter
    · rw [spelled.2 c inside] at other
      cases other

theorem encode_assignmentLine (name text : List Char) :
    Text.Utf8.encode (assignmentLine name text) =
      Text.Utf8.encode name ++
        ([0x20] ++ equalsSign ::
          ((0x20 :: Text.Utf8.encode (text.takeWhile isLineSpace)) ++
            Text.Utf8.encode (text.dropWhile isLineSpace))) := by
  have parts : Text.Utf8.encode text =
      Text.Utf8.encode (text.takeWhile isLineSpace) ++
        Text.Utf8.encode (text.dropWhile isLineSpace) := by
    rw [← Text.Utf8.encode_append, List.takeWhile_append_dropWhile]
  rw [assignmentLine, Text.Utf8.encode_append, Text.Utf8.encode_append, List.append_assoc, parts]
  rfl

theorem clean_assignmentLine {name : String} {text : List Char} (key : isKey name = true)
    {c : Char} (noLetter : c.isAlpha = false) (other : isKeyChar c = false)
    (apart : c ∉ [' ', '=', ' ']) (clean : c ∉ text) :
    c ∉ assignmentLine name.toList text := by
  have spelled := not_mem_of_isWord key noLetter other
  simp only [assignmentLine, List.mem_append, not_or]
  exact ⟨⟨spelled, apart⟩, clean⟩

theorem readLine_assignmentLine {name : String} {text : List Char} (key : isKey name = true)
    (clean : '\n' ∉ text) :
    readLine false (Text.Utf8.encode (assignmentLine name.toList text)) =
      .ok (.assignment name (String.ofList (text.dropWhile isLineSpace))) := by
  have octets := not_mem_encode
    (clean_assignmentLine key (c := '\n') (by decide) (by decide) (by decide) clean)
  have word := word_encode spells_key key
  have gap : Blanks [0x20] := blanks_cons rfl blanks_nil
  have lead : Blanks (0x20 :: Text.Utf8.encode (text.takeWhile isLineSpace)) :=
    blanks_cons rfl (blanks_encode text)
  have assigned := Grammar.Assignment.value word gap lead (avoids_encode text)
  rw [text_encode, text_encode, String.ofList_toList] at assigned
  -- the line begins with the letter that its name begins with
  obtain ⟨first, tail, split, letter, _⟩ := word
  have plain := not_special_of_isLetter letter
  rw [encode_assignmentLine, split, List.cons_append] at octets ⊢
  rw [split, List.cons_append] at assigned
  have means := Means.assignment rfl blanks_nil (not_isLineBlank_of_isLetter letter) plain.1
    plain.2 assigned
  exact means.eq_readLine octets

theorem clean_headerLine {path : List Char} (spelled : isWord isPathChar path = true) {c : Char}
    (noLetter : c.isAlpha = false) (other : isPathChar c = false) (apart : c ∉ ['[', ']']) :
    c ∉ headerLine path := by
  have plain := not_mem_of_isWord spelled noLetter other
  simp only [List.mem_cons, List.not_mem_nil, or_false, not_or] at apart
  simp [headerLine, plain, apart]

theorem readLine_headerLine {path : List Char} (spelled : isWord isPathChar path = true) :
    readLine false (Text.Utf8.encode (headerLine path)) =
      .ok (.header (String.ofList path)) := by
  have kept := clean_headerLine spelled (c := '\n') (by decide) (by decide) (by decide)
  have word := word_encode spells_path spelled
  have parts : Text.Utf8.encode (headerLine path) =
      openBracket :: (Text.Utf8.encode path ++ [closeBracket]) := by
    rw [headerLine, Text.Utf8.encode_cons, Text.Utf8.encode_append]
    rfl
  have header := Grammar.Header.path blanks_nil word blanks_nil blanks_nil Trailer.lineEnd
  rw [text_encode] at header
  have octets := not_mem_encode kept
  rw [parts] at octets ⊢
  have means : Means false ([] ++ openBracket :: (Text.Utf8.encode path ++ [closeBracket])) _ :=
    .header blanks_nil header
  exact means.eq_readLine octets

/-- Lines that are written out, each with a line feed behind it, are the lines that are read, and
after the last line feed there is one more that is empty. -/
theorem lines_encode {pieces : List (List Char)}
    (clean : ∀ line ∈ pieces, '\n' ∉ line ∧ '\x00' ∉ line) :
    lines (Text.Utf8.encode (pieces.flatMap (· ++ ['\n']))) =
      (pieces ++ [[]]).map Text.Utf8.encode := by
  have whole : Text.Utf8.encode (pieces.flatMap (· ++ ['\n'])) =
      ofLines (pieces.map Text.Utf8.encode) := by
    rw [Text.Utf8.encode, List.flatMap_assoc, ofLines, List.flatMap_map]
    apply List.flatMap_congr
    intro line _
    exact Text.Utf8.encode_append line ['\n']
  rw [whole, lines_ofLines, List.map_append]
  · rfl
  · intro octets member
    obtain ⟨line, inside, rfl⟩ := List.mem_map.mp member
    refine ⟨not_mem_encode (clean line inside).1, ?_⟩
    intro nul
    exact (clean line inside).2 (Text.Utf8.mem_of_mem_encode (by decide) nul)

end Document

end ConfigTree
