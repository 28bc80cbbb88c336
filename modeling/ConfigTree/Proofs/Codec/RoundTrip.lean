import Mathlib.Data.List.TakeDrop
import ConfigTree.Proofs.Address
import ConfigTree.Proofs.Codec.Integers
import ConfigTree.Proofs.Text.Runs

/-!
What the text of a value denotes. A value that has a text is read back from it, with two exceptions.
Nothing in a string is escaped when it is written, so a quotation mark in it ends it when it is
read, and a bound on the length holds for what is read too. A character that is white space is
skipped as one that stands in front of a value.

Main statement: `Kind.decode_encode_iff`.
-/

namespace ConfigTree

def Codec.isPlain (c : Char) : Bool :=
  c.isAlphanum || c == '-' || c == '.'

theorem Codec.isPlain_of_isAlphanum {c : Char} (alphanumeric : c.isAlphanum = true) :
    isPlain c = true := by
  simp [isPlain, alphanumeric]

theorem Address.isPlain_of_mem_text {address : Address} {c : Char} (member : c ∈ address.text) :
    Codec.isPlain c = true := by
  rcases mem_text member with digit | rfl
  · exact Codec.isPlain_of_isAlphanum (by simp [Char.isAlphanum, digit])
  · rfl

namespace Value

/-- What the text of a value denotes under a bound on the length. -/
def recovered? (maxLength : Nat) : Value → Option Value
  | string text =>
    let kept := Codec.bounded maxLength (text.toList.takeWhile (· ≠ '"'))
    some (string (String.ofList kept))
  | char c => if Text.isWhite c then none else some (char c)
  | value => some value

/-- The values that are read back from their texts as they are. -/
def Recoverable (maxLength : Nat) : Value → Prop
  | string text => '"' ∉ text.toList ∧ (maxLength = 0 ∨ text.length ≤ maxLength)
  | char c => Text.isWhite c = false
  | _ => True

end Value

namespace Text

theorem trimStart_of_not_isWhite {c : Char} (visible : isWhite c = false) (rest : List Char) :
    trimStart (c :: rest) = c :: rest :=
  List.dropWhile_cons_of_neg (by simp [visible])

theorem not_isWhite_of_isPlain {c : Char} (plain : Codec.isPlain c = true) :
    isWhite c = false := by
  simp only [Codec.isPlain, Bool.or_eq_true, beq_iff_eq, isAlphanum_iff, isAlpha_iff] at plain
  rcases plain with (alphanumeric | rfl) | rfl
  · simp only [isWhite, Bool.or_eq_false_iff, Bool.and_eq_false_iff, decide_eq_false_iff_not,
      beq_eq_false_iff_ne]
    omega
  all_goals decide

theorem firstWord?_of_not_isWhite {text : List Char} (nonempty : text ≠ [])
    (visible : ∀ c ∈ text, isWhite c = false) : firstWord? text = some text := by
  cases text with
  | nil => exact absurd rfl nonempty
  | cons first rest =>
    have whole : (first :: rest).takeWhile (!isWhite ·) = first :: rest := by
      rw [List.takeWhile_eq_self_iff]
      intro c member
      rw [visible c member]
      rfl
    rw [firstWord?, trimStart_of_not_isWhite (visible first List.mem_cons_self), whole]

end Text

namespace Number

theorem ofInt_wrapped {bits : Nat} (fits : bits ≤ 64) (word : BitVec bits) :
    BitVec.ofInt bits (wrapped (integer false word.toNat)) = word := by
  have small : word.toNat < wordCount :=
    Nat.lt_of_lt_of_le word.isLt (Nat.pow_le_pow_right (by decide) fits)
  have same : wrapped (integer false word.toNat) = word.toNat := by
    simp only [wrapped, integer, Bool.false_eq_true, if_false, Int.natAbs_natCast]
    rw [if_neg (Nat.not_le.mpr small)]
    exact Int.emod_eq_of_lt (Int.natCast_nonneg _) (Int.ofNat_lt.mpr small)
  rw [same, BitVec.ofInt_natCast, BitVec.ofNat_toNat, BitVec.setWidth_eq]

theorem ofInt_clamped {width : Width} (word : BitVec width.bits) :
    BitVec.ofInt width.bits (clamped (integer (decide (word.toInt < 0)) word.toInt.natAbs)) =
      word := by
  have low := BitVec.le_toInt word
  have high := BitVec.toInt_lt (x := word)
  have value : integer (decide (word.toInt < 0)) word.toInt.natAbs = word.toInt := by
    simp only [integer, decide_eq_true_eq]
    omega
  have same : clamped word.toInt = word.toInt := by
    cases width <;> simp only [Width.bits, clamped] at low high ⊢ <;> omega
  rw [value, same, BitVec.ofInt_toInt]

end Number

namespace Kind

/-- The values that are written and their texts, one case for each shape of a value and kind. -/
inductive Written : Kind → Value → List Char → Prop where
  | pointer (location : BitVec 64) : location ≠ 0 →
      Written void (.pointer location) (Codec.hexMark ++ Number.digits 16 location.toNat)
  | signed (width : Width) (word : BitVec width.bits) :
      Written (signed width) (.signed width word) (Codec.decimal word.toInt)
  | unsigned (width : Width) (word : BitVec width.bits) :
      Written (unsigned width) (.unsigned width word) (Number.digits 10 word.toNat)
  | hexadecimal (width : Width) (word : BitVec width.bits) :
      Written (hexadecimal width) (.unsigned width word)
        (Codec.hexMark ++ Number.upperHex (width.bits / 4) word.toNat)
  | float (number : Number.Binary64) : Written float (.float number) (number.toFixed 6)
  | string (text : String) : Written string (.string text) ('"' :: (text.toList ++ ['"']))
  | boolean (flag : Bool) :
      Written boolean (.boolean flag) (if flag then "True".toList else "False".toList)
  | char (c : Char) : Written char (.char c) [c]
  | address (quad : Address) : Written address (.address quad) quad.text

theorem written_of_write? {kind : Kind} {value : Value} {text : List Char}
    (found : kind.write? value = some text) : Written kind value text := by
  cases kind <;> cases value <;>
    simp only [write?, reduceCtorEq, Option.some.injEq, Option.ite_none_left_eq_some,
      Option.ite_none_right_eq_some] at found
  case void.pointer location => exact found.2 ▸ .pointer location found.1
  case signed.signed width actual word =>
    obtain ⟨rfl, rfl⟩ := found
    exact .signed width word
  case unsigned.unsigned width actual word =>
    obtain ⟨rfl, rfl⟩ := found
    exact .unsigned width word
  case hexadecimal.unsigned width actual word =>
    obtain ⟨rfl, rfl⟩ := found
    exact .hexadecimal width word
  case float.float number => exact found ▸ .float number
  case string.string text => exact found ▸ .string text
  case boolean.boolean flag => exact found ▸ .boolean flag
  case char.char c => exact found ▸ .char c
  case address.address quad => exact found ▸ .address quad

theorem write?_eq_none_iff {kind : Kind} {value : Value} (held : kind.holds value = true) :
    kind.write? value = none ↔ value = .pointer 0 := by
  cases kind <;> cases value <;> simp_all [write?, holds]

section
variable (maxLength : Nat)

theorem read?_string (inner : List Char) :
    string.read? maxLength ('"' :: (inner ++ ['"'])) =
      some (.string (String.ofList (Codec.bounded maxLength (inner.takeWhile (· ≠ '"'))))) := by
  have closed : '"' ∈ inner ++ ['"'] := by simp
  have body : (inner ++ ['"']).takeWhile (· ≠ '"') = inner.takeWhile (· ≠ '"') :=
    Text.takeWhile_append_of_stops inner (by simp)
  have unquoted : Codec.unquote ('"' :: (inner ++ ['"'])) = inner.takeWhile (· ≠ '"') := by
    rw [Codec.unquote, Text.trimStart_of_not_isWhite (by decide)]
    exact (if_pos closed).trans body
  rw [read?, unquoted]

theorem read?_char (c : Char) :
    char.read? maxLength [c] = if Text.isWhite c then none else some (.char c) := by
  rw [read?]
  by_cases white : Text.isWhite c = true
  · rw [if_pos white, Text.trimStart, List.dropWhile_cons_of_pos white]
    rfl
  · rw [if_neg white, Text.trimStart_of_not_isWhite (by simpa using white)]
    rfl

theorem read?_address (quad : Address) :
    address.read? maxLength quad.text = some (.address quad) := by
  have visible : ∀ c ∈ quad.text, Text.isWhite c = false := by
    intro c member
    exact Text.not_isWhite_of_isPlain (Address.isPlain_of_mem_text member)
  rw [read?, Text.firstWord?_of_not_isWhite quad.text_ne_nil visible, Option.bind_some,
    Address.read?_text]
  rfl

end

theorem Written.read?_eq {kind : Kind} {value : Value} {text : List Char}
    (written : Written kind value text) (exact : ∀ number, value ≠ .float number)
    (maxLength : Nat) : kind.read? maxLength text = value.recovered? maxLength := by
  cases written with
  | pointer location nonzero =>
    have denoted := Number.denotes_digits (show 1 < 16 by decide) (by decide) location.toNat
    rw [Keeps.void.read?_of_reads (Number.Numeral.reads_hexMark denoted),
      Number.ofInt_wrapped (Nat.le_refl 64)]
    rfl
  | signed width word =>
    rw [(Keeps.signed width).read?_of_reads (Number.Numeral.reads_decimal word.toInt),
      Number.ofInt_clamped]
    rfl
  | unsigned width word =>
    rw [(Keeps.unsigned width).read?_of_reads (Number.Numeral.reads_digits word.toNat),
      Number.ofInt_wrapped width.bits_le]
    rfl
  | hexadecimal width word =>
    have denoted := Number.denotes_upperHex (width.bits / 4) word.toNat
    rw [(Keeps.hexadecimal width).read?_of_reads (Number.Numeral.reads_hexMark denoted),
      Number.ofInt_wrapped width.bits_le]
    rfl
  | float number => exact absurd rfl (exact number)
  | string text => exact read?_string maxLength text.toList
  | boolean flag =>
    have found : Codec.readFlag? (if flag then "True".toList else "False".toList) = some flag := by
      cases flag <;> decide
    rw [read?, found]
    rfl
  | char c => exact read?_char maxLength c
  | address quad => exact read?_address maxLength quad

end Kind

namespace Codec

theorem bounded_isPrefix (maxLength : Nat) (text : List Char) :
    bounded maxLength text <+: text := by
  rw [bounded]
  split
  · exact List.prefix_refl text
  · exact List.take_prefix maxLength text

theorem bounded_eq_self_iff {maxLength : Nat} {text : List Char} :
    bounded maxLength text = text ↔ maxLength = 0 ∨ text.length ≤ maxLength := by
  rw [bounded]
  split
  · next unbounded => simp [unbounded]
  · next bound => simp [bound, List.take_eq_self_iff]

theorem bounded_takeWhile_eq_self_iff {maxLength : Nat} {mark : Char} {text : List Char} :
    bounded maxLength (text.takeWhile (· ≠ mark)) = text ↔
      mark ∉ text ∧ (maxLength = 0 ∨ text.length ≤ maxLength) := by
  have unmarked : text.takeWhile (· ≠ mark) = text ↔ mark ∉ text := by
    rw [List.takeWhile_eq_self_iff]
    constructor
    · intro other member
      simpa using other mark member
    · intro absent c member
      have different : c ≠ mark := fun same => absent (same ▸ member)
      exact decide_eq_true different
  rw [← bounded_eq_self_iff, ← unmarked]
  constructor
  · intro same
    have longer := bounded_isPrefix maxLength (text.takeWhile (· ≠ mark))
    rw [same] at longer
    have whole : text.takeWhile (· ≠ mark) = text :=
      (List.takeWhile_prefix _).eq_of_length_le longer.length_le
    rw [whole] at same
    exact ⟨whole, same⟩
  · rintro ⟨whole, within⟩
    rw [whole, within]

end Codec

namespace Value

theorem recovered?_eq_some_iff {maxLength : Nat} {value : Value} :
    value.recovered? maxLength = some value ↔ value.Recoverable maxLength := by
  cases value with
  | string text =>
    rw [recovered?, Recoverable, Option.some.injEq, string.injEq, ← String.length_toList,
      ← Codec.bounded_takeWhile_eq_self_iff, ← String.toList_inj, String.toList_ofList]
  | char c => simp [recovered?, Recoverable]
  | _ => exact iff_of_true rfl trivial

end Value

namespace Kind

theorem decode_of_encode {kind : Kind} {value : Value} {text : String}
    (encoded : kind.encode value = some text) (exact : ∀ number, value ≠ .float number)
    (maxLength : Nat) :
    kind.decode maxLength text =
      match value.recovered? maxLength with
      | some found => .ok found
      | none => .error (.undecodable kind text) := by
  obtain ⟨characters, found, rfl⟩ := Option.map_eq_some_iff.mp encoded
  have codec := hasCodec_of_holds (holds_of_write? found)
  have read := (written_of_write? found).read?_eq exact maxLength
  cases recovered : value.recovered? maxLength with
  | none => simp only [decode, codec, if_true, String.toList_ofList, read, recovered]
  | some other => simp only [decode, codec, if_true, String.toList_ofList, read, recovered]

/-- A value of a kind has a text unless it is the null pointer, and the text denotes the value
unless it is a string with a quotation mark or of too many characters, or a character that is white
space. Such a string is cut at the first mark and at the bound, and such a character is refused. -/
theorem decode_encode_iff {kind : Kind} {value : Value} (held : kind.holds value = true)
    (exact : ∀ number, value ≠ .float number) (maxLength : Nat) :
    (kind.encode value = none ↔ value = .pointer 0) ∧
      ∀ text, kind.encode value = some text →
        (kind.decode maxLength text = .ok value ↔ value.Recoverable maxLength) ∧
        (∀ inner, value = .string inner → kind.decode maxLength text = .ok (.string
          (String.ofList (Codec.bounded maxLength (inner.toList.takeWhile (· ≠ '"')))))) ∧
        (∀ c, value = .char c → Text.isWhite c = true →
          kind.decode maxLength text = .error (.undecodable kind text)) := by
  constructor
  · rw [encode, Option.map_eq_none_iff]
    exact write?_eq_none_iff held
  intro text encoded
  have decoded := decode_of_encode encoded exact maxLength
  refine ⟨?_, ?_, ?_⟩
  · rw [decoded, ← Value.recovered?_eq_some_iff]
    cases value.recovered? maxLength <;> simp
  · rintro inner rfl
    exact decoded
  · rintro c rfl white
    rw [decoded, Value.recovered?, if_pos white]

theorem decode_encode_iff_of_quoted :
    let value := Value.string "ab\"c"
    string.holds value = true ∧ (∀ number, value ≠ .float number) ∧
      string.encode value = some "\"ab\"c\"" ∧
      (string.decode 1 "\"ab\"c\"" = .ok value ↔ value.Recoverable 1) ∧
      string.decode 1 "\"ab\"c\"" = .ok (.string "a") := by
  intro value
  have held : string.holds value = true := rfl
  have exact : ∀ number, value ≠ .float number := by simp [value]
  have encoded : string.encode value = some "\"ab\"c\"" := by decide
  obtain ⟨-, law⟩ := decode_encode_iff held exact 1
  obtain ⟨same, cut, -⟩ := law _ encoded
  exact ⟨held, exact, encoded, same, cut _ rfl⟩

end Kind

end ConfigTree
