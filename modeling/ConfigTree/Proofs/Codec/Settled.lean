import ConfigTree.Proofs.Codec.RoundTrip
import ConfigTree.Proofs.Tree.Reread

/-!
Values that come from one line. A string read from a line has its characters from that line and is
within the bound of its leaf, and a character read from it is not white space. The text of such a
value stays in one line too and begins with no blank, so a leaf with such a value is reread from all
of its text, and all that can be lost in that is what stands behind a quotation mark in a string.

Main statements: `Leaf.text_reread_of_unmarked` and `Leaf.text_reread_of_string`.
-/

namespace ConfigTree

/-- A text in which neither a line nor a document ends. -/
def Text.OneLine (text : List Char) : Prop :=
  '\n' ∉ text ∧ '\x00' ∉ text

/-- The values that the texts of lines denote under a bound on the length. -/
def Value.Settled (maxLength : Nat) : Value → Prop
  | string text => Text.OneLine text.toList ∧ (maxLength = 0 ∨ text.length ≤ maxLength)
  | char c => Text.isWhite c = false ∧ c ≠ '\x00'
  | _ => True

def Value.OneLine : Value → Prop
  | string text => Text.OneLine text.toList
  | char c => Text.OneLine [c]
  | _ => True

theorem Value.Settled.visible {maxLength : Nat} {value : Value} (settled : value.Settled maxLength)
    (c : Char) (char : value = .char c) : Text.isWhite c = false := by
  subst char
  exact settled.1

theorem Value.Settled.oneLine {maxLength : Nat} {value : Value}
    (settled : value.Settled maxLength) : value.OneLine := by
  cases value with
  | string text => exact settled.1
  | char c =>
    obtain ⟨visible, nonzero⟩ := settled
    constructor
    · rw [List.mem_singleton]
      rintro rfl
      cases visible
    · rw [List.mem_singleton]
      exact Ne.symm nonzero
  | _ => trivial

/-- A leaf that is unbound or has a value of its kind that the text of a line denotes. -/
def Leaf.Settled (item : Leaf) : Prop :=
  ∀ value, item.value = some value →
    item.kind.holds value = true ∧ value.Settled item.maxLength

/-- A leaf that is unbound or has a value of its kind. -/
def Leaf.Sound (item : Leaf) : Prop :=
  ∀ value, item.value = some value → item.kind.holds value = true

theorem Leaf.Settled.sound {item : Leaf} (settled : item.Settled) : item.Sound :=
  fun value bound => (settled value bound).1

namespace Text

theorem OneLine.of_subset {text part : List Char} (line : OneLine text) (inside : part ⊆ text) :
    OneLine part :=
  ⟨fun member => line.1 (inside member), fun member => line.2 (inside member)⟩

theorem isWhite_of_isLineSpace {c : Char} (space : isLineSpace c = true) : isWhite c = true := by
  simp only [isLineSpace, Bool.or_eq_true, beq_iff_eq] at space
  rcases space with (rfl | rfl) | rfl <;> decide

end Text

namespace Codec

theorem unquote_subset (text : List Char) : unquote text ⊆ text := by
  have trimmed : Text.trimStart text ⊆ text := (List.dropWhile_suffix _).subset
  have quoted (mark : Char) (rest : List Char) (whole : Text.trimStart text = mark :: rest) :
      before mark rest ⊆ text := by
    intro c member
    rw [before] at member
    split at member
    · apply trimmed
      rw [whole]
      exact List.mem_cons_of_mem mark ((List.takeWhile_prefix _).subset member)
    · cases member
  unfold unquote
  split
  · next rest whole => exact quoted '"' rest whole
  · next rest whole => exact quoted '\'' rest whole
  · intro c member
    rw [Text.trimEnd, List.mem_reverse] at member
    exact trimmed (List.mem_reverse.mp ((List.dropWhile_suffix _).subset member))

theorem length_bounded (maxLength : Nat) (text : List Char) :
    maxLength = 0 ∨ (bounded maxLength text).length ≤ maxLength := by
  rw [bounded]
  split
  · next unbounded => exact .inl unbounded
  · exact .inr (List.length_take_le maxLength text)

end Codec

namespace Kind

theorem holds_pointer_iff {kind : Kind} {location : BitVec 64} :
    kind.holds (.pointer location) = true ↔ kind = void := by
  cases kind <;> simp [holds]

theorem holds_float_iff {kind : Kind} {number : Number.Binary64} :
    kind.holds (.float number) = true ↔ kind = float := by
  cases kind <;> simp [holds]

theorem holds_string_iff {kind : Kind} {text : String} :
    kind.holds (.string text) = true ↔ kind = string := by
  cases kind <;> simp [holds]

theorem holds_char_iff {kind : Kind} {c : Char} : kind.holds (.char c) = true ↔ kind = char := by
  cases kind <;> simp [holds]

def nullValue? (maxLength : Nat) : Kind → Option Value
  | string => some (.string (String.ofList (Codec.bounded maxLength nullText.toList)))
  | char => some (.char 'N')
  | _ => none

theorem decode_nullText (kind : Kind) (maxLength : Nat) :
    (kind.decode maxLength nullText).toOption = kind.nullValue? maxLength := by
  have hexadecimal : Number.Numeral.read? .hexadecimal nullText.toList = none := by decide
  have inferred : Number.Numeral.read? .inferred nullText.toList = none := by decide
  have decimal : Number.Binary64.read? nullText.toList = none := by decide
  have quad : (Text.firstWord? nullText.toList).bind Address.read? = none := by decide
  have bare : Codec.unquote nullText.toList = nullText.toList := by decide
  rw [decode]
  cases kind with
  | void | hexadecimal width => rw [read?, hexadecimal]; rfl
  | signed width | unsigned width => rw [read?, inferred]; rfl
  | float => rw [read?, decimal]; rfl
  | address => rw [read?, quad]; rfl
  | string => rw [read?, bare]; rfl
  | _ => rfl

theorem settled_of_read? {kind : Kind} {maxLength : Nat} {text : List Char} {value : Value}
    (found : kind.read? maxLength text = some value) (line : Text.OneLine text) :
    value.Settled maxLength := by
  cases kind <;> simp only [read?, Option.map_eq_some_iff, Option.some.injEq, reduceCtorEq] at found
  case string =>
    subst found
    have inside : Codec.bounded maxLength (Codec.unquote text) ⊆ text := by
      intro c member
      exact Codec.unquote_subset text ((Codec.bounded_isPrefix maxLength _).subset member)
    rw [Value.Settled, String.toList_ofList, ← String.length_toList, String.toList_ofList]
    exact ⟨line.of_subset inside, Codec.length_bounded maxLength _⟩
  case char =>
    obtain ⟨c, first, rfl⟩ := found
    have visible := List.head?_dropWhile_not Text.isWhite text
    rw [Text.trimStart] at first
    rw [first] at visible
    have member : c ∈ text := (List.dropWhile_suffix _).subset (List.mem_of_head? first)
    refine ⟨by simpa using visible, ?_⟩
    rintro rfl
    exact line.2 member
  all_goals
    obtain ⟨_, _, rfl⟩ := found
    trivial

theorem isPlain_of_mem_digits {radix n : Nat} (large : 1 < radix) (small : radix ≤ 16) {c : Char}
    (member : c ∈ Number.digits radix n) : Codec.isPlain c = true :=
  Codec.isPlain_of_isAlphanum (Number.isAlphanum_of_mem_digits large small member).1

theorem isPlain_of_mem_decimal {n : Int} {c : Char} (member : c ∈ Codec.decimal n) :
    Codec.isPlain c = true := by
  rw [Codec.decimal] at member
  split at member
  · rcases List.mem_cons.mp member with rfl | digit
    · rfl
    · exact isPlain_of_mem_digits (by decide) (by decide) digit
  · exact isPlain_of_mem_digits (by decide) (by decide) member

theorem isPlain_of_mem_marked {digits : List Char} (plain : ∀ c ∈ digits, Codec.isPlain c = true) :
    ∀ c ∈ Codec.hexMark ++ digits, Codec.isPlain c = true := by
  intro c member
  rcases List.mem_append.mp member with mark | digit
  · have marks : Codec.hexMark.all Codec.isPlain = true := by decide
    exact List.all_eq_true.mp marks c mark
  · exact plain c digit

theorem Written.shape {kind : Kind} {value : Value} {text : List Char}
    (written : Written kind value text) (exact : ∀ number, value ≠ .float number) :
    (∃ inner, value = .string inner ∧ text = '"' :: (inner.toList ++ ['"'])) ∨
      (∃ c, value = .char c ∧ text = [c]) ∨ ∀ c ∈ text, Codec.isPlain c = true := by
  cases written with
  | pointer location nonzero =>
    refine .inr (.inr (isPlain_of_mem_marked ?_))
    exact fun c member => isPlain_of_mem_digits (by decide) (by decide) member
  | signed width word => exact .inr (.inr fun c member => isPlain_of_mem_decimal member)
  | unsigned width word =>
    exact .inr (.inr fun c member => isPlain_of_mem_digits (by decide) (by decide) member)
  | hexadecimal width word =>
    refine .inr (.inr (isPlain_of_mem_marked ?_))
    exact fun c member => Codec.isPlain_of_isAlphanum (Number.isAlphanum_of_mem_upperHex member)
  | float number => exact absurd rfl (exact number)
  | string text => exact .inl ⟨text, rfl, rfl⟩
  | boolean flag =>
    refine .inr (.inr (List.all_eq_true.mp ?_))
    cases flag <;> decide
  | char c => exact .inr (.inl ⟨c, rfl, rfl⟩)
  | address quad => exact .inr (.inr fun c member => Address.isPlain_of_mem_text member)

theorem Written.holds {kind : Kind} {value : Value} {text : List Char}
    (written : Written kind value text) : kind.holds value = true := by
  cases written <;> simp [Kind.holds]

theorem Written.oneLine {kind : Kind} {value : Value} {text : List Char}
    (written : Written kind value text) (exact : ∀ number, value ≠ .float number)
    (line : value.OneLine) : Text.OneLine text := by
  rcases written.shape exact with ⟨inner, rfl, rfl⟩ | ⟨c, rfl, rfl⟩ | plain
  · obtain ⟨feed, nul⟩ := line
    constructor
    · simp [feed]
    · simp [nul]
  · exact line
  · constructor
    · intro member
      exact absurd (plain _ member) (by decide)
    · intro member
      exact absurd (plain _ member) (by decide)

theorem Written.visible {kind : Kind} {value : Value} {text : List Char}
    (written : Written kind value text) (exact : ∀ number, value ≠ .float number)
    (visible : ∀ c, value = .char c → Text.isWhite c = false) :
    ∀ c ∈ text.head?, Text.isWhite c = false := by
  rcases written.shape exact with ⟨inner, rfl, rfl⟩ | ⟨c, rfl, rfl⟩ | plain
  · rintro c ⟨⟩
    rfl
  · rintro first ⟨⟩
    exact visible c rfl
  · intro c first
    exact Text.not_isWhite_of_isPlain (plain c (List.mem_of_mem_head? first))

end Kind

namespace Leaf

section
variable {item : Leaf}

theorem bareText_of_visible (visible : ∀ c ∈ item.text.toList.head?, isLineSpace c = false) :
    item.bareText = item.text := by
  have whole : item.text.toList.dropWhile isLineSpace = item.text.toList := by
    cases spelled : item.text.toList with
    | nil => rfl
    | cons first rest =>
      apply List.dropWhile_cons_of_neg
      rw [visible first (by rw [spelled]; rfl)]
      exact Bool.false_ne_true
  rw [bareText, whole, String.ofList_toList]

theorem text_of_unwritten (unwritten : item.encode = none) : item.text = nullText := by
  rw [text, unwritten, Option.getD_none]

theorem value_reread_of_unwritten (unwritten : item.encode = none) :
    item.reread.value = item.kind.nullValue? item.maxLength := by
  have null := text_of_unwritten unwritten
  have visible : ∀ c ∈ item.text.toList.head?, isLineSpace c = false := by
    rw [null]
    rintro c ⟨⟩
    rfl
  rw [reread, bareText_of_visible visible, null]
  exact Kind.decode_nullText item.kind item.maxLength

section
variable {value : Value} (bound : item.value = some value) (written : item.encode ≠ none)
include bound written

theorem encode_eq_some_text :
    item.kind.encode value = some item.text ∧ Kind.Written item.kind value item.text.toList := by
  obtain ⟨spelled, encoded⟩ := Option.ne_none_iff_exists'.mp written
  have own : item.text = spelled := by rw [text, encoded, Option.getD_some]
  rw [encode, bound, Option.bind_some] at encoded
  obtain ⟨characters, found, same⟩ := Option.map_eq_some_iff.mp encoded
  rw [own, ← same, String.toList_ofList]
  exact ⟨same ▸ encoded, Kind.written_of_write? found⟩

/-- A leaf that has a text is reread as what is recovered from it. The blanks in front of a text
are part of it in one case, that of a character which is blank itself. -/
theorem value_reread_of_written (exact : ∀ number, value ≠ .float number) :
    item.reread.value = value.recovered? item.maxLength := by
  obtain ⟨encoded, shown⟩ := encode_eq_some_text bound written
  have whole (visible : ∀ c ∈ item.text.toList.head?, isLineSpace c = false) :
      item.reread.value = value.recovered? item.maxLength := by
    rw [reread, bareText_of_visible visible, Kind.decode_of_encode encoded exact]
    cases value.recovered? item.maxLength <;> rfl
  rcases shown.shape exact with ⟨inner, rfl, spelled⟩ | ⟨c, rfl, spelled⟩ | plain
  · apply whole
    rw [spelled]
    rintro c ⟨⟩
    rfl
  · by_cases blank : isLineSpace c = true
    · have char : item.kind = .char := Kind.holds_char_iff.mp shown.holds
      have bare : item.bareText = "" := by
        rw [bareText, spelled, List.dropWhile_cons_of_pos blank]
        rfl
      have white := Text.isWhite_of_isLineSpace blank
      rw [reread, bare, char, Value.recovered?, if_pos white]
      rfl
    · apply whole
      rw [spelled]
      rintro first ⟨⟩
      exact Bool.eq_false_iff.mpr blank
  · apply whole
    intro c first
    have visible := Text.not_isWhite_of_isPlain (plain c (List.mem_of_mem_head? first))
    exact Bool.eq_false_iff.mpr fun blank =>
      Bool.false_ne_true (visible.symm.trans (Text.isWhite_of_isLineSpace blank))

end

end

theorem Sound.encode_eq_none_iff {item : Leaf} (sound : item.Sound) :
    item.encode = none ↔ item.value = none ∨ item.value = some (.pointer 0) := by
  cases bound : item.value with
  | none => simp [encode, bound]
  | some value =>
    have unwritten := Kind.write?_eq_none_iff (sound value bound)
    rw [encode, bound, Option.bind_some, Kind.encode, Option.map_eq_none_iff, unwritten]
    simp

theorem settled_of_decode {item changed : Leaf} {text : String}
    (decoded : item.decode text = .ok changed) (line : Text.OneLine text.toList) :
    changed.Settled := by
  obtain ⟨value, read, rfl⟩ := exists_of_decode decoded
  rintro other ⟨⟩
  refine ⟨Kind.holds_of_decode read, ?_⟩
  unfold Kind.decode at read
  split at read
  · split at read
    · next found =>
      cases read
      exact Kind.settled_of_read? found line
    · cases read
  · cases read

section
variable {item : Leaf} {value : Value} (settled : item.Settled) (bound : item.value = some value)
include settled bound

theorem encode_eq_none_iff : item.encode = none ↔ value = .pointer 0 := by
  rw [settled.sound.encode_eq_none_iff, bound]
  simp

theorem text_of_null (null : value = .pointer 0) : item.text = nullText :=
  text_of_unwritten ((encode_eq_none_iff settled bound).mpr null)

theorem value_reread_of_null (null : value = .pointer 0) : item.reread.value = none := by
  have unwritten := (encode_eq_none_iff settled bound).mpr null
  subst null
  have void := Kind.holds_pointer_iff.mp (settled _ bound).1
  rw [value_reread_of_unwritten unwritten, void]
  rfl

section
variable (exact : item.kind ≠ .float)
include exact

theorem not_float (number : Number.Binary64) : value ≠ .float number := by
  rintro rfl
  exact exact (Kind.holds_float_iff.mp (settled _ bound).1)

theorem oneLine_text :
    Text.OneLine item.text.toList ∧ ∀ c ∈ item.text.toList.head?, Text.isWhite c = false := by
  by_cases null : value = .pointer 0
  · rw [text_of_null settled bound null]
    refine ⟨⟨by decide, by decide⟩, ?_⟩
    rintro c ⟨⟩
    rfl
  · have filled : item.encode ≠ none := fun unwritten =>
      null ((encode_eq_none_iff settled bound).mp unwritten)
    have written := (encode_eq_some_text bound filled).2
    have decimal := not_float settled bound exact
    have kept := (settled value bound).2
    exact ⟨written.oneLine decimal kept.oneLine, written.visible decimal kept.visible⟩

theorem value_reread (filled : value ≠ .pointer 0) :
    item.reread.value = value.recovered? item.maxLength := by
  have written : item.encode ≠ none := fun unwritten =>
    filled ((encode_eq_none_iff settled bound).mp unwritten)
  exact value_reread_of_written bound written (not_float settled bound exact)

theorem text_reread_of_unmarked
    (unmarked : ∀ text, value = .string text → '"' ∉ text.toList) :
    item.reread.text = item.text := by
  by_cases null : value = .pointer 0
  · have lost := value_reread_of_null settled bound null
    rw [text_of_null settled bound null, text, encode, lost]
    rfl
  · have recoverable : value.Recoverable item.maxLength := by
      have kept := (settled value bound).2
      cases value with
      | string text => exact ⟨unmarked text rfl, kept.2⟩
      | char c => exact kept.1
      | _ => trivial
    have same : item.reread.value = item.value := by
      rw [value_reread settled bound exact null, bound]
      exact Value.recovered?_eq_some_iff.mpr recoverable
    rw [text, text, encode, encode, same]
    rfl

end

end

theorem text_reread_of_string {item : Leaf} {text : String} (settled : item.Settled)
    (bound : item.value = some (.string text)) :
    item.reread.text = String.ofList ('"' :: (text.toList.takeWhile (· ≠ '"') ++ ['"'])) := by
  obtain ⟨held, -, within⟩ := settled _ bound
  have kind := Kind.holds_string_iff.mp held
  have exact : item.kind ≠ .float := by simp [kind]
  have reread := value_reread settled bound exact (by simp)
  -- the bound holds for the whole string, and so for what is left of it
  have uncut : Codec.bounded item.maxLength (text.toList.takeWhile (· ≠ '"')) =
      text.toList.takeWhile (· ≠ '"') := by
    rw [Codec.bounded_eq_self_iff]
    refine within.imp_right fun short => ?_
    have shorter := (List.takeWhile_prefix (l := text.toList) (· ≠ '"')).length_le
    rw [String.length_toList] at shorter
    omega
  have same : item.reread.kind = .string := kind
  rw [Value.recovered?, uncut] at reread
  rw [Leaf.text, encode, reread, same, Option.bind_some, Kind.encode, Kind.write?,
    String.toList_ofList]
  rfl

end Leaf

end ConfigTree
