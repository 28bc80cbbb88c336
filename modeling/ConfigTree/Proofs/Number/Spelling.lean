import Mathlib.Data.Nat.Digits.Defs
import ConfigTree.Proofs.Number.Numerals
import ConfigTree.Proofs.Text.Runs

/-!
How integers are spelled. The beginning of a text falls into blanks, a sign, the mark of a radix and
digits, and each of these is as long as it can be. Every text falls into such parts in one way, and
the reader of numerals finds them. The digits may be as many as they like, and what they denote is a
number without a bound.

Main statements: `exists_begins` and `Spelling.Begins.reads`.
-/

namespace ConfigTree

def Text.asciiBlanks : List Char :=
  [' ', '\t', '\n', '\x0b', '\x0c', '\r']

theorem Text.isAsciiBlank_iff {c : Char} : isAsciiBlank c = true ↔ c ∈ asciiBlanks := by
  constructor
  · intro blank
    have range : 9 ≤ c.toNat ∧ c.toNat ≤ 13 ∨ c.toNat = 32 := by
      simpa [isAsciiBlank] using blank
    have same : c = Char.ofNat c.toNat := c.ofNat_toNat.symm
    generalize c.toNat = n at range same
    subst same
    rcases range with ⟨low, high⟩ | rfl
    · interval_cases n <;> decide
    · decide
  · intro member
    simp only [asciiBlanks, List.mem_cons, List.not_mem_nil, or_false] at member
    rcases member with rfl | rfl | rfl | rfl | rfl | rfl <;> decide

namespace Number

def IsDigit (radix : Nat) (c : Char) (d : Nat) : Prop :=
  d < radix ∧ (c = d.digitChar ∨ c = d.digitChar.toUpper)

instance (radix : Nat) (c : Char) (d : Nat) : Decidable (IsDigit radix c d) :=
  inferInstanceAs (Decidable (_ ∧ _))

/-- A text that begins with a radix mark, which stands in front of a hexadecimal digit. -/
def Marked (text : List Char) : Prop :=
  ∃ mark c d rest, text = '0' :: mark :: c :: rest ∧ (mark = 'x' ∨ mark = 'X') ∧ IsDigit 16 c d

/-- The sign in front of a text; where there is none, the text does not begin with one. -/
inductive SignOf (text : List Char) : List Char → Prop where
  | minus : SignOf text ['-']
  | plus : SignOf text ['+']
  | none : Unsigned text → SignOf text []

/-- The radix mark in front of a text, and the radix of the text. -/
inductive RadixOf (text : List Char) : Base → List Char → Nat → Prop where
  | marked (base : Base) {mark : Char} : Marked ('0' :: mark :: text) →
      RadixOf text base ['0', mark] 16
  | hexadecimal : ¬Marked text → RadixOf text .hexadecimal [] 16
  | octal : ¬Marked text → text.head? = some '0' → RadixOf text .inferred [] 8
  | decimal : text.head? ≠ some '0' → RadixOf text .inferred [] 10

/-- The parts of a text that begins with an integer, the radix, and the values of the digits. -/
structure Spelling where
  blanks : List Char
  sign : List Char
  mark : List Char
  digits : List Char
  rest : List Char
  radix : Nat
  values : List Nat

namespace Spelling

def body (spelling : Spelling) : List Char :=
  spelling.digits ++ spelling.rest

def unsigned (spelling : Spelling) : List Char :=
  spelling.mark ++ spelling.body

def bare (spelling : Spelling) : List Char :=
  spelling.sign ++ spelling.unsigned

def number (spelling : Spelling) : Nat :=
  Nat.ofDigits spelling.radix spelling.values.reverse

def integer (spelling : Spelling) : Int :=
  Number.integer (decide (spelling.sign = ['-'])) spelling.number

/-- A text falls into the parts of a spelling. No part can be made longer at the cost of the next. -/
structure Begins (spelling : Spelling) (base : Base) (text : List Char) : Prop where
  whole : text = spelling.blanks ++ spelling.bare
  blanks : ∀ c ∈ spelling.blanks, c ∈ Text.asciiBlanks
  visible : ∀ c ∈ spelling.bare.head?, c ∉ Text.asciiBlanks
  sign : SignOf spelling.unsigned spelling.sign
  radix : RadixOf spelling.body base spelling.mark spelling.radix
  digits : List.Forall₂ (IsDigit spelling.radix) spelling.digits spelling.values
  stops : ∀ c ∈ spelling.rest.head?, ∀ d, ¬IsDigit spelling.radix c d

end Spelling

section
variable {radix : Nat}

theorem digit?_eq_some_iff (small : radix ≤ 16) {c : Char} {d : Nat} :
    digit? radix c = some d ↔ IsDigit radix c d := by
  constructor
  · intro found
    have kept := Option.filter_eq_some_iff.mp found
    exact ⟨digit?_lt found, (digitChar_of_hexDigit? kept.1).2⟩
  · rintro ⟨below, character⟩
    obtain ⟨lower, upper⟩ := hexDigit?_digitChar (Nat.lt_of_lt_of_le below small)
    rcases character with rfl | rfl
    · exact digit?_of_hexDigit? lower below
    · exact digit?_of_hexDigit? upper below

theorem leadingDigits_of_digits (small : radix ≤ 16) {digits rest : List Char} {values : List Nat}
    (spelled : List.Forall₂ (IsDigit radix) digits values)
    (stops : ∀ c ∈ rest.head?, ∀ d, ¬IsDigit radix c d) :
    leadingDigits radix (digits ++ rest) = values := by
  induction spelled with
  | nil =>
    cases rest with
    | nil => rfl
    | cons c below =>
      have other : digit? radix c = none := by
        by_contra found
        obtain ⟨d, digit⟩ := Option.ne_none_iff_exists'.mp found
        exact stops c rfl d ((digit?_eq_some_iff small).mp digit)
      rw [List.nil_append, leadingDigits, other]
  | cons digit _ ih =>
    rw [List.cons_append, leadingDigits, (digit?_eq_some_iff small).mpr digit]
    exact congrArg (_ :: ·) ih

theorem exists_digits (radix : Nat) (text : List Char) :
    ∃ digits values rest, text = digits ++ rest ∧ List.Forall₂ (IsDigit radix) digits values ∧
      ∀ c ∈ rest.head?, ∀ d, ¬IsDigit radix c d := by
  induction text with
  | nil => exact ⟨[], [], [], rfl, .nil, by simp⟩
  | cons c tail ih =>
    by_cases digit : ∃ d, IsDigit radix c d
    · obtain ⟨d, own⟩ := digit
      obtain ⟨digits, values, rest, whole, spelled, stops⟩ := ih
      exact ⟨c :: digits, d :: values, rest, congrArg (c :: ·) whole, .cons own spelled, stops⟩
    · refine ⟨[], [], c :: tail, rfl, .nil, ?_⟩
      rintro other first d own
      cases first
      exact digit ⟨d, own⟩

end

section
variable {text : List Char}

theorem afterHexMark?_of_marked {mark : Char} (marked : Marked ('0' :: mark :: text)) :
    afterHexMark? ('0' :: mark :: text) = some text := by
  obtain ⟨other, c, d, rest, whole, sign, digit⟩ := marked
  rw [List.cons.injEq, List.cons.injEq] at whole
  obtain ⟨-, rfl, rfl⟩ := whole
  have found := (digit?_eq_some_iff (by decide)).mpr digit
  exact if_pos ⟨sign, by rw [found]; rfl⟩

theorem afterHexMark?_of_not_marked (unmarked : ¬Marked text) : afterHexMark? text = none := by
  apply afterHexMark?_eq_none
  rintro mark first rest rfl ⟨sign, digit⟩
  obtain ⟨d, found⟩ := Option.isSome_iff_exists.mp digit
  exact unmarked ⟨mark, first, d, rest, rfl, sign, (digit?_eq_some_iff (by decide)).mp found⟩

theorem RadixOf.radix_eq {base : Base} {mark : List Char} {radix : Nat}
    (based : RadixOf text base mark radix) : base.radix (mark ++ text) = (radix, text) := by
  cases based with
  | marked base marked =>
    unfold Base.radix
    rw [List.cons_append, List.cons_append, List.nil_append, afterHexMark?_of_marked marked]
  | hexadecimal unmarked =>
    unfold Base.radix
    rw [List.nil_append, afterHexMark?_of_not_marked unmarked]
  | octal unmarked zero =>
    unfold Base.radix
    rw [List.nil_append, afterHexMark?_of_not_marked unmarked]
    exact congrArg (·, text) (if_pos zero)
  | decimal other =>
    have unmarked : ¬Marked text := by
      rintro ⟨mark, c, d, rest, rfl, -, -⟩
      exact other rfl
    unfold Base.radix
    rw [List.nil_append, afterHexMark?_of_not_marked unmarked]
    exact congrArg (·, text) (if_neg other)

theorem exists_radix (base : Base) (text : List Char) :
    ∃ mark body radix, text = mark ++ body ∧ RadixOf body base mark radix := by
  by_cases marked : Marked text
  · obtain ⟨mark, c, d, rest, rfl, sign⟩ := marked
    exact ⟨['0', mark], c :: rest, 16, rfl, .marked base ⟨mark, c, d, rest, rfl, sign⟩⟩
  · refine ⟨[], text, ?_⟩
    cases base with
    | hexadecimal => exact ⟨16, rfl, .hexadecimal marked⟩
    | inferred =>
      by_cases zero : text.head? = some '0'
      · exact ⟨8, rfl, .octal marked zero⟩
      · exact ⟨10, rfl, .decimal zero⟩

theorem SignOf.takeSign_eq {sign : List Char} (signed : SignOf text sign) :
    takeSign (sign ++ text) = (decide (sign = ['-']), text) := by
  cases signed with
  | minus => rfl
  | plus => rfl
  | none unsigned => exact takeSign_of_unsigned unsigned

theorem exists_sign (text : List Char) : ∃ sign rest, text = sign ++ rest ∧ SignOf rest sign := by
  cases signed text with
  | minus tail => exact ⟨['-'], tail, rfl, .minus⟩
  | plus tail => exact ⟨['+'], tail, rfl, .plus⟩
  | unsigned plain => exact ⟨[], text, rfl, .none plain⟩

theorem exists_asciiBlanks (text : List Char) :
    ∃ blanks rest, text = blanks ++ rest ∧ (∀ c ∈ blanks, c ∈ Text.asciiBlanks) ∧
      ∀ c ∈ rest.head?, c ∉ Text.asciiBlanks := by
  refine ⟨text.takeWhile Text.isAsciiBlank, text.dropWhile Text.isAsciiBlank,
    List.takeWhile_append_dropWhile.symm, ?_, ?_⟩
  · intro c member
    exact Text.isAsciiBlank_iff.mp (List.mem_takeWhile_imp member)
  · intro c first
    have visible := List.head?_dropWhile_not Text.isAsciiBlank text
    rw [first] at visible
    rw [← Text.isAsciiBlank_iff]
    simpa using visible

end

theorem exists_begins (base : Base) (text : List Char) :
    ∃ spelling : Spelling, spelling.Begins base text := by
  obtain ⟨blanks, bare, rfl, blank, visible⟩ := exists_asciiBlanks text
  obtain ⟨sign, unsigned, rfl, signed⟩ := exists_sign bare
  obtain ⟨mark, body, radix, rfl, based⟩ := exists_radix base unsigned
  obtain ⟨digits, values, rest, rfl, spelled, stops⟩ := exists_digits radix body
  exact ⟨⟨blanks, sign, mark, digits, rest, radix, values⟩, rfl, blank, visible, signed, based,
    spelled, stops⟩

theorem RadixOf.le {text mark : List Char} {base : Base} {radix : Nat}
    (based : RadixOf text base mark radix) : radix ≤ 16 := by
  cases based <;> decide

theorem ofDigits_eq (radix : Nat) (run : List Nat) :
    ofDigits radix run = Nat.ofDigits radix run.reverse := by
  rw [Nat.ofDigits_eq_foldr, List.foldr_reverse, ofDigits]
  congr
  funext n d
  rw [Nat.add_comm, Nat.mul_comm]
  rfl

namespace Spelling.Begins

variable {spelling : Spelling} {base : Base} {text : List Char}

theorem read?_eq (begins : spelling.Begins base text) :
    Numeral.read? base text =
      if spelling.values = [] then none
      else some ⟨decide (spelling.sign = ['-']), .gather spelling.radix spelling.values⟩ := by
  have blank : ∀ c ∈ spelling.blanks, Text.isAsciiBlank c = true :=
    fun c member => Text.isAsciiBlank_iff.mpr (begins.blanks c member)
  have visible : ∀ c ∈ spelling.bare.head?, Text.isAsciiBlank c = false := by
    intro c first
    have other := begins.visible c first
    rwa [← Text.isAsciiBlank_iff, Bool.not_eq_true] at other
  have skipped : text.dropWhile Text.isAsciiBlank = spelling.bare := by
    rw [begins.whole, Text.dropWhile_append_of_stops _ visible,
      List.dropWhile_eq_nil_iff.mpr blank, List.nil_append]
  have run := leadingDigits_of_digits begins.radix.le begins.digits begins.stops
  rw [Numeral.read?, skipped, bare, begins.sign.takeSign_eq]
  dsimp only
  rw [unsigned, begins.radix.radix_eq]
  dsimp only
  rw [body, run]
  cases spelling.values <;> rfl

/-- A text with digits is read as the integer that it spells. -/
theorem reads (begins : spelling.Begins base text) (nonempty : spelling.values ≠ []) :
    Numeral.Reads base text (decide (spelling.sign = ['-'])) spelling.number := by
  have bounded := leadingDigits_lt spelling.radix spelling.body
  rw [body, leadingDigits_of_digits begins.radix.le begins.digits begins.stops] at bounded
  have measures := Magnitude.measures_gather (radix_lt begins.radix.radix_eq) bounded
  rw [ofDigits_eq] at measures
  refine ⟨_, measures, ?_⟩
  rw [begins.read?_eq, if_neg nonempty]

end Spelling.Begins

end Number

end ConfigTree
