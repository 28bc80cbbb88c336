import ConfigTree.Codec
import ConfigTree.Proofs.Number.Digits
import ConfigTree.Proofs.Number.Magnitude
import ConfigTree.Proofs.Text.Ascii

/-!
Integers that are written and read again. A decimal number has no leading zero, so its radix is
found to be ten, and only zero itself is read in radix eight. A hexadecimal number has the mark in
front of its digits.

Main statements: `Numeral.reads_decimal` and `Numeral.reads_hexMark`.
-/

namespace ConfigTree.Number

theorem isDigit_of_mem_digits {n : Nat} {c : Char} (member : c ∈ digits 10 n) :
    c.isDigit = true :=
  Nat.isDigit_of_mem_toDigits (by decide) (by decide) member

theorem eq_zero_of_head?_digits {n : Nat} (zero : (digits 10 n).head? = some '0') : n = 0 := by
  induction n using Nat.strongRecOn with
  | _ n ih =>
    rw [digits, Nat.toDigits_eq_if (by decide)] at zero
    split at zero
    · rw [List.head?_cons, Option.some.injEq, Nat.digitChar_eq_zero] at zero
      exact zero
    · next several =>
      rw [List.head?_append, Option.or_of_isSome (by simp [Nat.toDigits_ne_nil])] at zero
      have quotient := ih (n / 10) (by omega) zero
      omega

theorem not_isAsciiBlank_of_isDigit {c : Char} (digit : c.isDigit = true) :
    Text.isAsciiBlank c = false := by
  rw [Text.isDigit_iff] at digit
  simp only [Text.isAsciiBlank, Bool.or_eq_false_iff, Bool.and_eq_false_iff,
    decide_eq_false_iff_not, beq_eq_false_iff_ne]
  omega

def Unsigned (text : List Char) : Prop :=
  ∀ c ∈ text.head?, c ≠ '-' ∧ c ≠ '+'

inductive Signed : List Char → Prop where
  | minus (tail : List Char) : Signed ('-' :: tail)
  | plus (tail : List Char) : Signed ('+' :: tail)
  | unsigned {text : List Char} : Unsigned text → Signed text

theorem signed (text : List Char) : Signed text := by
  cases text with
  | nil => exact .unsigned (by simp [Unsigned])
  | cons first tail =>
    by_cases minus : first = '-'
    · exact minus ▸ .minus tail
    by_cases plus : first = '+'
    · exact plus ▸ .plus tail
    · exact .unsigned (by simp [Unsigned, minus, plus])

theorem takeSign_of_unsigned {text : List Char} (unsigned : Unsigned text) :
    takeSign text = (false, text) := by
  unfold takeSign
  split
  · exact absurd rfl (unsigned '-' rfl).1
  · exact absurd rfl (unsigned '+' rfl).2
  · rfl

theorem splitSign_of_unsigned {text : List Char} (unsigned : Unsigned text) :
    splitSign text = ([], text) := by
  unfold splitSign
  split
  · exact absurd rfl (unsigned '-' rfl).1
  · exact absurd rfl (unsigned '+' rfl).2
  · rfl

theorem afterHexMark?_eq_none {text : List Char}
    (unmarked : ∀ mark first rest, text = '0' :: mark :: first :: rest →
      ¬((mark = 'x' ∨ mark = 'X') ∧ (digit? 16 first).isSome)) : afterHexMark? text = none := by
  unfold afterHexMark?
  split
  · next mark first rest => exact if_neg (unmarked mark first rest rfl)
  · rfl

theorem afterHexMark?_of_isDigit {text : List Char} (digits : ∀ c ∈ text, c.isDigit = true) :
    afterHexMark? text = none := by
  refine afterHexMark?_eq_none fun mark first rest whole => ?_
  have digit := digits mark (by simp [whole])
  rintro ⟨rfl | rfl, -⟩ <;> cases digit

theorem radix_lt {base : Base} {text body : List Char} {radix : Nat}
    (based : base.radix text = (radix, body)) : radix < wordCount := by
  have sixteen : 16 < wordCount := by decide
  unfold Base.radix at based
  split at based
  · cases based
    exact sixteen
  · cases based
    exact sixteen
  · cases based
    split <;> decide

theorem radix_digits (n : Nat) :
    ∃ radix, Base.inferred.radix (digits 10 n) = (radix, digits 10 n) ∧
      Denotes radix (digits 10 n) n := by
  have unmarked := afterHexMark?_of_isDigit fun c member => isDigit_of_mem_digits (n := n) member
  by_cases zero : (digits 10 n).head? = some '0'
  · refine ⟨8, ?_, ?_⟩
    · unfold Base.radix
      rw [unmarked]
      exact congrArg (·, digits 10 n) (if_pos zero)
    · have none := eq_zero_of_head?_digits zero
      subst none
      exact denotes_digits (by decide) (by decide) 0
  · refine ⟨10, ?_, denotes_digits (by decide) (by decide) n⟩
    unfold Base.radix
    rw [unmarked]
    exact congrArg (·, digits 10 n) (if_neg zero)

namespace Numeral

/-- A text is read as a sign and the magnitude of a number. -/
def Reads (base : Base) (text : List Char) (negative : Bool) (n : Nat) : Prop :=
  ∃ magnitude, magnitude.Measures n ∧ read? base text = some ⟨negative, magnitude⟩

theorem reads_of_denotes {base : Base} {text unsigned body : List Char} {negative : Bool}
    {radix n : Nat} (signed : takeSign (text.dropWhile Text.isAsciiBlank) = (negative, unsigned))
    (based : base.radix unsigned = (radix, body)) (denoted : Denotes radix body n) :
    Reads base text negative n := by
  have measures := Magnitude.measures_gather (radix_lt based) (leadingDigits_lt radix body)
  refine ⟨.gather radix (leadingDigits radix body), denoted.value ▸ measures, ?_⟩
  rw [read?, signed]
  dsimp only
  rw [based]
  dsimp only
  cases run : leadingDigits radix body with
  | nil => exact absurd run denoted.nonempty
  | cons first rest => rfl

theorem reads_digits (n : Nat) : Reads .inferred (digits 10 n) false n := by
  obtain ⟨radix, based, denoted⟩ := radix_digits n
  refine reads_of_denotes ?_ based denoted
  cases spelled : digits 10 n with
  | nil => exact absurd spelled Nat.toDigits_ne_nil
  | cons first rest =>
    have digit : first.isDigit = true :=
      isDigit_of_mem_digits (n := n) (spelled ▸ List.mem_cons_self)
    rw [List.dropWhile_cons_of_neg (by simp [not_isAsciiBlank_of_isDigit digit])]
    apply takeSign_of_unsigned
    rintro c same
    cases same
    constructor <;> rintro rfl <;> cases digit

theorem reads_decimal (n : Int) :
    Reads .inferred (Codec.decimal n) (decide (n < 0)) n.natAbs := by
  rw [Codec.decimal]
  split
  · next negative =>
    obtain ⟨radix, based, denoted⟩ := radix_digits n.natAbs
    rw [decide_eq_true negative]
    exact reads_of_denotes rfl based denoted
  · next nonnegative =>
    rw [decide_eq_false nonnegative]
    exact reads_digits n.natAbs

theorem reads_hexMark {text : List Char} {n : Nat} (denoted : Denotes 16 text n) :
    Reads .hexadecimal (Codec.hexMark ++ text) false n := by
  have marked : afterHexMark? (Codec.hexMark ++ text) = some text := by
    obtain ⟨nonempty, -⟩ := denoted
    cases text with
    | nil => exact absurd rfl nonempty
    | cons first rest =>
      have digit : (digit? 16 first).isSome = true := by
        by_contra other
        rw [leadingDigits, Option.not_isSome_iff_eq_none.mp other] at nonempty
        exact nonempty rfl
      exact if_pos ⟨Or.inl rfl, digit⟩
  have based : Base.hexadecimal.radix (Codec.hexMark ++ text) = (16, text) := by
    unfold Base.radix
    rw [marked]
  exact reads_of_denotes rfl based denoted

end Numeral

end ConfigTree.Number
