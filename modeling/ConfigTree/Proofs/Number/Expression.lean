import Mathlib.Computability.RegularExpressions
import ConfigTree.Proofs.Number.Decimals

/-!
The regular expression of decimals. What it matches are the texts of decimals, so a text is
converted into a decimal exactly if it matches.

Main statement: `Decimal.isSome_ofText?_iff`.
-/

namespace ConfigTree.Number

namespace Expression
open RegularExpression

def digitMarks : List Char :=
  ['0', '1', '2', '3', '4', '5', '6', '7', '8', '9']

def marks : List Char :=
  digitMarks ++ ['+', '-', '.', 'e', 'E']

def oneOf (characters : List Char) : RegularExpression Char :=
  (characters.map char).sum

def optional (part : RegularExpression Char) : RegularExpression Char :=
  part + 1

def digit : RegularExpression Char :=
  oneOf digitMarks

/-- `D+` -/
def digits : RegularExpression Char :=
  digit * star digit

/-- `[+-]?` -/
def sign : RegularExpression Char :=
  optional (oneOf ['+', '-'])

/-- `D+(\.D*)?|\.D+` -/
def coefficient : RegularExpression Char :=
  digits * optional (char '.' * star digit) + char '.' * digits

/-- `[eE][+-]?D+` -/
def exponent : RegularExpression Char :=
  oneOf ['e', 'E'] * (sign * digits)

/-- `[+-]?(D+(\.D*)?|\.D+)([eE][+-]?D+)?` -/
def decimal : RegularExpression Char :=
  sign * (coefficient * optional exponent)

section
variable {text characters : List Char} {part : RegularExpression Char}

theorem mem_oneOf : text ∈ (oneOf characters).matches' ↔ ∃ c ∈ characters, text = [c] := by
  induction characters with
  | nil => simp [oneOf, Language.notMem_zero]
  | cons first rest ih =>
    rw [oneOf, List.map_cons, List.sum_cons, matches'_add, Language.mem_add,
      List.exists_mem_cons_iff]
    exact or_congr Iff.rfl ih

theorem mem_star_oneOf :
    text ∈ (star (oneOf characters)).matches' ↔ ∀ c ∈ text, c ∈ characters := by
  rw [matches'_star, Language.mem_kstar]
  constructor
  · rintro ⟨words, rfl, single⟩ c member
    obtain ⟨word, listed, inside⟩ := List.mem_flatten.mp member
    obtain ⟨d, known, rfl⟩ := mem_oneOf.mp (single word listed)
    rwa [List.mem_singleton.mp inside]
  · intro known
    refine ⟨text.map fun c => [c], ?_, ?_⟩
    · rw [← List.flatMap_def, List.flatMap_singleton']
    · intro word listed
      obtain ⟨c, member, rfl⟩ := List.mem_map.mp listed
      exact mem_oneOf.mpr ⟨c, known c member, rfl⟩

theorem mem_optional : text ∈ (optional part).matches' ↔ text ∈ part.matches' ∨ text = [] := by
  rw [optional, matches'_add, Language.mem_add, matches'_epsilon, Language.mem_one]

theorem isDigit_iff_mem {c : Char} : c.isDigit = true ↔ c ∈ digitMarks := by
  constructor
  · intro digit
    have range := Text.isDigit_iff.mp digit
    have same : c = Char.ofNat c.toNat := c.ofNat_toNat.symm
    generalize c.toNat = n at range same
    subst same
    obtain ⟨low, high⟩ := range
    interval_cases n <;> decide
  · intro member
    have digits : digitMarks.all Char.isDigit = true := by decide
    exact List.all_eq_true.mp digits c member

theorem mem_star_digit : text ∈ (star digit).matches' ↔ IsRun text := by
  simp only [digit, mem_star_oneOf, IsRun, isDigit_iff_mem]

theorem mem_digits : text ∈ digits.matches' ↔ IsRun text ∧ text ≠ [] := by
  rw [digits, matches'_mul, Language.mem_mul]
  constructor
  · rintro ⟨first, single, rest, run, rfl⟩
    obtain ⟨c, known, rfl⟩ := mem_oneOf.mp single
    refine ⟨?_, List.cons_ne_nil c rest⟩
    exact List.forall_mem_cons.mpr ⟨isDigit_iff_mem.mpr known, mem_star_digit.mp run⟩
  · rintro ⟨run, nonempty⟩
    obtain ⟨c, rest, rfl⟩ := List.exists_cons_of_ne_nil nonempty
    obtain ⟨known, below⟩ := List.forall_mem_cons.mp run
    have single : [c] ∈ digit.matches' := mem_oneOf.mpr ⟨c, isDigit_iff_mem.mp known, rfl⟩
    exact ⟨[c], single, rest, mem_star_digit.mpr below, rfl⟩

theorem mem_sign : text ∈ sign.matches' ↔ text ∈ signs := by
  rw [sign, mem_optional, mem_oneOf]
  simp [signs, or_comm]

theorem mem_exponent : text ∈ exponent.matches' ↔ ∃ e : Exponent, e.Formed ∧ e.text = text := by
  rw [exponent, matches'_mul, Language.mem_mul]
  constructor
  · rintro ⟨mark, single, rest, ⟨sign, signed, run, digits, rfl⟩, rfl⟩
    obtain ⟨c, known, rfl⟩ := mem_oneOf.mp single
    obtain ⟨run, nonempty⟩ := mem_digits.mp digits
    exact ⟨⟨c, sign, _⟩, ⟨by simpa using known, mem_sign.mp signed, run, nonempty⟩, rfl⟩
  · rintro ⟨e, formed, rfl⟩
    refine ⟨[e.mark], mem_oneOf.mpr ⟨e.mark, by simpa using formed.mark, rfl⟩, _, ?_, rfl⟩
    rw [matches'_mul, Language.mem_mul]
    exact ⟨e.sign, mem_sign.mpr formed.sign, e.digits,
      mem_digits.mpr ⟨formed.digits, formed.nonempty⟩, rfl⟩

theorem mem_coefficient : text ∈ coefficient.matches' ↔
    ∃ whole fraction, IsRun whole ∧ (∀ run ∈ fraction, IsRun run) ∧
      ¬(whole = [] ∧ fraction.getD [] = []) ∧ whole ++ Decimal.pointed fraction = text := by
  rw [coefficient, matches'_add, Language.mem_add, matches'_mul, Language.mem_mul, matches'_mul,
    Language.mem_mul]
  constructor
  · rintro (⟨whole, digits, rest, ending, rfl⟩ | ⟨point, rfl, run, digits, rfl⟩)
    · obtain ⟨own, nonempty⟩ := mem_digits.mp digits
      have filled (fraction : Option (List Char)) : ¬(whole = [] ∧ fraction.getD [] = []) :=
        fun empty => nonempty empty.1
      rcases mem_optional.mp ending with ⟨point, rfl, run, below, rfl⟩ | rfl
      · exact ⟨whole, some run, own, by simpa using mem_star_digit.mp below, filled _, rfl⟩
      · exact ⟨whole, none, own, by simp, filled _, rfl⟩
    · obtain ⟨own, nonempty⟩ := mem_digits.mp digits
      exact ⟨[], some run, by simp [IsRun], by simpa using own, fun empty => nonempty empty.2, rfl⟩
  · rintro ⟨whole, fraction, own, below, filled, rfl⟩
    by_cases empty : whole = []
    · cases fraction with
      | none => exact absurd ⟨empty, rfl⟩ filled
      | some run =>
        subst empty
        have nonempty : run ≠ [] := fun same => filled ⟨rfl, same⟩
        exact Or.inr ⟨['.'], rfl, run, mem_digits.mpr ⟨below run rfl, nonempty⟩, rfl⟩
    · refine Or.inl ⟨whole, mem_digits.mpr ⟨own, empty⟩, Decimal.pointed fraction, ?_, rfl⟩
      rw [mem_optional]
      cases fraction with
      | none => exact Or.inr rfl
      | some run => exact Or.inl ⟨['.'], rfl, run, mem_star_digit.mpr (below run rfl), rfl⟩

/-- What the expression matches are the texts of decimals. -/
theorem mem_decimal : text ∈ decimal.matches' ↔ ∃ d : Decimal, d.Formed ∧ d.text = text := by
  rw [decimal, matches'_mul, Language.mem_mul]
  constructor
  · rintro ⟨sign, signed, _, ⟨_, digits, rest, ended, rfl⟩, rfl⟩
    obtain ⟨whole, fraction, own, below, filled, rfl⟩ := mem_coefficient.mp digits
    have formed (ending : Option Exponent) (last : ∀ e ∈ ending, e.Formed) :
        Decimal.Formed ⟨sign, whole, fraction, ending⟩ :=
      ⟨mem_sign.mp signed, own, below, filled, last⟩
    rcases mem_optional.mp ended with marked | rfl
    · obtain ⟨e, own, rfl⟩ := mem_exponent.mp marked
      exact ⟨_, formed (some e) (by simpa using own), by simp [Decimal.text, Decimal.ending]⟩
    · exact ⟨_, formed none (by simp), by simp [Decimal.text, Decimal.ending]⟩
  · rintro ⟨d, formed, rfl⟩
    refine ⟨d.sign, mem_sign.mpr formed.sign, _, ?_, rfl⟩
    rw [matches'_mul, Language.mem_mul]
    refine ⟨d.whole ++ Decimal.pointed d.fraction, ?_, Decimal.ending d.exponent, ?_, ?_⟩
    · exact mem_coefficient.mpr
        ⟨d.whole, d.fraction, formed.whole, formed.fraction, formed.nonempty, rfl⟩
    · rw [mem_optional]
      cases ended : d.exponent with
      | none => exact Or.inr rfl
      | some e => exact Or.inl (mem_exponent.mpr ⟨e, formed.exponent e ended, rfl⟩)
    · rw [List.append_assoc]

end

end Expression

theorem Decimal.isSome_ofText?_iff {text : List Char} :
    (ofText? text).isSome ↔ text ∈ Expression.decimal.matches' := by
  simp only [Option.isSome_iff_exists, ofText?_eq_some_iff, Expression.mem_decimal]

end ConfigTree.Number
