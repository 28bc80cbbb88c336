import ConfigTree.Proofs.Number.Spelling

/-!
How decimals are spelled. A decimal is written as the text of its parts, and it is converted from
this text and from no other. All that the text is made of are characters of decimals.

Main statements: `Decimal.ofText?_eq_some_iff` and `Decimal.Formed.isPart_of_mem_text`.
-/

namespace ConfigTree.Number

def signs : List (List Char) :=
  [[], ['+'], ['-']]

def IsRun (text : List Char) : Prop :=
  ∀ c ∈ text, c.isDigit = true

namespace Exponent

def text (exponent : Exponent) : List Char :=
  exponent.mark :: (exponent.sign ++ exponent.digits)

structure Formed (exponent : Exponent) : Prop where
  mark : exponent.mark = 'e' ∨ exponent.mark = 'E'
  sign : exponent.sign ∈ signs
  digits : IsRun exponent.digits
  nonempty : exponent.digits ≠ []

end Exponent

namespace Decimal

def pointed : Option (List Char) → List Char
  | some run => '.' :: run
  | none => []

def ending : Option Exponent → List Char
  | some exponent => exponent.text
  | none => []

def text (decimal : Decimal) : List Char :=
  decimal.sign ++ (decimal.whole ++ (pointed decimal.fraction ++ ending decimal.exponent))

/-- The parts of a decimal are of the form that is read; there is a digit before the exponent. -/
structure Formed (decimal : Decimal) : Prop where
  sign : decimal.sign ∈ signs
  whole : IsRun decimal.whole
  fraction : ∀ run ∈ decimal.fraction, IsRun run
  nonempty : ¬(decimal.whole = [] ∧ decimal.fraction.getD [] = [])
  exponent : ∀ exponent ∈ decimal.exponent, exponent.Formed

end Decimal

section
variable {text sign : List Char}

theorem SignOf.splitSign_eq (signed : SignOf text sign) :
    splitSign (sign ++ text) = (sign, text) := by
  cases signed with
  | minus => rfl
  | plus => rfl
  | none unsigned => exact splitSign_of_unsigned unsigned

theorem SignOf.mem_signs (signed : SignOf text sign) : sign ∈ signs := by
  cases signed <;> decide

theorem signOf_of_mem (known : sign ∈ signs) (unsigned : Unsigned text) : SignOf text sign := by
  simp only [signs, List.mem_cons, List.not_mem_nil, or_false] at known
  rcases known with rfl | rfl | rfl
  · exact .none unsigned
  · exact .plus
  · exact .minus

theorem unsigned_of_isDigit (digit : ∀ c ∈ text.head?, c.isDigit = true ∨ c = '.') :
    Unsigned text := by
  intro c first
  have own := digit c first
  constructor <;> rintro rfl <;> revert own <;> decide

end

theorem Exponent.ofText?_eq_some_iff {text : List Char} {exponent : Exponent} :
    ofText? text = some exponent ↔ exponent.Formed ∧ exponent.text = text := by
  constructor
  · intro converted
    cases text with
    | nil => cases converted
    | cons mark rest =>
      obtain ⟨sign, run, rfl, signed⟩ := exists_sign rest
      rw [ofText?, signed.splitSign_eq] at converted
      dsimp only at converted
      split_ifs at converted with known
      cases converted
      exact ⟨⟨known.1, signed.mem_signs, List.all_eq_true.mp known.2.2, known.2.1⟩, rfl⟩
  · rintro ⟨formed, rfl⟩
    have unsigned : Unsigned exponent.digits :=
      unsigned_of_isDigit fun c first => Or.inl (formed.digits c (List.mem_of_mem_head? first))
    rw [text, ofText?, (signOf_of_mem formed.sign unsigned).splitSign_eq]
    exact if_pos ⟨formed.mark, formed.nonempty, List.all_eq_true.mpr formed.digits⟩

namespace Decimal

theorem splitFraction_of_head?_ne {text : List Char} (other : text.head? ≠ some '.') :
    splitFraction text = (none, text) := by
  unfold splitFraction
  split
  · exact absurd rfl other
  · rfl

theorem exists_fraction (text : List Char) :
    ∃ fraction rest, splitFraction text = (fraction, rest) ∧ text = pointed fraction ++ rest ∧
      ∀ run ∈ fraction, IsRun run := by
  by_cases point : text.head? = some '.'
  · obtain ⟨tail, rfl⟩ := List.head?_eq_some_iff.mp point
    refine ⟨_, _, rfl, ?_, ?_⟩
    · exact congrArg ('.' :: ·) List.takeWhile_append_dropWhile.symm
    · rintro run own
      cases own
      exact fun c member => List.mem_takeWhile_imp member
  · exact ⟨none, text, splitFraction_of_head?_ne point, rfl, by simp⟩

theorem splitFraction_pointed {fraction : Option (List Char)} {rest : List Char}
    (own : ∀ run ∈ fraction, IsRun run)
    (stops : ∀ c ∈ rest.head?, c.isDigit = false ∧ c ≠ '.') :
    splitFraction (pointed fraction ++ rest) = (fraction, rest) := by
  cases fraction with
  | none => exact splitFraction_of_head?_ne fun first => (stops '.' first).2 rfl
  | some run =>
    have halt : ∀ c ∈ rest.head?, c.isDigit = false := fun c first => (stops c first).1
    have all : IsRun run := own run rfl
    rw [pointed, List.cons_append, splitFraction, Text.takeWhile_append_of_stops _ halt,
      Text.dropWhile_append_of_stops _ halt, List.takeWhile_eq_self_iff.mpr all,
      List.dropWhile_eq_nil_iff.mpr all, List.nil_append]

theorem formed_of_ofText? {text : List Char} {decimal : Decimal}
    (converted : ofText? text = some decimal) : decimal.Formed ∧ decimal.text = text := by
  obtain ⟨sign, unsigned, rfl, signed⟩ := exists_sign text
  obtain ⟨fraction, rest, split, parts, below⟩ := exists_fraction (unsigned.dropWhile Char.isDigit)
  have halves : unsigned.takeWhile Char.isDigit ++ (pointed fraction ++ rest) = unsigned := by
    rw [← parts, List.takeWhile_append_dropWhile]
  have whole : IsRun (unsigned.takeWhile Char.isDigit) := fun c member =>
    List.mem_takeWhile_imp member
  rw [ofText?, signed.splitSign_eq] at converted
  dsimp only at converted
  rw [split] at converted
  dsimp only at converted
  split_ifs at converted with empty last
  · cases converted
    refine ⟨⟨signed.mem_signs, whole, below, empty, by simp⟩, ?_⟩
    rw [last] at halves
    exact congrArg (sign ++ ·) halves
  · obtain ⟨exponent, ended, rfl⟩ := Option.map_eq_some_iff.mp converted
    obtain ⟨formed, spelled⟩ := Exponent.ofText?_eq_some_iff.mp ended
    refine ⟨⟨signed.mem_signs, whole, below, empty, by simpa using formed⟩, ?_⟩
    rw [← spelled] at halves
    exact congrArg (sign ++ ·) halves

namespace Formed

variable {decimal : Decimal} (formed : decimal.Formed)
include formed

theorem ending_stops :
    ∀ c ∈ (ending decimal.exponent).head?, c.isDigit = false ∧ c ≠ '.' := by
  intro c first
  cases ended : decimal.exponent with
  | none =>
    rw [ended] at first
    cases first
  | some exponent =>
    rw [ended] at first
    cases first
    rcases (formed.exponent exponent ended).mark with mark | mark <;> rw [mark] <;> decide

theorem pointed_stops :
    ∀ c ∈ (pointed decimal.fraction ++ ending decimal.exponent).head?, c.isDigit = false := by
  intro c first
  cases fraction : decimal.fraction with
  | none =>
    rw [fraction] at first
    exact (formed.ending_stops c first).1
  | some run =>
    rw [fraction] at first
    cases first
    rfl

theorem exists_head :
    ∃ c rest, decimal.whole ++ (pointed decimal.fraction ++ ending decimal.exponent) = c :: rest ∧
      (c.isDigit = true ∨ c = '.') := by
  cases whole : decimal.whole with
  | cons digit rest =>
    exact ⟨digit, _, rfl, Or.inl (formed.whole digit (by simp [whole]))⟩
  | nil =>
    cases fraction : decimal.fraction with
    | none => exact absurd ⟨whole, by rw [fraction]; rfl⟩ formed.nonempty
    | some run => exact ⟨'.', _, rfl, Or.inr rfl⟩

theorem unsigned :
    Unsigned (decimal.whole ++ (pointed decimal.fraction ++ ending decimal.exponent)) := by
  obtain ⟨c, rest, body, begins⟩ := formed.exists_head
  refine unsigned_of_isDigit fun other first => ?_
  rw [body] at first
  cases first
  exact begins

theorem ofText?_text : ofText? decimal.text = some decimal := by
  rw [text, ofText?, (signOf_of_mem formed.sign formed.unsigned).splitSign_eq]
  dsimp only
  rw [Text.takeWhile_append_of_stops _ formed.pointed_stops,
    Text.dropWhile_append_of_stops _ formed.pointed_stops,
    List.takeWhile_eq_self_iff.mpr formed.whole, List.dropWhile_eq_nil_iff.mpr formed.whole,
    List.nil_append, splitFraction_pointed formed.fraction formed.ending_stops]
  dsimp only
  rw [if_neg formed.nonempty]
  cases ended : decimal.exponent with
  | none => rw [ending, if_pos rfl, ← ended]
  | some exponent =>
    have converted : Exponent.ofText? exponent.text = some exponent :=
      Exponent.ofText?_eq_some_iff.mpr ⟨formed.exponent exponent ended, rfl⟩
    have marked : exponent.text ≠ [] := List.cons_ne_nil exponent.mark _
    rw [ending, if_neg marked, converted, Option.map_some, ← ended]

end Formed

theorem ofText?_eq_some_iff {text : List Char} {decimal : Decimal} :
    ofText? text = some decimal ↔ decimal.Formed ∧ decimal.text = text := by
  constructor
  · exact formed_of_ofText?
  · rintro ⟨formed, rfl⟩
    exact formed.ofText?_text

theorem isPart_of_isDigit {c : Char} (digit : c.isDigit = true) : isPart c = true := by
  simp only [isPart, digit, Bool.true_or]

theorem isPart_of_mem_signs {sign : List Char} (known : sign ∈ signs) :
    ∀ c ∈ sign, isPart c = true := by
  have all : signs.all (·.all isPart) = true := by decide
  exact List.all_eq_true.mp (List.all_eq_true.mp all sign known)

theorem isPart_of_mem_pointed {fraction : Option (List Char)} (own : ∀ run ∈ fraction, IsRun run) :
    ∀ c ∈ pointed fraction, isPart c = true := by
  intro c member
  cases fraction with
  | none => cases member
  | some run =>
    rcases List.mem_cons.mp member with rfl | digit
    · decide
    · exact isPart_of_isDigit (own run rfl c digit)

theorem isPart_of_mem_ending {exponent : Option Exponent} (own : ∀ e ∈ exponent, e.Formed) :
    ∀ c ∈ ending exponent, isPart c = true := by
  intro c member
  cases exponent with
  | none => cases member
  | some exponent =>
    have formed := own exponent rfl
    rcases List.mem_cons.mp member with rfl | below
    · rcases formed.mark with mark | mark <;> rw [mark] <;> decide
    · rcases List.mem_append.mp below with sign | digit
      · exact isPart_of_mem_signs formed.sign c sign
      · exact isPart_of_isDigit (formed.digits c digit)

theorem Formed.isPart_of_mem_text {decimal : Decimal} (formed : decimal.Formed) :
    ∀ c ∈ decimal.text, isPart c = true := by
  intro c member
  rw [text, List.mem_append, List.mem_append, List.mem_append] at member
  rcases member with sign | whole | fraction | ending
  · exact isPart_of_mem_signs formed.sign c sign
  · exact isPart_of_isDigit (formed.whole c whole)
  · exact isPart_of_mem_pointed formed.fraction c fraction
  · exact isPart_of_mem_ending formed.exponent c ending

end Decimal

end ConfigTree.Number
