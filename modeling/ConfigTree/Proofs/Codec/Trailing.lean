import ConfigTree.Proofs.Number.Numerals
import ConfigTree.Proofs.Text.Runs

/-!
White space at the end of a text. It is no digit, no sign, no part of a word and no quotation mark,
and a string without quotes is trimmed, so what a text denotes does not depend on it. The scans of
numbers stop at white space wherever it begins; flags, addresses and strings are taken from a text
that may be blank, and for these all that follows has to be white.

Main statement: `Kind.read?_append_white`.
-/

namespace ConfigTree

namespace Text

def BeginsWhite (rest : List Char) : Prop :=
  ∀ c ∈ rest.head?, isWhite c = true

theorem beginsWhite_of_all {rest : List Char} (white : ∀ c ∈ rest, isWhite c = true) :
    BeginsWhite rest :=
  fun c first => white c (List.mem_of_mem_head? first)

theorem range_of_isWhite {c : Char} (white : isWhite c = true) :
    (9 ≤ c.toNat ∧ c.toNat ≤ 13) ∨ c.toNat = 0x20 ∨ 0x85 ≤ c.toNat := by
  simp only [isWhite, Bool.or_eq_true, Bool.and_eq_true, decide_eq_true_eq, beq_iff_eq] at white
  omega

theorem toUpper_of_isWhite {c : Char} (white : isWhite c = true) : c.toUpper = c := by
  have range := range_of_isWhite white
  refine dif_neg ?_
  rw [UInt32.le_iff_toNat_le, UInt32.le_iff_toNat_le]
  change ¬(97 ≤ c.toNat ∧ c.toNat ≤ 122)
  omega

end Text

namespace Number

theorem digit?_of_isWhite {c : Char} (white : Text.isWhite c = true) (radix : Nat) :
    digit? radix c = none := by
  have range := Text.range_of_isWhite white
  rw [digit?]
  cases found : hexDigit? c with
  | none => rfl
  | some d =>
    have digit := range_of_hexDigit? found
    omega

theorem Decimal.not_isPart_of_isWhite {c : Char} (white : Text.isWhite c = true) :
    isPart c = false := by
  have range := Text.range_of_isWhite white
  by_contra part
  simp only [Bool.not_eq_false, isPart, Bool.or_eq_true, Text.isDigit_iff, beq_iff_eq] at part
  rcases part with ((((digit | rfl) | rfl) | rfl) | rfl) | rfl
  · omega
  all_goals cases white

section
variable {rest : List Char} (begins : Text.BeginsWhite rest)
include begins

theorem leadingDigits_append (radix : Nat) (text : List Char) :
    leadingDigits radix (text ++ rest) = leadingDigits radix text := by
  induction text with
  | nil =>
    cases rest with
    | nil => rfl
    | cons c below =>
      have other := digit?_of_isWhite (begins c rfl) radix
      simp only [List.nil_append, leadingDigits, other]
  | cons first tail ih => rw [List.cons_append, leadingDigits, leadingDigits, ih]

theorem unsigned_append {text : List Char} (unsigned : Unsigned text) :
    Unsigned (text ++ rest) := by
  cases text with
  | nil =>
    intro c first
    have white := begins c first
    constructor <;> rintro rfl <;> cases white
  | cons first tail => exact unsigned

theorem takeSign_append (text : List Char) :
    takeSign (text ++ rest) = ((takeSign text).1, (takeSign text).2 ++ rest) := by
  cases signed text with
  | minus tail => rfl
  | plus tail => rfl
  | unsigned plain =>
    rw [takeSign_of_unsigned (unsigned_append begins plain), takeSign_of_unsigned plain]

theorem afterHexMark?_append (text : List Char) :
    afterHexMark? (text ++ rest) = (afterHexMark? text).map (· ++ rest) := by
  match text with
  | [] =>
    refine afterHexMark?_eq_none fun mark first tail whole => ?_
    have white := begins '0' (by rw [← List.nil_append rest, whole]; rfl)
    cases white
  | [zero] =>
    have short : afterHexMark? [zero] = none := afterHexMark?_eq_none (by simp)
    rw [short]
    refine afterHexMark?_eq_none fun mark first tail whole => ?_
    rw [List.singleton_append, List.cons.injEq] at whole
    have white := begins mark (by rw [whole.2]; rfl)
    rintro ⟨rfl | rfl, -⟩ <;> cases white
  | [zero, mark] =>
    have short : afterHexMark? [zero, mark] = none := afterHexMark?_eq_none (by simp)
    rw [short]
    refine afterHexMark?_eq_none fun other first tail whole => ?_
    rw [List.cons_append, List.singleton_append, List.cons.injEq, List.cons.injEq] at whole
    have white := begins first (by rw [whole.2.2]; rfl)
    rintro ⟨-, digit⟩
    rw [digit?_of_isWhite white] at digit
    cases digit
  | zero :: mark :: first :: tail =>
    by_cases leading : zero = '0'
    · subst leading
      simp only [List.cons_append, afterHexMark?]
      split <;> rfl
    · have other (below : List Char) : afterHexMark? (zero :: below) = none :=
        afterHexMark?_eq_none fun _ _ _ whole => absurd (List.cons.inj whole).1 leading
      rw [List.cons_append, other, other]
      rfl

theorem radix_append (base : Base) (text : List Char) :
    base.radix (text ++ rest) = ((base.radix text).1, (base.radix text).2 ++ rest) := by
  have zero : (text ++ rest).head? = some '0' ↔ text.head? = some '0' := by
    cases text with
    | nil =>
      refine iff_of_false ?_ (by simp)
      intro first
      have white := begins '0' first
      cases white
    | cons first tail => rfl
  unfold Base.radix
  rw [afterHexMark?_append begins]
  cases afterHexMark? text with
  | some body => rfl
  | none =>
    cases base with
    | hexadecimal => rfl
    | inferred => simp only [Option.map_none, zero]

theorem Numeral.read?_of_skipped {text longer : List Char} (base : Base)
    (skipped : longer.dropWhile Text.isAsciiBlank =
      text.dropWhile Text.isAsciiBlank ++ rest) : read? base longer = read? base text := by
  simp only [read?, skipped, takeSign_append begins, radix_append begins,
    leadingDigits_append begins]

theorem Binary64.read?_of_skipped {text longer : List Char}
    (skipped : longer.dropWhile Text.isAsciiBlank =
      text.dropWhile Text.isAsciiBlank ++ rest) : read? longer = read? text := by
  have stops : ∀ c ∈ rest.head?, Decimal.isPart c = false :=
    fun c first => Decimal.not_isPart_of_isWhite (begins c first)
  rw [read?, skipped, Text.takeWhile_append_of_stops _ stops, read?]

end

end Number

namespace Codec

section
variable {rest : List Char} (begins : Text.BeginsWhite rest)
include begins

theorem beginsWith_append {word : String} (visible : word.toList.all (!Text.isWhite ·) = true)
    (text : List Char) : beginsWith (text ++ rest) word = beginsWith text word := by
  unfold beginsWith
  rw [List.take_append]
  cases room : word.length - text.length with
  | zero => rw [List.take_zero, List.append_nil]
  | succ missing =>
    cases rest with
    | nil => rw [List.take_nil, List.append_nil]
    | cons c below =>
      -- the text is too short for the word, and what would complete it is white
      have short : ((text.take word.length).map Char.toUpper == word.toList) = false := by
        rw [beq_eq_false_iff_ne]
        intro same
        have lengths := congrArg List.length same
        rw [List.length_map, List.length_take, String.length_toList] at lengths
        omega
      rw [short, beq_eq_false_iff_ne]
      intro same
      have member : c.toUpper ∈ word.toList := by
        rw [← same, List.take_succ_cons]
        simp
      have white := begins c rfl
      have other := List.all_eq_true.mp visible _ member
      rw [Text.toUpper_of_isWhite white, white] at other
      cases other

theorem any_beginsWith_append (words : List String)
    (visible : words.all (·.toList.all (!Text.isWhite ·)) = true) (text : List Char) :
    words.any (beginsWith (text ++ rest)) = words.any (beginsWith text) := by
  rw [Bool.eq_iff_iff, List.any_eq_true, List.any_eq_true]
  refine exists_congr fun word => and_congr_right fun listed => ?_
  rw [beginsWith_append begins (List.all_eq_true.mp visible word listed)]

end

theorem before_append_of_mem {mark : Char} {text : List Char} (present : mark ∈ text)
    (rest : List Char) : before mark (text ++ rest) = before mark text := by
  unfold before
  rw [if_pos present, if_pos (List.mem_append_left rest present), List.takeWhile_append, if_neg]
  intro whole
  have all := (List.takeWhile_prefix (· ≠ mark)).eq_of_length whole
  simpa using List.takeWhile_eq_self_iff.mp all mark present

end Codec

namespace Text

section
variable {text trailer : List Char} (white : ∀ c ∈ trailer, isWhite c = true)
include white

theorem exists_dropWhile_append (p : Char → Bool) (text : List Char) :
    ∃ rest, (∀ c ∈ rest, isWhite c = true) ∧
      (text ++ trailer).dropWhile p = text.dropWhile p ++ rest := by
  rw [List.dropWhile_append]
  split
  · next empty =>
    refine ⟨trailer.dropWhile p, ?_, ?_⟩
    · intro c member
      exact white c ((List.dropWhile_suffix p).subset member)
    · rw [List.isEmpty_iff.mp empty, List.nil_append]
  · exact ⟨trailer, white, rfl⟩

theorem trimStart_append_white (text : List Char) :
    trimStart (text ++ trailer) =
      if trimStart text = [] then [] else trimStart text ++ trailer := by
  have blank : trailer.dropWhile isWhite = [] := List.dropWhile_eq_nil_iff.mpr white
  rw [trimStart, trimStart, List.dropWhile_append, blank]
  simp only [List.isEmpty_iff]

theorem trimEnd_append_white (text : List Char) : trimEnd (text ++ trailer) = trimEnd text := by
  have reversed : ∀ c ∈ trailer.reverse, isWhite c = true := by
    intro c member
    exact white c (List.mem_reverse.mp member)
  rw [trimEnd, trimEnd, List.reverse_append, List.dropWhile_append_of_pos reversed]

theorem firstWord?_append_white (text : List Char) :
    firstWord? (text ++ trailer) = firstWord? text := by
  have stops : ∀ c ∈ trailer.head?, (!isWhite c) = false := by
    intro c first
    rw [beginsWhite_of_all white c first, Bool.not_true]
  unfold firstWord?
  rw [trimStart_append_white white]
  split_ifs with blank
  · rw [blank]
  · rw [takeWhile_append_of_stops _ stops]

end

end Text

namespace Codec

section
variable {trailer : List Char} (white : ∀ c ∈ trailer, Text.isWhite c = true)
include white

theorem readFlag?_append_white (text : List Char) :
    readFlag? (text ++ trailer) = readFlag? text := by
  have begins := Text.beginsWhite_of_all white
  unfold readFlag?
  rw [Text.trimStart_append_white white]
  split_ifs with blank
  · rw [blank]
  · dsimp only
    rw [any_beginsWith_append begins trueWords (by decide),
      any_beginsWith_append begins falseWords (by decide)]

theorem before_append_white {mark : Char} (visible : Text.isWhite mark = false)
    (text : List Char) : before mark (text ++ trailer) = before mark text := by
  have absent : mark ∉ trailer := by
    intro member
    rw [white mark member] at visible
    cases visible
  by_cases present : mark ∈ text
  · exact before_append_of_mem present trailer
  · rw [before, before, if_neg present, if_neg]
    rw [List.mem_append]
    exact not_or.mpr ⟨present, absent⟩

theorem unquote_append_white (text : List Char) : unquote (text ++ trailer) = unquote text := by
  unfold unquote
  rw [Text.trimStart_append_white white]
  cases Text.trimStart text with
  | nil => rfl
  | cons first tail =>
    rw [if_neg (List.cons_ne_nil first tail), List.cons_append]
    by_cases double : first = '"'
    · subst double
      exact before_append_white white (by decide) tail
    by_cases single : first = '\''
    · subst single
      exact before_append_white white (by decide) tail
    rw [← List.cons_append]
    have plain := Text.trimEnd_append_white white (first :: tail)
    simpa [double, single] using plain

end

end Codec

/-- White space at the end of a text does not change what the text denotes, nor whether it denotes
anything. -/
theorem Kind.read?_append_white {trailer : List Char}
    (white : ∀ c ∈ trailer, Text.isWhite c = true) (kind : Kind) (maxLength : Nat)
    (text : List Char) : kind.read? maxLength (text ++ trailer) = kind.read? maxLength text := by
  obtain ⟨rest, inner, skipped⟩ := Text.exists_dropWhile_append white Text.isAsciiBlank text
  have begins := Text.beginsWhite_of_all inner
  have numeral (base : Number.Base) := Number.Numeral.read?_of_skipped begins base skipped
  cases kind with
  | void => rw [read?, read?, numeral]
  | signed width => rw [read?, read?, numeral]
  | unsigned width => rw [read?, read?, numeral]
  | hexadecimal width => rw [read?, read?, numeral]
  | float => rw [read?, read?, Number.Binary64.read?_of_skipped begins skipped]
  | string => rw [read?, read?, Codec.unquote_append_white white]
  | boolean => rw [read?, read?, Codec.readFlag?_append_white white]
  | char =>
    rw [read?, read?, Text.trimStart_append_white white]
    split_ifs with blank
    · rw [blank]
    · obtain ⟨first, tail, body⟩ := List.exists_cons_of_ne_nil blank
      rw [body, List.cons_append, List.head?_cons, List.head?_cons]
  | address => rw [read?, read?, Text.firstWord?_append_white white]
  | _ => rfl

end ConfigTree
