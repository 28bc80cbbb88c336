import ConfigTree.Proofs.Number.Expression

/-!
The number at the start of a text. Only characters of decimals are looked at, and their cuts are
tried from the longest on. Every decimal that the text begins with is one of these cuts, and no word is, so
the first cut that can be converted is the longest decimal.

Main statement: `Binary64.read?_longest`.
-/

namespace ConfigTree.Number

/-- A longest beginning of a text in a language. -/
structure Longest (language : Language Char) (text cut : List Char) : Prop where
  member : cut ∈ language
  begins : cut <+: text
  longest : ∀ other ∈ language, other <+: text → other.length ≤ cut.length

section
variable {α : Type} {a : α}

/-- Of the numbers up to a bound, tried from the bound down, the greatest that gives something is
found: the greater ones have been tried before. -/
theorem findSome?_descending {f : Nat → Option α} {bound : Nat} :
    (List.range' 1 bound).reverse.findSome? f = some a ↔
      ∃ n, 0 < n ∧ n ≤ bound ∧ f n = some a ∧ ∀ m, n < m → m ≤ bound → f m = none := by
  induction bound with
  | zero =>
    constructor
    · intro found
      cases found
    · rintro ⟨n, positive, bounded, -⟩
      omega
  | succ bound ih =>
    have last : 1 + bound = bound + 1 := Nat.add_comm 1 bound
    rw [List.range'_1_concat, List.reverse_append, List.reverse_singleton, List.singleton_append,
      List.findSome?_cons, last]
    cases tried : f (bound + 1) with
    | some b =>
      constructor
      · intro found
        exact ⟨bound + 1, by omega, le_refl _, tried.trans found, fun m above within => by omega⟩
      · rintro ⟨n, positive, bounded, gives, barren⟩
        by_cases top : n = bound + 1
        · rw [← tried, ← top, gives]
        · have nothing := barren (bound + 1) (by omega) (le_refl _)
          rw [tried] at nothing
          cases nothing
    | none =>
      refine ih.trans (exists_congr fun n => and_congr_right fun positive => ?_)
      constructor
      · rintro ⟨bounded, gives, barren⟩
        refine ⟨by omega, gives, fun m above within => ?_⟩
        by_cases top : m = bound + 1
        · rw [top, tried]
        · exact barren m above (by omega)
      · rintro ⟨bounded, gives, barren⟩
        have other : n ≠ bound + 1 := by
          rintro rfl
          rw [tried] at gives
          cases gives
        exact ⟨by omega, gives, fun m above within => barren m above (by omega)⟩

variable {f : List Char → Option α} {run : List Char}

theorem findSome?_take_eq_some_iff :
    ((List.range' 1 run.length).reverse.findSome? fun length => f (run.take length)) = some a ↔
      ∃ cut, cut ≠ [] ∧ cut <+: run ∧ f cut = some a ∧
        ∀ other, other <+: run → (f other).isSome → other.length ≤ cut.length := by
  rw [findSome?_descending]
  constructor
  · rintro ⟨n, positive, bounded, gives, barren⟩
    have length : (run.take n).length = n := List.length_take_of_le bounded
    refine ⟨run.take n, ?_, List.take_prefix n run, gives, fun other begins found => ?_⟩
    · rw [← List.length_pos_iff, length]
      exact positive
    · by_contra longer
      rw [length, Nat.not_le] at longer
      have nothing := barren other.length longer begins.length_le
      rw [← List.prefix_iff_eq_take.mp begins] at nothing
      rw [nothing] at found
      cases found
  · rintro ⟨cut, nonempty, begins, gives, longest⟩
    refine ⟨cut.length, List.length_pos_iff.mpr nonempty, begins.length_le, ?_, ?_⟩
    · rw [← List.prefix_iff_eq_take.mp begins, gives]
    · intro m above within
      by_contra found
      have bounded := longest (run.take m) (List.take_prefix m run)
        (Option.isSome_iff_ne_none.mpr found)
      rw [List.length_take_of_le within] at bounded
      omega

theorem findSome?_take_eq_none_iff :
    ((List.range' 1 run.length).reverse.findSome? fun length => f (run.take length)) = none ↔
      ∀ cut, cut ≠ [] → cut <+: run → f cut = none := by
  simp only [List.findSome?_eq_none_iff, List.mem_reverse, List.mem_range'_1]
  constructor
  · intro barren cut nonempty begins
    have positive := List.length_pos_iff.mpr nonempty
    have bounded := begins.length_le
    have nothing := barren cut.length (by omega)
    rwa [← List.prefix_iff_eq_take.mp begins] at nothing
  · rintro barren n ⟨positive, bounded⟩
    refine barren _ ?_ (List.take_prefix n run)
    rw [← List.length_pos_iff, List.length_take_of_le (by omega)]
    exact positive

end

theorem Decimal.isPart_iff {c : Char} : isPart c = true ↔ c ∈ Expression.marks := by
  simp only [isPart, Bool.or_eq_true, Expression.isDigit_iff_mem, beq_iff_eq, Expression.marks,
    List.mem_append, List.mem_cons, List.not_mem_nil, or_false, or_assoc]

namespace Expression

variable {cut text : List Char} (matched : cut ∈ decimal.matches')
include matched

theorem isPart_of_mem_decimal : ∀ c ∈ cut, Decimal.isPart c = true := by
  obtain ⟨d, formed, rfl⟩ := mem_decimal.mp matched
  exact formed.isPart_of_mem_text

theorem ne_nil_of_mem_decimal : cut ≠ [] := by
  rintro rfl
  have converted := Decimal.isSome_ofText?_iff.mpr matched
  cases converted

theorem prefix_run_iff : cut <+: text.takeWhile Decimal.isPart ↔ cut <+: text := by
  constructor
  · intro begins
    exact begins.trans (List.takeWhile_prefix Decimal.isPart)
  · intro begins
    obtain ⟨rest, rfl⟩ := begins
    rw [List.takeWhile_append_of_pos (isPart_of_mem_decimal matched)]
    exact List.prefix_append cut _

theorem exists_head_of_prefix {sign : List Char} (signed : SignOf text sign)
    (begins : cut <+: sign ++ text) :
    ∃ c rest, text = c :: rest ∧ (c.isDigit = true ∨ c = '.') := by
  obtain ⟨d, formed, rfl⟩ := mem_decimal.mp matched
  obtain ⟨more, whole⟩ := begins
  obtain ⟨c, rest, body, first⟩ := formed.exists_head
  have unsigned : Unsigned (c :: (rest ++ more)) := by
    refine unsigned_of_isDigit fun other same => ?_
    cases same
    exact first
  have spelled : d.text ++ more = d.sign ++ c :: (rest ++ more) := by
    rw [Decimal.text, body, List.append_assoc, List.cons_append]
  -- A text is split into its sign and what is behind it in one way.
  have split := (signOf_of_mem formed.sign unsigned).splitSign_eq
  rw [← spelled, whole, signed.splitSign_eq] at split
  exact ⟨c, rest ++ more, (Prod.mk.inj split).2, first⟩

end Expression

namespace Binary64

theorem ofWord?_of_parts {word : List Char} (parts : ∀ c ∈ word, Decimal.isPart c = true) :
    ofWord? word = none := by
  cases word with
  | nil => decide
  | cons first rest =>
    have letters : Expression.marks.all fun c => c.toLower ≠ 'i' ∧ c.toLower ≠ 'n' := by decide
    have known := Decimal.isPart_iff.mp (parts first List.mem_cons_self)
    obtain ⟨notI, notN⟩ := of_decide_eq_true (List.all_eq_true.mp letters first known)
    unfold ofWord?
    rw [List.map_cons, if_neg, if_neg]
    · intro same
      exact notN (List.cons.inj same).1
    · rintro (same | same)
      · exact notI (List.cons.inj same).1
      · exact notI (List.cons.inj same).1

theorem isSome_ofText?_iff {cut : List Char} (parts : ∀ c ∈ cut, Decimal.isPart c = true) :
    (ofText? cut).isSome ↔ cut ∈ Expression.decimal.matches' := by
  rw [← Decimal.isSome_ofText?_iff, ofText?]
  cases Decimal.ofText? cut with
  | some decimal => rfl
  | none =>
    obtain ⟨sign, word, rfl, signed⟩ := exists_sign cut
    have unknown := ofWord?_of_parts fun c member => parts c (List.mem_append_right sign member)
    rw [signed.splitSign_eq]
    dsimp only
    rw [unknown]
    rfl

section
variable {text : List Char}

theorem converts_iff {cut : List Char} :
    (cut <+: text.takeWhile Decimal.isPart ∧ (ofText? cut).isSome) ↔
      cut ∈ Expression.decimal.matches' ∧ cut <+: text := by
  constructor
  · rintro ⟨inside, converted⟩
    have parts : ∀ c ∈ cut, Decimal.isPart c = true :=
      fun c member => List.mem_takeWhile_imp (inside.subset member)
    have matched := (isSome_ofText?_iff parts).mp converted
    exact ⟨matched, (Expression.prefix_run_iff matched).mp inside⟩
  · rintro ⟨matched, begins⟩
    exact ⟨(Expression.prefix_run_iff matched).mpr begins,
      (isSome_ofText?_iff (Expression.isPart_of_mem_decimal matched)).mpr matched⟩

theorem read?_eq_some_iff {number : Binary64} : read? text = some number ↔
    ∃ cut, Longest Expression.decimal.matches' (text.dropWhile Text.isAsciiBlank) cut ∧
      ofText? cut = some number := by
  rw [read?, findSome?_take_eq_some_iff]
  constructor
  · rintro ⟨cut, -, inside, converted, longest⟩
    obtain ⟨matched, begins⟩ := converts_iff.mp ⟨inside, by rw [converted]; rfl⟩
    refine ⟨cut, ⟨matched, begins, fun other decimal first => ?_⟩, converted⟩
    obtain ⟨within, found⟩ := converts_iff.mpr ⟨decimal, first⟩
    exact longest other within found
  · rintro ⟨cut, ⟨matched, begins, longest⟩, converted⟩
    refine ⟨cut, Expression.ne_nil_of_mem_decimal matched,
      (Expression.prefix_run_iff matched).mpr begins, converted, fun other within found => ?_⟩
    obtain ⟨decimal, first⟩ := converts_iff.mp ⟨within, found⟩
    exact longest other decimal first

theorem read?_eq_none_iff : read? text = none ↔
    ∀ cut ∈ Expression.decimal.matches', ¬cut <+: text.dropWhile Text.isAsciiBlank := by
  rw [read?, findSome?_take_eq_none_iff]
  constructor
  · intro barren cut matched begins
    obtain ⟨inside, found⟩ := converts_iff.mpr ⟨matched, begins⟩
    rw [barren cut (Expression.ne_nil_of_mem_decimal matched) inside] at found
    cases found
  · intro absent cut nonempty inside
    by_contra found
    obtain ⟨matched, begins⟩ := converts_iff.mp ⟨inside, Option.isSome_iff_ne_none.mpr found⟩
    exact absent cut matched begins

theorem read?_run :
    read? ((text.dropWhile Text.isAsciiBlank).takeWhile Decimal.isPart) = read? text := by
  have visible : Expression.marks.all (!Text.isAsciiBlank ·) = true := by decide
  have kept : ((text.dropWhile Text.isAsciiBlank).takeWhile Decimal.isPart).dropWhile
      Text.isAsciiBlank = (text.dropWhile Text.isAsciiBlank).takeWhile Decimal.isPart := by
    cases run : (text.dropWhile Text.isAsciiBlank).takeWhile Decimal.isPart with
    | nil => rfl
    | cons first rest =>
      have part : Decimal.isPart first = true :=
        List.mem_takeWhile_imp (run ▸ List.mem_cons_self)
      have other := List.all_eq_true.mp visible first (Decimal.isPart_iff.mp part)
      exact List.dropWhile_cons_of_neg (by simpa using other)
  rw [read?, kept, List.takeWhile_idem, read?]

theorem read?_of_isAlpha {sign rest : List Char} {letter : Char} (known : sign ∈ signs)
    (alphabetic : letter.isAlpha = true)
    (whole : text.dropWhile Text.isAsciiBlank = sign ++ letter :: rest) : read? text = none := by
  have range := Text.isAlpha_iff.mp alphabetic
  have unsigned : Unsigned (letter :: rest) := by
    intro c first
    cases first
    constructor <;> rintro rfl <;> cases alphabetic
  rw [read?_eq_none_iff, whole]
  intro cut member begins
  obtain ⟨c, below, same, first⟩ :=
    Expression.exists_head_of_prefix member (signOf_of_mem known unsigned) begins
  cases same
  rcases first with digit | rfl
  · rw [Text.isDigit_iff] at digit
    omega
  · cases alphabetic

end

/-- The number that is read is that of the longest decimal behind the blanks of the text, and there
is none if the text begins with no decimal there. No decimal goes beyond the first character that is
not one of decimals, and nothing from there on changes what is read. Words are never read. -/
theorem read?_longest (text : List Char) :
    let bare := text.dropWhile (· ∈ Text.asciiBlanks)
    let run := bare.takeWhile (· ∈ Expression.marks)
    (∀ number, read? text = some number ↔
      ∃ cut, Longest Expression.decimal.matches' bare cut ∧ ofText? cut = some number) ∧
    (read? text = none ↔ ∀ cut ∈ Expression.decimal.matches', ¬cut <+: bare) ∧
    (∀ cut ∈ Expression.decimal.matches', cut <+: bare → cut <+: run) ∧
    read? run = read? text ∧
    ∀ sign ∈ signs, ∀ letter rest, letter.isAlpha = true → bare = sign ++ letter :: rest →
      read? text = none := by
  have blanks : (fun c => decide (c ∈ Text.asciiBlanks)) = Text.isAsciiBlank := by
    funext c
    rw [Bool.eq_iff_iff, decide_eq_true_iff, Text.isAsciiBlank_iff]
  have parts : (fun c => decide (c ∈ Expression.marks)) = Decimal.isPart := by
    funext c
    rw [Bool.eq_iff_iff, decide_eq_true_iff, Decimal.isPart_iff]
  intro bare run
  simp only [bare, run, blanks, parts]
  refine ⟨fun _ => read?_eq_some_iff, read?_eq_none_iff, ?_, read?_run, ?_⟩
  · intro cut member begins
    exact (Expression.prefix_run_iff member).mpr begins
  · intro sign known letter rest alphabetic whole
    exact read?_of_isAlpha known alphabetic whole

/-- The exponent is not finished, and the second point belongs to no decimal before it. A word that
would be converted as a whole is not read. -/
theorem read?_longest_of_unfinished :
    let bare := "-1.5e+.2".toList
    Longest Expression.decimal.matches' bare "-1.5".toList ∧
      ofText? "-1.5".toList = some ⟨0xBFF8000000000000⟩ ∧
      read? (' ' :: '\x0b' :: bare) = some ⟨0xBFF8000000000000⟩ ∧
      (ofText? "-Infinity".toList).isSome ∧ read? "-Infinity".toList = none := by
  intro bare
  have longest : Longest Expression.decimal.matches' bare "-1.5".toList := by
    have shorter : ∀ other ∈ bare.inits,
        other ∈ Expression.decimal.matches' → other.length ≤ 4 := by decide +kernel
    refine ⟨by decide +kernel, by decide +kernel, fun other member begins => ?_⟩
    exact shorter other ((List.mem_inits other bare).mpr begins) member
  have converted : ofText? "-1.5".toList = some ⟨0xBFF8000000000000⟩ := by decide +kernel
  refine ⟨longest, converted, ?_, by decide +kernel, ?_⟩
  · exact ((read?_longest (' ' :: '\x0b' :: bare)).1 _).mpr ⟨_, longest, converted⟩
  · exact (read?_longest "-Infinity".toList).2.2.2.2 ['-'] (by decide) 'I' "nfinity".toList
      (by decide) (by decide +kernel)

end Binary64

end ConfigTree.Number
