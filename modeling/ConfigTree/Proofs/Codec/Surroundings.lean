import ConfigTree.Proofs.Codec.Trailing
import ConfigTree.Proofs.Tree.Reread

/-!
What may stand around a value. A text that denotes a value begins, after its blanks, with something
that the scan for the value takes. More blanks in front of it are skipped as well, and the scan has
stopped before a remark behind it, which begins with a blank. Only a string without quotation marks
goes on to the end of its text.

Main statement: `Kind.decode_surrounded`.
-/

namespace ConfigTree

namespace Codec

/-- After its leading white space a text begins with a quotation mark that occurs again in it. -/
def Quoted (text : List Char) : Prop :=
  ∃ mark body, (mark = '"' ∨ mark = '\'') ∧ Text.trimStart text = mark :: body ∧ mark ∈ body

theorem unquote_of_mark {mark : Char} {text body : List Char} (quote : mark = '"' ∨ mark = '\'')
    (opened : Text.trimStart text = mark :: body) : unquote text = before mark body := by
  unfold unquote
  rw [opened]
  rcases quote with rfl | rfl <;> rfl

end Codec

theorem Text.isAsciiBlank_of_isLineSpace {c : Char} (space : isLineSpace c = true) :
    isAsciiBlank c = true := by
  simp only [isLineSpace, Bool.or_eq_true, beq_iff_eq] at space
  rcases space with (rfl | rfl) | rfl <;> decide

theorem Text.dropWhile_surrounded {p : Char → Bool} {blanks text : List Char}
    (blank : ∀ c ∈ blanks, p c = true) (filled : text.dropWhile p ≠ []) (rest : List Char) :
    (blanks ++ text ++ rest).dropWhile p = text.dropWhile p ++ rest := by
  rw [List.append_assoc, List.dropWhile_append_of_pos blank, List.dropWhile_append, if_neg]
  rwa [List.isEmpty_iff]

section
variable {blanks text rest : List Char} (blank : ∀ c ∈ blanks, Text.isAsciiBlank c = true)
include blank

theorem Text.trimStart_surrounded (filled : trimStart text ≠ []) (rest : List Char) :
    trimStart (blanks ++ text ++ rest) = trimStart text ++ rest :=
  dropWhile_surrounded (fun c member => isWhite_of_isAsciiBlank (blank c member)) filled rest

theorem Codec.unquote_surrounded (quoted : Quoted text) (rest : List Char) :
    unquote (blanks ++ text ++ rest) = unquote text := by
  obtain ⟨mark, body, quote, opened, closed⟩ := quoted
  have filled : Text.trimStart text ≠ [] := by
    rw [opened]
    exact List.cons_ne_nil mark body
  have longer : Text.trimStart (blanks ++ text ++ rest) = mark :: (body ++ rest) := by
    rw [Text.trimStart_surrounded blank filled, opened, List.cons_append]
  rw [unquote_of_mark quote opened, unquote_of_mark quote longer, before_append_of_mem closed]

theorem head?_trimStart_surrounded {c : Char} (first : (Text.trimStart text).head? = some c)
    (rest : List Char) : (Text.trimStart (blanks ++ text ++ rest)).head? = some c := by
  obtain ⟨tail, body⟩ := List.head?_eq_some_iff.mp first
  have filled : Text.trimStart text ≠ [] := by
    rw [body]
    exact List.cons_ne_nil c tail
  rw [Text.trimStart_surrounded blank filled, body]
  rfl

variable (begins : Text.BeginsWhite rest)
include begins

namespace Number

theorem Numeral.read?_surrounded {base : Base} {numeral : Numeral}
    (found : read? base text = some numeral) :
    read? base (blanks ++ text ++ rest) = some numeral := by
  -- Nothing is read from blanks alone, so the remark is not what comes after the blanks.
  have filled : text.dropWhile Text.isAsciiBlank ≠ [] := by
    intro empty
    rw [read?, empty] at found
    cases base <;> cases found
  rw [read?_of_skipped begins base (Text.dropWhile_surrounded blank filled rest), found]

theorem Binary64.read?_surrounded {number : Binary64} (found : read? text = some number) :
    read? (blanks ++ text ++ rest) = some number := by
  have filled : text.dropWhile Text.isAsciiBlank ≠ [] := by
    intro empty
    rw [read?, empty] at found
    cases found
  rw [read?_of_skipped begins (Text.dropWhile_surrounded blank filled rest), found]

end Number

theorem Text.firstWord?_surrounded {word : List Char} (found : firstWord? text = some word) :
    firstWord? (blanks ++ text ++ rest) = some word := by
  have filled : trimStart text ≠ [] := by
    intro empty
    rw [firstWord?, empty] at found
    cases found
  have stops : ∀ c ∈ rest.head?, (!isWhite c) = false := by
    intro c first
    rw [begins c first, Bool.not_true]
  rw [← found, firstWord?, firstWord?, trimStart_surrounded blank filled,
    takeWhile_append_of_stops _ stops]

theorem Codec.readFlag?_surrounded {flag : Bool} (found : readFlag? text = some flag) :
    readFlag? (blanks ++ text ++ rest) = some flag := by
  have filled : Text.trimStart text ≠ [] := by
    intro empty
    rw [readFlag?, empty] at found
    cases found
  rw [← found, readFlag?, readFlag?, Text.trimStart_surrounded blank filled,
    any_beginsWith_append begins trueWords (by decide),
    any_beginsWith_append begins falseWords (by decide)]

theorem Kind.read?_surrounded {kind : Kind} {maxLength : Nat} {value : Value}
    (found : kind.read? maxLength text = some value)
    (quoted : kind = .string → Codec.Quoted text) :
    kind.read? maxLength (blanks ++ text ++ rest) = some value := by
  cases kind <;> simp only [read?, Option.map_eq_some_iff, reduceCtorEq] at found
  case string => rw [← found, read?, Codec.unquote_surrounded blank (quoted rfl)]
  case char =>
    obtain ⟨c, first, rfl⟩ := found
    rw [read?, head?_trimStart_surrounded blank first]
    rfl
  case boolean =>
    obtain ⟨flag, spelled, rfl⟩ := found
    rw [read?, Codec.readFlag?_surrounded blank begins spelled]
    rfl
  case address =>
    obtain ⟨quad, written, rfl⟩ := found
    obtain ⟨word, first, dotted⟩ := Option.bind_eq_some_iff.mp written
    rw [read?, Text.firstWord?_surrounded blank begins first, Option.bind_some, dotted]
    rfl
  case float =>
    obtain ⟨number, spelled, rfl⟩ := found
    rw [read?, Number.Binary64.read?_surrounded blank begins spelled]
    rfl
  all_goals
    obtain ⟨numeral, spelled, rfl⟩ := found
    rw [read?, Number.Numeral.read?_surrounded blank begins spelled]
    rfl

end

namespace Kind

theorem decode_eq_ok_iff {kind : Kind} {maxLength : Nat} {text : String} {value : Value} :
    kind.decode maxLength text = .ok value ↔ kind.read? maxLength text.toList = some value := by
  unfold decode
  constructor
  · intro decoded
    split at decoded
    · split at decoded
      · next found => rw [found, Except.ok.inj decoded]
      · cases decoded
    · cases decoded
  · intro found
    rw [if_pos (hasCodec_of_holds (holds_of_read? found)), found]

/-- A text that denotes a value denotes it with blanks in front and with a remark behind. A string
has to stand in quotation marks for that. -/
theorem decode_surrounded {kind : Kind} {maxLength : Nat} {text : String} {value : Value}
    (decoded : kind.decode maxLength text = .ok value)
    (quoted : kind = .string → Codec.Quoted text.toList) {blanks remark : String}
    (blank : ∀ c ∈ blanks.toList, isLineSpace c = true)
    (begins : ∀ c ∈ remark.toList.head?, c = ' ' ∨ c = '\t') :
    kind.decode maxLength (blanks ++ text ++ remark) = .ok value := by
  have skipped : ∀ c ∈ blanks.toList, Text.isAsciiBlank c = true :=
    fun c member => Text.isAsciiBlank_of_isLineSpace (blank c member)
  have white : Text.BeginsWhite remark.toList := by
    intro c first
    rcases begins c first with rfl | rfl <;> decide
  rw [decode_eq_ok_iff, String.toList_append, String.toList_append]
  exact read?_surrounded skipped white (decode_eq_ok_iff.mp decoded) quoted

/-- The exponent that a text leaves unfinished is not finished by the remark, and neither the mark
for a remark inside a quoted string nor a quotation mark behind it ends the string elsewhere. -/
theorem decode_surrounded_of_unfinished :
    let three : Value := .float ⟨0x4008000000000000⟩
    (Kind.decode .float 0 "3e" = .ok three ∧
      Kind.decode .float 0 (" \t\r" ++ "3e" ++ " 5 # '.5") = .ok three) ∧
    Kind.decode .string 0 "'a # b'" = .ok (.string "a # b") ∧
      Kind.decode .string 0 (" \t\r" ++ "'a # b'" ++ " 5 # '.5") = .ok (.string "a # b") := by
  intro three
  have unfinished : Kind.decode .float 0 "3e" = .ok three := by decide +kernel
  have finished : Kind.decode .string 0 "'a # b'" = .ok (.string "a # b") := by decide +kernel
  have quoted : Codec.Quoted "'a # b'".toList :=
    ⟨'\'', "a # b'".toList, Or.inr rfl, by decide +kernel, by decide +kernel⟩
  have blank : ∀ c ∈ " \t\r".toList, isLineSpace c = true :=
    List.all_eq_true.mp (by decide +kernel)
  have head : " 5 # '.5".toList.head? = some ' ' := by decide +kernel
  have begins : ∀ c ∈ " 5 # '.5".toList.head?, c = ' ' ∨ c = '\t' := by
    intro c first
    rw [head, Option.mem_some_iff] at first
    exact Or.inl first.symm
  exact ⟨⟨unfinished, decode_surrounded unfinished (by simp) blank begins⟩,
    finished, decode_surrounded finished (fun _ => quoted) blank begins⟩

end Kind

end ConfigTree
