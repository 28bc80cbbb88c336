import ConfigTree.Codec
import ConfigTree.Proofs.Number.Spelling

/-!
What the kinds of integers keep of a text. The text spells an integer without bounds, and the kind
keeps a word of it: signed kinds keep the low bits of the integer clamped to 64 bits, and the other
kinds the low bits of the integer modulo the number of 64-bit words.

Main statement: `Kind.decode_integer`.
-/

namespace ConfigTree
open Number

/-- The kinds of integers, how the radix is found in their texts, and which value they keep of an
integer. -/
inductive Kind.Keeps : Kind → Base → (Int → Value) → Prop where
  | void : Keeps .void .hexadecimal fun z => .pointer (BitVec.ofInt 64 (wrapped z))
  | signed (width : Width) :
      Keeps (.signed width) .inferred fun z => .signed width (BitVec.ofInt width.bits (clamped z))
  | unsigned (width : Width) :
      Keeps (.unsigned width) .inferred
        fun z => .unsigned width (BitVec.ofInt width.bits (wrapped z))
  | hexadecimal (width : Width) :
      Keeps (.hexadecimal width) .hexadecimal
        fun z => .unsigned width (BitVec.ofInt width.bits (wrapped z))

theorem Width.bits_le (width : Width) : width.bits ≤ 64 := by
  cases width <;> decide

theorem setWidth_ofInt (width : Width) (z : Int) :
    (BitVec.ofInt 64 z).setWidth width.bits = BitVec.ofInt width.bits z := by
  have divides : ((2 ^ width.bits : Nat) : Int) ∣ ((2 ^ 64 : Nat) : Int) :=
    Int.natCast_dvd_natCast.mpr (Nat.pow_dvd_pow 2 width.bits_le)
  have modulo (bits : Nat) :
      (((z % ((2 ^ bits : Nat) : Int)).toNat : Nat) : Int) = z % ((2 ^ bits : Nat) : Int) :=
    Int.toNat_of_nonneg
      (Int.emod_nonneg z (Int.natCast_ne_zero.mpr (Nat.ne_of_gt (Nat.two_pow_pos bits))))
  apply BitVec.eq_of_toNat_eq
  rw [BitVec.toNat_setWidth, BitVec.toNat_ofInt, BitVec.toNat_ofInt, ← Int.natCast_inj,
    Int.natCast_emod, modulo, modulo, Int.emod_emod_of_dvd z divides]

namespace Kind.Keeps

variable {kind : Kind} {base : Base} {keep : Int → Value} {text : List Char}

theorem hasCodec (keeps : kind.Keeps base keep) : kind.hasCodec = true := by
  cases keeps <;> rfl

theorem read?_of_reads (keeps : kind.Keeps base keep) {negative : Bool} {n : Nat}
    (reads : Numeral.Reads base text negative n) (maxLength : Nat) :
    kind.read? maxLength text = some (keep (integer negative n)) := by
  obtain ⟨magnitude, measures, read⟩ := reads
  have toSigned := Numeral.toSigned_eq measures negative
  have toUnsigned := Numeral.toUnsigned_eq measures negative
  cases keeps with
  | void => rw [read?, read, Option.map_some, toUnsigned]
  | signed width => rw [read?, read, Option.map_some, toSigned, setWidth_ofInt]
  | unsigned width => rw [read?, read, Option.map_some, toUnsigned, setWidth_ofInt]
  | hexadecimal width => rw [read?, read, Option.map_some, toUnsigned, setWidth_ofInt]

theorem read?_of_none (keeps : kind.Keeps base keep) (read : Numeral.read? base text = none)
    (maxLength : Nat) : kind.read? maxLength text = none := by
  cases keeps <;> rw [read?, read, Option.map_none]

end Kind.Keeps

namespace Kind

/-- Decoding an integer is exact: every text falls into the parts of a spelling, and it is refused
if there are no digits, and otherwise gives what the kind keeps of the integer that is spelled,
however long it is. -/
theorem decode_integer {kind : Kind} {base : Base} {keep : Int → Value}
    (keeps : kind.Keeps base keep) (maxLength : Nat) (text : String) :
    (∃ spelling : Spelling, spelling.Begins base text.toList) ∧
      ∀ spelling : Spelling, spelling.Begins base text.toList →
        kind.decode maxLength text =
          if spelling.values = [] then .error (.undecodable kind text)
          else .ok (keep spelling.integer) := by
  refine ⟨exists_begins base text.toList, ?_⟩
  intro spelling begins
  have codec := keeps.hasCodec
  by_cases empty : spelling.values = []
  · have none : Numeral.read? base text.toList = none := by
      rw [begins.read?_eq, if_pos empty]
    have refused := keeps.read?_of_none none maxLength
    simp only [decode, codec, if_true, refused, if_pos empty]
  · have found := keeps.read?_of_reads (begins.reads empty) maxLength
    simp only [decode, codec, if_true, found, if_neg empty, Spelling.integer]

/-- The word is exceeded at the last digit but one, and there is room for the last one again. -/
theorem decode_integer_of_exceeded :
    let text := "\x0b-184467440737095516190 1"
    let spelling : Spelling := {
      blanks := ['\x0b']
      sign := ['-']
      mark := []
      digits := "184467440737095516190".toList
      rest := [' ', '1']
      radix := 10
      values := [1, 8, 4, 4, 6, 7, 4, 4, 0, 7, 3, 7, 0, 9, 5, 5, 1, 6, 1, 9, 0] }
    (unsigned .w16).Keeps .inferred
        (fun z => .unsigned .w16 (BitVec.ofInt Width.w16.bits (wrapped z))) ∧
      spelling.Begins .inferred text.toList ∧
      spelling.integer = -184467440737095516190 ∧
      (unsigned .w16).decode 0 text = .ok (.unsigned .w16 (BitVec.allOnes 16)) := by
  intro text spelling
  have keeps := Keeps.unsigned .w16
  have stops : ∀ c ∈ spelling.rest.head?, ∀ d, ¬IsDigit 10 c d := by
    intro c first d digit
    cases first
    have found := (digit?_eq_some_iff (by decide)).mpr digit
    cases found
  have visible : ∀ c ∈ spelling.bare.head?, c ∉ Text.asciiBlanks := by
    intro c first
    cases first
    decide
  have begins : spelling.Begins .inferred text.toList :=
    ⟨by decide, List.forall_mem_singleton.mpr (by decide), visible, .minus, .decimal (by decide),
      by decide, stops⟩
  have integer : spelling.integer = -184467440737095516190 := by decide +kernel
  refine ⟨keeps, begins, integer, ?_⟩
  have decoded := (decode_integer keeps 0 text).2 spelling begins
  rw [if_neg (List.cons_ne_nil 1 _), integer] at decoded
  exact decoded

end Kind

end ConfigTree
