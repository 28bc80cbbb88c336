import ConfigTree.Number.Numeral

/-!
Magnitudes of digits. The mark of a magnitude is set exactly when the number of its digits is no
word of 64 bits, whatever becomes of the word afterwards; without the mark the word is the number.
So the number alone decides what the two readings of a numeral give.

Main statements: `Magnitude.measures_gather`, `Numeral.toSigned_eq` and `Numeral.toUnsigned_eq`.
-/

namespace ConfigTree.Number

def wordCount : Nat := 0x10000000000000000

def integer (negative : Bool) (n : Nat) : Int :=
  if negative then -(n : Int) else n

/-- The integer of the signed 64-bit range that is closest to an integer. -/
def clamped (z : Int) : Int :=
  max (-0x8000000000000000) (min 0x7FFFFFFFFFFFFFFF z)

/-- An integer modulo the number of words, but the greatest word for one of too great a magnitude,
whatever its sign. -/
def wrapped (z : Int) : Int :=
  if wordCount ≤ z.natAbs then wordCount - 1 else z % wordCount

namespace Magnitude

/-- A magnitude tells whether a number is a word, and which word it is. -/
structure Measures (magnitude : Magnitude) (n : Nat) : Prop where
  exceeded : magnitude.exceeded = true ↔ wordCount ≤ n
  word : n < wordCount → magnitude.word.toNat = n

def word? (n : Nat) : Option (BitVec 64) :=
  if n < wordCount then some (BitVec.ofNat 64 n) else none

theorem product?_eq (x y : BitVec 64) : product? x y = word? (x.toNat * y.toNat) := by
  have word : x * y = BitVec.ofNat 64 (x.toNat * y.toNat) := by
    rw [BitVec.ofNat_mul, BitVec.ofNat_toNat, BitVec.ofNat_toNat, BitVec.setWidth_eq,
      BitVec.setWidth_eq]
  have overflow : x.umulOverflow y = true ↔ ¬x.toNat * y.toNat < wordCount := by
    rw [Nat.not_lt]
    exact decide_eq_true_iff
  simp only [product?, word?, overflow, word, ite_not]

theorem sum?_eq (x y : BitVec 64) : sum? x y = word? (x.toNat + y.toNat) := by
  have word : x + y = BitVec.ofNat 64 (x.toNat + y.toNat) := by
    rw [BitVec.ofNat_add, BitVec.ofNat_toNat, BitVec.ofNat_toNat, BitVec.setWidth_eq,
      BitVec.setWidth_eq]
  have overflow : x.uaddOverflow y = true ↔ ¬x.toNat + y.toNat < wordCount := by
    rw [Nat.not_lt]
    exact decide_eq_true_iff
  simp only [sum?, word?, overflow, word, ite_not]

theorem toNat_ofNat_of_lt {n : Nat} (small : n < wordCount) : (BitVec.ofNat 64 n).toNat = n :=
  Nat.mod_eq_of_lt small

section
variable {magnitude : Magnitude} {radix n d : Nat} (small : radix < wordCount)
include small

theorem push_eq (digit : d < wordCount) :
    magnitude.push radix d =
      if magnitude.word.toNat * radix + d < wordCount then
        { magnitude with word := BitVec.ofNat 64 (magnitude.word.toNat * radix + d) }
      else { magnitude with exceeded := true } := by
  rw [push, product?_eq, toNat_ofNat_of_lt small]
  by_cases shifted : magnitude.word.toNat * radix < wordCount
  · rw [word?, if_pos shifted, Option.bind_some, sum?_eq, toNat_ofNat_of_lt shifted,
      toNat_ofNat_of_lt digit, word?]
    by_cases fits : magnitude.word.toNat * radix + d < wordCount
    · rw [if_pos fits, if_pos fits]
    · rw [if_neg fits, if_neg fits]
  · have overflow : ¬magnitude.word.toNat * radix + d < wordCount := by omega
    rw [word?, if_neg shifted, if_neg overflow, Option.bind_none]

/-- A digit behind the others keeps the magnitude that of the number. After the word was exceeded
the number only grows, and no digit takes the mark away. -/
theorem Measures.push (measures : magnitude.Measures n) (positive : 0 < radix)
    (digit : d < wordCount) : (magnitude.push radix d).Measures (n * radix + d) := by
  rw [push_eq small digit]
  rcases Nat.lt_or_ge n wordCount with fits | overflow
  · have clear : ¬magnitude.exceeded = true :=
      fun mark => absurd (measures.exceeded.mp mark) (Nat.not_le.mpr fits)
    rw [measures.word fits]
    split
    · next below =>
      refine ⟨iff_of_false clear (Nat.not_le.mpr below), fun _ => toNat_ofNat_of_lt below⟩
    · next above =>
      exact ⟨iff_of_true rfl (Nat.not_lt.mp above), fun below => absurd below above⟩
  · have grown : wordCount ≤ n * radix + d :=
      Nat.le_add_right_of_le (Nat.le_trans overflow (Nat.le_mul_of_pos_right n positive))
    have marked := measures.exceeded.mpr overflow
    split
    · exact ⟨iff_of_true marked grown, fun below => absurd grown (Nat.not_le.mpr below)⟩
    · exact ⟨iff_of_true rfl grown, fun below => absurd grown (Nat.not_le.mpr below)⟩

theorem Measures.foldl (measures : magnitude.Measures n) {run : List Nat}
    (bounded : ∀ d ∈ run, d < radix) :
    (run.foldl (Magnitude.push radix) magnitude).Measures
      (run.foldl (fun n d => n * radix + d) n) := by
  induction run generalizing magnitude n with
  | nil => exact measures
  | cons d rest ih =>
    have below := bounded d List.mem_cons_self
    exact ih (measures.push small (Nat.zero_lt_of_lt below) (Nat.lt_trans below small))
      fun other member => bounded other (List.mem_cons_of_mem d member)

/-- The magnitude of digits of any number is that of the number that they denote. -/
theorem measures_gather {run : List Nat} (bounded : ∀ d ∈ run, d < radix) :
    (gather radix run).Measures (ofDigits radix run) := by
  have start : Measures {} 0 := ⟨by decide, fun _ => rfl⟩
  exact start.foldl small bounded

end

end Magnitude

namespace Numeral

variable {magnitude : Magnitude} {n : Nat}

theorem ofInt_integer (measures : magnitude.Measures n) (small : n < wordCount) (negative : Bool) :
    BitVec.ofInt 64 (integer negative n) =
      if negative then -magnitude.word else magnitude.word := by
  have word : BitVec.ofInt 64 n = magnitude.word := by
    rw [BitVec.ofInt_natCast, ← measures.word small, BitVec.ofNat_toNat, BitVec.setWidth_eq]
  cases negative with
  | false => exact word
  | true => exact BitVec.ofInt_neg.trans (congrArg (- ·) word)

def greatest (negative : Bool) : Nat :=
  if negative then 0x8000000000000000 else 0x7FFFFFFFFFFFFFFF

theorem clamped_integer (negative : Bool) (n : Nat) :
    clamped (integer negative n) = integer negative (min n (greatest negative)) := by
  cases negative with
  | false =>
    simp only [clamped, integer, greatest, Bool.false_eq_true, if_false]
    omega
  | true =>
    simp only [clamped, integer, greatest, if_true]
    omega

theorem toSigned_eq (measures : magnitude.Measures n) (negative : Bool) :
    toSigned ⟨negative, magnitude⟩ = BitVec.ofInt 64 (clamped (integer negative n)) := by
  have word : (if negative then BitVec.intMin 64 else BitVec.intMax 64) =
      BitVec.ofInt 64 (integer negative (greatest negative)) := by
    cases negative <;> decide
  have value : (if negative then BitVec.intMin 64 else BitVec.intMax 64).toNat =
      greatest negative := by
    cases negative <;> decide
  have short : greatest negative < wordCount := by
    cases negative <;> decide
  rw [clamped_integer]
  by_cases inside : n ≤ greatest negative
  · have small : n < wordCount := Nat.lt_of_le_of_lt inside short
    have clear : ¬(magnitude.exceeded = true ∨ greatest negative < magnitude.word.toNat) := by
      rw [measures.word small, measures.exceeded]
      omega
    rw [Nat.min_eq_left inside, ofInt_integer measures small]
    simp only [toSigned, BitVec.lt_def, value, if_neg clear]
  · have overflow : magnitude.exceeded = true ∨ greatest negative < magnitude.word.toNat := by
      rcases Nat.lt_or_ge n wordCount with small | great
      · rw [measures.word small]
        exact .inr (Nat.not_le.mp inside)
      · exact .inl (measures.exceeded.mpr great)
    rw [Nat.min_eq_right (Nat.le_of_not_le inside), ← word]
    simp only [toSigned, BitVec.lt_def, value, if_pos overflow]

theorem toUnsigned_eq (measures : magnitude.Measures n) (negative : Bool) :
    toUnsigned ⟨negative, magnitude⟩ = BitVec.ofInt 64 (wrapped (integer negative n)) := by
  have size : (integer negative n).natAbs = n := by
    cases negative with
    | false => exact Int.natAbs_natCast n
    | true => exact (Int.natAbs_neg n).trans (Int.natAbs_natCast n)
  rw [toUnsigned, wrapped, size]
  rcases Nat.lt_or_ge n wordCount with small | great
  · have clear : ¬magnitude.exceeded = true :=
      fun mark => absurd (measures.exceeded.mp mark) (Nat.not_le.mpr small)
    have modulo (z : Int) : BitVec.ofInt 64 (z % wordCount) = BitVec.ofInt 64 z := by
      apply BitVec.eq_of_toNat_eq
      rw [BitVec.toNat_ofInt, BitVec.toNat_ofInt]
      exact congrArg Int.toNat (Int.emod_emod _ _)
    rw [if_neg clear, if_neg (Nat.not_le.mpr small), modulo, ofInt_integer measures small]
  · rw [if_pos (measures.exceeded.mpr great), if_pos great]
    decide

end Numeral

end ConfigTree.Number
