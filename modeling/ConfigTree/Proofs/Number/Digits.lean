import Mathlib.Tactic.IntervalCases
import ConfigTree.Number.Digits

/-!
Numbers in digits. The digits that are written for a number are the characters of a run of digit
values, and reading them gives the same run. Neither the case of the letters nor zeros in front
change the number.

Main statements: `denotes_digits` and `denotes_upperHex`.
-/

namespace ConfigTree.Number

/-- A text begins with at least one digit, and the digits that it begins with denote a number. -/
structure Denotes (radix : Nat) (text : List Char) (n : Nat) : Prop where
  nonempty : leadingDigits radix text ≠ []
  value : ofDigits radix (leadingDigits radix text) = n

variable {radix : Nat}

theorem ofDigits_append_singleton (run : List Nat) (d : Nat) :
    ofDigits radix (run ++ [d]) = ofDigits radix run * radix + d := by
  rw [ofDigits, List.foldl_append]
  rfl

theorem ofDigits_replicate_zero_append (count : Nat) (run : List Nat) :
    ofDigits radix (List.replicate count 0 ++ run) = ofDigits radix run := by
  have zeros : ofDigits radix (List.replicate count 0) = 0 := by
    induction count with
    | zero => rfl
    | succ count ih => rw [List.replicate_succ', ofDigits_append_singleton, ih, Nat.zero_mul]
  rw [ofDigits, List.foldl_append]
  exact congrArg (fun start => List.foldl _ start run) zeros

theorem exists_run (large : 1 < radix) (n : Nat) :
    ∃ run, digits radix n = run.map Nat.digitChar ∧ run ≠ [] ∧ (∀ d ∈ run, d < radix) ∧
      ofDigits radix run = n := by
  induction n using Nat.strongRecOn with
  | _ n ih =>
    by_cases single : n < radix
    · refine ⟨[n], ?_, List.cons_ne_nil n [], ?_, ?_⟩
      · rw [digits, Nat.toDigits_of_lt_base single, List.map_singleton]
      · intro d member
        rw [List.mem_singleton.mp member]
        exact single
      · simp [ofDigits]
    · have positive : 0 < n := by omega
      have last : n % radix < radix := Nat.mod_lt n (by omega)
      obtain ⟨run, spelled, _, bounded, value⟩ := ih (n / radix) (Nat.div_lt_self positive large)
      refine ⟨run ++ [n % radix], ?_, by simp, ?_, ?_⟩
      · rw [digits, Nat.toDigits_eq_if large, if_neg single, List.map_append, ← spelled]
        rfl
      · intro d member
        rcases List.mem_append.mp member with earlier | final
        · exact bounded d earlier
        · rw [List.mem_singleton.mp final]
          exact last
      · rw [ofDigits_append_singleton, value, Nat.mul_comm, Nat.div_add_mod]

theorem denotes_map {character : Nat → Char} {run : List Nat} (nonempty : run ≠ [])
    (digit : ∀ d ∈ run, digit? radix (character d) = some d) :
    Denotes radix (run.map character) (ofDigits radix run) := by
  have whole : leadingDigits radix (run.map character) = run := by
    clear nonempty
    induction run with
    | nil => rfl
    | cons d rest ih =>
      rw [List.map_cons, leadingDigits, digit d List.mem_cons_self]
      dsimp only
      rw [ih fun other member => digit other (List.mem_cons_of_mem d member)]
  constructor
  · rw [whole]
    exact nonempty
  · rw [whole]

theorem hexDigit?_digitChar {d : Nat} (small : d < 16) :
    hexDigit? d.digitChar = some d ∧ hexDigit? d.digitChar.toUpper = some d := by
  interval_cases d <;> decide

theorem range_of_hexDigit? {c : Char} {d : Nat} (found : hexDigit? c = some d) :
    0x30 ≤ c.toNat ∧ c.toNat ≤ 0x66 := by
  unfold hexDigit? at found
  simp only [Char.le_def, UInt32.le_iff_toNat_le] at found
  change (if 0x30 ≤ c.toNat ∧ c.toNat ≤ 0x39 then _ else if 0x61 ≤ c.toNat ∧ c.toNat ≤ 0x66 then _
    else if 0x41 ≤ c.toNat ∧ c.toNat ≤ 0x46 then _ else _) = _ at found
  split at found
  · omega
  split at found
  · omega
  split at found
  · omega
  · cases found

theorem digitChar_of_hexDigit? {c : Char} {d : Nat} (found : hexDigit? c = some d) :
    d < 16 ∧ (c = d.digitChar ∨ c = d.digitChar.toUpper) := by
  have table : ∀ n < 0x67, ∀ d ∈ hexDigit? (Char.ofNat n), d < 16 ∧
      (Char.ofNat n = d.digitChar ∨ Char.ofNat n = d.digitChar.toUpper) := by decide
  have below : c.toNat < 0x67 := Nat.lt_succ_of_le (range_of_hexDigit? found).2
  have inside := table c.toNat below d
  rw [c.ofNat_toNat] at inside
  exact inside found

theorem digit?_of_hexDigit? {c : Char} {d : Nat} (value : hexDigit? c = some d)
    (below : d < radix) : digit? radix c = some d := by
  rw [digit?, value]
  simp [below]

theorem isAlphanum_digitChar {d : Nat} (small : d < 16) :
    d.digitChar.isAlphanum = true ∧ d.digitChar.toUpper.isAlphanum = true := by
  interval_cases d <;> decide

theorem isAlphanum_of_mem_digits (large : 1 < radix) (small : radix ≤ 16) {n : Nat} {c : Char}
    (member : c ∈ digits radix n) : c.isAlphanum = true ∧ c.toUpper.isAlphanum = true := by
  obtain ⟨run, spelled, _, bounded, _⟩ := exists_run large n
  rw [spelled] at member
  obtain ⟨d, inside, rfl⟩ := List.mem_map.mp member
  have below := bounded d inside
  exact isAlphanum_digitChar (by omega)

theorem isAlphanum_of_mem_upperHex {length n : Nat} {c : Char} (member : c ∈ upperHex length n) :
    c.isAlphanum = true := by
  rcases List.mem_append.mp member with zero | inside
  · rw [(List.mem_replicate.mp zero).2]
    decide
  · obtain ⟨digit, written, rfl⟩ := List.mem_map.mp inside
    exact (isAlphanum_of_mem_digits (by decide) (by decide) written).2

theorem denotes_digits (large : 1 < radix) (small : radix ≤ 16) (n : Nat) :
    Denotes radix (digits radix n) n := by
  obtain ⟨run, spelled, nonempty, bounded, value⟩ := exists_run large n
  have denoted : Denotes radix (run.map Nat.digitChar) (ofDigits radix run) := by
    apply denotes_map nonempty
    intro d member
    have below := bounded d member
    exact digit?_of_hexDigit? (hexDigit?_digitChar (by omega)).1 below
  rw [spelled]
  exact value ▸ denoted

theorem denotes_upperHex (length n : Nat) : Denotes 16 (upperHex length n) n := by
  obtain ⟨run, spelled, nonempty, bounded, value⟩ := exists_run (show 1 < 16 by decide) n
  let padded := List.replicate (length - run.length) 0 ++ run
  have text : upperHex length n = padded.map fun d => d.digitChar.toUpper := by
    rw [upperHex, zeroPadded, spelled, List.map_map, List.length_map, List.map_append,
      List.map_replicate]
    rfl
  have denoted : Denotes 16 (padded.map fun d => d.digitChar.toUpper) (ofDigits 16 padded) := by
    apply denotes_map
    · exact List.append_ne_nil_of_right_ne_nil _ nonempty
    intro d member
    have below : d < 16 := by
      rcases List.mem_append.mp member with zero | inside
      · rw [(List.mem_replicate.mp zero).2]
        decide
      · exact bounded d inside
    exact digit?_of_hexDigit? (hexDigit?_digitChar below).2 below
  rw [ofDigits_replicate_zero_append, value] at denoted
  rw [text]
  exact denoted

end ConfigTree.Number
