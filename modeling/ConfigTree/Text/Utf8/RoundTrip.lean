import ConfigTree.Text.Utf8

/-!
What was written is read back. A character that was written is read first whatever octets follow it
(`decode_encodeChar_append`), so lenient reading loses nothing of a text (`decode_encode`).
-/

namespace ConfigTree.Text.Utf8

theorem toNat_continuation (n : Nat) : (continuation n).toNat = 0x80 + n % 64 :=
  UInt8.toNat_ofNat_of_lt' (show _ < 256 by omega)

theorem decodeFrom_cons (state : Option Pending) (b : UInt8) (rest : List UInt8) :
    decodeFrom state (b :: rest) = (step state b).1 ++ decodeFrom (step state b).2 rest := by
  cases state <;> rfl

theorem decodeFrom_continuation {pending : Pending} {n : Nat} (rest : List UInt8)
    (low : pending.low.toNat ≤ 0x80 + n % 64) (high : 0x80 + n % 64 ≤ pending.high.toNat) :
    decodeFrom (some pending) (continuation n :: rest) =
      match pending.owed with
      | 0 => Char.ofNat (pending.bits * 64 + n % 64) :: decodeFrom none rest
      | owed + 1 =>
        decodeFrom (some ⟨owed, 0x80, 0xBF, pending.bits * 64 + n % 64⟩) rest := by
  have value := toNat_continuation n
  have within : pending.low ≤ continuation n ∧ continuation n ≤ pending.high := by
    rw [UInt8.le_iff_toNat_le, UInt8.le_iff_toNat_le, value]
    exact ⟨low, high⟩
  have bits : pending.extend (continuation n) = pending.bits * 64 + n % 64 := by
    rw [Pending.extend, value]
    omega
  obtain ⟨owed, first, last, sofar⟩ := pending
  rw [decodeFrom_cons]
  simp only [step, if_pos within, Pending.next, bits]
  cases owed <;> simp [step.settle]

theorem lead_of_lt_two {n : Nat} (low : 0xC2 ≤ n) (high : n < 0xE0) :
    lead (UInt8.ofNat n) = .begins ⟨0, 0x80, 0xBF, n % 32⟩ := by
  have value := UInt8.toNat_ofNat_of_lt' (show n < 256 by omega)
  simp only [lead, UInt8.lt_iff_toNat_lt, value]
  simp [show ¬ n < 128 by omega, show ¬ n < 194 by omega, high]

theorem lead_of_lt_three {n : Nat} (low : 0xE0 ≤ n) (high : n < 0xF0) :
    lead (UInt8.ofNat n) =
      .begins ⟨1, if n = 0xE0 then 0xA0 else 0x80, if n = 0xED then 0x9F else 0xBF, n % 16⟩ := by
  have value := UInt8.toNat_ofNat_of_lt' (show n < 256 by omega)
  simp only [lead, UInt8.lt_iff_toNat_lt, ← UInt8.toNat_inj, value]
  simp [show ¬ n < 128 by omega, show ¬ n < 194 by omega, show ¬ n < 224 by omega, high]

theorem lead_of_lt_four {n : Nat} (low : 0xF0 ≤ n) (high : n < 0xF5) :
    lead (UInt8.ofNat n) =
      .begins ⟨2, if n = 0xF0 then 0x90 else 0x80, if n = 0xF4 then 0x8F else 0xBF, n % 8⟩ := by
  have value := UInt8.toNat_ofNat_of_lt' (show n < 256 by omega)
  simp only [lead, UInt8.lt_iff_toNat_lt, ← UInt8.toNat_inj, value]
  simp [show ¬ n < 128 by omega, show ¬ n < 194 by omega, show ¬ n < 224 by omega,
    show ¬ n < 240 by omega, high]

theorem decode_of_begins {b : UInt8} {pending : Pending} (begins : lead b = .begins pending)
    (rest : List UInt8) : decode (b :: rest) = decodeFrom (some pending) rest := by
  simp [decode, decodeFrom_cons, step, begins, step.settle]

theorem decode_encodeChar_append (c : Char) (rest : List UInt8) :
    decode (encodeChar c ++ rest) = c :: decode rest := by
  have scalar : c.toNat < 0xD800 ∨ 0xDFFF < c.toNat ∧ c.toNat < 0x110000 := c.valid
  have again : Char.ofNat c.toNat = c := Char.ofNat_toNat c
  -- By the number of octets. That the character is no surrogate bounds the second octet of three,
  -- and that it is not overlong bounds those of three and four.
  unfold encodeChar
  generalize c.toNat = n at scalar again ⊢
  simp only
  split
  · next one =>
    have value := UInt8.toNat_ofNat_of_lt' (show n < 256 by omega)
    have ascii : UInt8.ofNat n < 0x80 := by
      rw [UInt8.lt_iff_toNat_lt, value]
      exact one
    rw [List.cons_append, List.nil_append, decode_cons_of_ascii ascii, value, again]
  split
  · next two =>
    rw [List.cons_append, decode_of_begins (lead_of_lt_two (by omega) (by omega)),
      List.cons_append, decodeFrom_continuation _ (by simp) (by simp; omega)]
    have value : (0xC0 + n / 64) % 32 * 64 + n % 64 = n := by omega
    simp only [value, again, List.nil_append, decode]
  split
  · next three =>
    have low : (if 0xE0 + n / 4096 = 0xE0 then (0xA0 : UInt8) else 0x80).toNat ≤
        0x80 + n / 64 % 64 := by
      split
      · simp; omega
      · simp
    have high : 0x80 + n / 64 % 64 ≤
        (if 0xE0 + n / 4096 = 0xED then (0x9F : UInt8) else 0xBF).toNat := by
      split <;> simp <;> omega
    rw [List.cons_append, decode_of_begins (lead_of_lt_three (by omega) (by omega)),
      List.cons_append, decodeFrom_continuation _ low high, List.cons_append]
    simp only
    rw [decodeFrom_continuation _ (by simp) (by simp; omega)]
    have value : ((0xE0 + n / 4096) % 16 * 64 + n / 64 % 64) * 64 + n % 64 = n := by omega
    simp only [value, again, List.nil_append, decode]
  · next four =>
    have low : (if 0xF0 + n / 262144 = 0xF0 then (0x90 : UInt8) else 0x80).toNat ≤
        0x80 + n / 4096 % 64 := by
      split
      · simp; omega
      · simp
    have high : 0x80 + n / 4096 % 64 ≤
        (if 0xF0 + n / 262144 = 0xF4 then (0x8F : UInt8) else 0xBF).toNat := by
      split <;> simp <;> omega
    rw [List.cons_append, decode_of_begins (lead_of_lt_four (by omega) (by omega)),
      List.cons_append, decodeFrom_continuation _ low high, List.cons_append]
    simp only
    rw [decodeFrom_continuation _ (by simp) (by simp; omega), List.cons_append]
    simp only
    rw [decodeFrom_continuation _ (by simp) (by simp; omega)]
    have value : (((0xF0 + n / 262144) % 8 * 64 + n / 4096 % 64) * 64 + n / 64 % 64) * 64 + n % 64
        = n := by omega
    simp only [value, again, List.nil_append, decode]

theorem decode_encode (text : List Char) : decode (encode text) = text := by
  induction text with
  | nil => rfl
  | cons c rest ih => rw [encode_cons, decode_encodeChar_append, ih]

end ConfigTree.Text.Utf8
