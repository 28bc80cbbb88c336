import ConfigTree.Address
import ConfigTree.Proofs.Number.Numerals

/-!
Addresses are read back from their dotted notation (`Address.read?_text`).
-/

namespace ConfigTree.Address
open Number

theorem readOctet?_digits (octet : UInt8) :
    readOctet? (digits 10 octet.toNat) = some octet := by
  have small := octet.toNat_lt
  have length : (digits 10 octet.toNat).length ≤ 3 :=
    (Nat.length_toDigits_le_iff (by decide) (by decide)).mpr (by omega)
  have decimal : (digits 10 octet.toNat).all Char.isDigit = true :=
    List.all_eq_true.mpr fun _ member => isDigit_of_mem_digits member
  have leading (zero : (digits 10 octet.toNat).head? = some '0') :
      (digits 10 octet.toNat).length = 1 := by
    rw [eq_zero_of_head?_digits zero]
    rfl
  have value := (denotes_digits (by decide) (by decide) octet.toNat : Denotes 10 _ _).value
  rw [readOctet?]
  simp only [value]
  rw [if_pos ⟨⟨Nat.toDigits_ne_nil, length, decimal, leading⟩, by omega⟩, UInt8.ofNat_toNat]

theorem not_mem_digits {n : Nat} {c : Char} (other : c.isDigit = false) :
    c ∉ digits 10 n := by
  intro member
  rw [isDigit_of_mem_digits member] at other
  cases other

theorem splitOn_text (address : Address) :
    address.text.splitOn '.' = address.octets.map fun octet => digits 10 octet.toNat := by
  rw [text]
  apply List.splitOn_intercalate
  · intro part member
    obtain ⟨octet, -, rfl⟩ := List.mem_map.mp member
    exact not_mem_digits (by decide)
  · simp [octets]

/-- An address is read back from its dotted notation. -/
theorem read?_text (address : Address) : read? address.text = some address := by
  rw [read?, splitOn_text]
  simp only [octets, List.map_cons, List.map_nil, readOctet?_digits]
  rfl

theorem text_ne_nil (address : Address) : address.text ≠ [] := by
  intro empty
  have parts := congrArg List.length (splitOn_text address)
  rw [empty, List.length_map] at parts
  cases parts

theorem mem_text {address : Address} {c : Char} (member : c ∈ address.text) :
    c.isDigit = true ∨ c = '.' := by
  simp only [text, octets, List.map_cons, List.map_nil, List.intercalate, List.intersperse,
    List.flatten_cons, List.flatten_nil, List.mem_append, List.mem_singleton, List.not_mem_nil,
    or_false] at member
  rcases member with first | point | second | point | third | point | fourth
  · exact Or.inl (isDigit_of_mem_digits first)
  · exact Or.inr point
  · exact Or.inl (isDigit_of_mem_digits second)
  · exact Or.inr point
  · exact Or.inl (isDigit_of_mem_digits third)
  · exact Or.inr point
  · exact Or.inl (isDigit_of_mem_digits fourth)

end ConfigTree.Address
