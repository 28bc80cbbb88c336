import ConfigTree.Number.Digits

/-!
Addresses of the Internet Protocol, version four, in dotted decimal notation. An octet has no
leading zeros, so every address has one written form.
-/

namespace ConfigTree

structure Address where
  first : UInt8
  second : UInt8
  third : UInt8
  fourth : UInt8
  deriving DecidableEq, Repr

namespace Address

def octets (address : Address) : List UInt8 :=
  [address.first, address.second, address.third, address.fourth]

def text (address : Address) : List Char :=
  ['.'].intercalate (address.octets.map fun octet => Number.digits 10 octet.toNat)

/-- Reads an octet: one to three decimal digits, no leading zero before another digit, and a value
of at most 255. -/
def readOctet? (text : List Char) : Option UInt8 :=
  let value := Number.ofDigits 10 (Number.leadingDigits 10 text)
  let wellFormed := text ≠ [] ∧ text.length ≤ 3 ∧ text.all Char.isDigit ∧
    (text.head? = some '0' → text.length = 1)
  if wellFormed ∧ value ≤ 255 then some (UInt8.ofNat value) else none

def read? (text : List Char) : Option Address :=
  match text.splitOn '.' with
  | [a, b, c, d] => do
    return ⟨← readOctet? a, ← readOctet? b, ← readOctet? c, ← readOctet? d⟩
  | _ => none

end Address

end ConfigTree
