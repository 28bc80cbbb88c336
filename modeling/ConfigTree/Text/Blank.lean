/-!
Three sets of blank characters, from the widest to the narrowest. Text values are trimmed by the
Unicode property White_Space, numerals skip the blanks of ASCII, and the lines of a document know
only the space, the tab and the carriage return.
-/

namespace ConfigTree.Text

def isWhite (c : Char) : Bool :=
  let n := c.toNat
  (9 ≤ n && n ≤ 13) || n == 0x20 || n == 0x85 || n == 0xA0 || n == 0x1680 ||
    (0x2000 ≤ n && n ≤ 0x200A) || n == 0x2028 || n == 0x2029 || n == 0x202F || n == 0x205F ||
    n == 0x3000

def isAsciiBlank (c : Char) : Bool :=
  (9 ≤ c.toNat && c.toNat ≤ 13) || c.toNat == 0x20

def isLineBlank (b : UInt8) : Bool :=
  b == 0x20 || b == 0x09 || b == 0x0D

def trimStart (text : List Char) : List Char :=
  text.dropWhile isWhite

def trimEnd (text : List Char) : List Char :=
  (text.reverse.dropWhile isWhite).reverse

def firstWord? (text : List Char) : Option (List Char) :=
  match (trimStart text).takeWhile (!isWhite ·) with
  | [] => none
  | word => some word

theorem isWhite_of_isAsciiBlank {c : Char} (blank : isAsciiBlank c = true) :
    isWhite c = true := by
  simp only [isAsciiBlank, isWhite, Bool.or_eq_true, Bool.and_eq_true, decide_eq_true_eq,
    beq_iff_eq] at blank ⊢
  omega

end ConfigTree.Text
