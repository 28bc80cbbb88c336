import ConfigTree.Number.Digits
import ConfigTree.Text.Blank

/-!
Integers at the start of a text: leading ASCII blanks, at most one sign, an optional radix mark,
and then the maximal run of digits. Whatever follows the run is ignored. The run may be of any
length, but its number is gathered in a word of 64 bits, and it is kept in mind whether the word was
exceeded on the way. The two readings of a numeral say what such a numeral is then.
-/

namespace ConfigTree.Number

/-- How the radix of a numeral is found: from its first characters, or always sixteen. -/
inductive Base where
  | inferred
  | hexadecimal
  deriving DecidableEq, Repr

/-- The magnitude of the digits that were read so far. The word is their number until it is
exceeded for the first time; what is pushed later still changes it, but not the mark. -/
structure Magnitude where
  word : BitVec 64 := 0
  exceeded : Bool := false
  deriving DecidableEq, Repr

namespace Magnitude

def product? (x y : BitVec 64) : Option (BitVec 64) :=
  if x.umulOverflow y then none else some (x * y)

def sum? (x y : BitVec 64) : Option (BitVec 64) :=
  if x.uaddOverflow y then none else some (x + y)

/-- Sets a digit behind those that were read. A digit that the word has no room for leaves only the
mark. -/
def push (radix : Nat) (sofar : Magnitude) (d : Nat) : Magnitude :=
  match (product? sofar.word (.ofNat 64 radix)).bind (sum? · (.ofNat 64 d)) with
  | some word => { sofar with word }
  | none => { sofar with exceeded := true }

def gather (radix : Nat) (run : List Nat) : Magnitude :=
  run.foldl (push radix) {}

end Magnitude

structure Numeral where
  negative : Bool
  magnitude : Magnitude
  deriving DecidableEq, Repr

/-- The text after a mark `0x` or `0X`, which is a mark only in front of a hexadecimal digit. -/
def afterHexMark? : List Char → Option (List Char)
  | '0' :: mark :: first :: rest =>
    if (mark = 'x' ∨ mark = 'X') ∧ (digit? 16 first).isSome then some (first :: rest) else none
  | _ => none

def Base.radix (base : Base) (text : List Char) : Nat × List Char :=
  match afterHexMark? text, base with
  | some rest, _ => (16, rest)
  | none, .hexadecimal => (16, text)
  | none, .inferred => (if text.head? = some '0' then 8 else 10, text)

def takeSign : List Char → Bool × List Char
  | '-' :: rest => (true, rest)
  | '+' :: rest => (false, rest)
  | text => (false, text)

namespace Numeral

def read? (base : Base) (text : List Char) : Option Numeral :=
  let (negative, unsigned) := takeSign (text.dropWhile Text.isAsciiBlank)
  let (radix, body) := base.radix unsigned
  match leadingDigits radix body with
  | [] => none
  | run => some ⟨negative, .gather radix run⟩

/-- The signed reading stops at the two ends of the range of signed words. -/
def toSigned (numeral : Numeral) : BitVec 64 :=
  let magnitude := numeral.magnitude
  let limit := if numeral.negative then BitVec.intMin 64 else BitVec.intMax 64
  if magnitude.exceeded ∨ limit < magnitude.word then limit
  else if numeral.negative then -magnitude.word
  else magnitude.word

/-- The unsigned reading stops at the greatest word, but a magnitude that is a word is negated
behind a minus, which leaves the range at its other end. -/
def toUnsigned (numeral : Numeral) : BitVec 64 :=
  let magnitude := numeral.magnitude
  if magnitude.exceeded then BitVec.allOnes 64
  else if numeral.negative then -magnitude.word
  else magnitude.word

end Numeral

end ConfigTree.Number
