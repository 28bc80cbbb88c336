import ConfigTree.Number.Binary64
import ConfigTree.Text.Blank

/-!
Numbers as texts. A decimal is an optional sign, digits with at most one point among or around
them, and an optional exponent, and its value is the nearest number of the binary format; three
words stand for what is not finite. A text is converted as a whole. Where a number stands at the
start of a text, the longest beginning that can be converted is read.
-/

namespace ConfigTree.Number

structure Exponent where
  mark : Char
  sign : List Char
  digits : List Char
  deriving DecidableEq, Repr

/-- A decimal as it is written; without a point there is no fraction, which is not the same as an
empty one. -/
structure Decimal where
  sign : List Char
  whole : List Char
  fraction : Option (List Char)
  exponent : Option Exponent
  deriving DecidableEq, Repr

def splitSign : List Char → List Char × List Char
  | '-' :: rest => (['-'], rest)
  | '+' :: rest => (['+'], rest)
  | text => ([], text)

def signedOfDigits (sign : List Char) (ds : List Char) : Int :=
  let magnitude : Int := ofDigits 10 (leadingDigits 10 ds)
  if sign = ['-'] then -magnitude else magnitude

namespace Exponent

def ofText? : List Char → Option Exponent
  | mark :: rest =>
    let (sign, run) := splitSign rest
    if (mark = 'e' ∨ mark = 'E') ∧ run ≠ [] ∧ run.all Char.isDigit then some ⟨mark, sign, run⟩
    else none
  | [] => none

def value (exponent : Exponent) : Int :=
  signedOfDigits exponent.sign exponent.digits

end Exponent

namespace Decimal

def splitFraction : List Char → Option (List Char) × List Char
  | '.' :: rest => (some (rest.takeWhile Char.isDigit), rest.dropWhile Char.isDigit)
  | text => (none, text)

/-- Converts a decimal, behind which nothing may follow; one without a digit before its exponent is
none. -/
def ofText? (text : List Char) : Option Decimal :=
  let (sign, unsigned) := splitSign text
  let whole := unsigned.takeWhile Char.isDigit
  let (fraction, rest) := splitFraction (unsigned.dropWhile Char.isDigit)
  if whole = [] ∧ fraction.getD [] = [] then none
  else if rest = [] then some ⟨sign, whole, fraction, none⟩
  else (Exponent.ofText? rest).map fun exponent => ⟨sign, whole, fraction, some exponent⟩

def isPart (c : Char) : Bool :=
  c.isDigit || c == '+' || c == '-' || c == '.' || c == 'e' || c == 'E'

def coefficient (decimal : Decimal) : Nat :=
  ofDigits 10 (leadingDigits 10 (decimal.whole ++ decimal.fraction.getD []))

def scale (decimal : Decimal) : Int :=
  (decimal.exponent.map Exponent.value).getD 0 - (decimal.fraction.getD []).length

/-- The nearest binary number. Beyond 10^310 every decimal is infinite and below 10^-330 every
decimal is zero, so no power of ten of more than some hundred digits is ever formed for a short
coefficient. -/
def toBinary64 (decimal : Decimal) : Binary64 :=
  let negative := decimal.sign == ['-']
  let n := decimal.coefficient
  let power := decimal.scale
  let leading : Int := (digits 10 n).length + power
  if n = 0 ∨ leading < -330 then .ofMagnitude negative 0
  else if 310 < leading then .ofMagnitude negative Binary64.infinite
  else if 0 ≤ power then .ofRatio negative (n * Nat.pow 10 power.toNat) 1
  else .ofRatio negative n (Nat.pow 10 (-power).toNat)

end Decimal

namespace Binary64

def notANumber : Nat :=
  infinite + fractionCount / 2

def ofWord? (word : List Char) : Option Nat :=
  let lower := word.map Char.toLower
  if lower = "inf".toList ∨ lower = "infinity".toList then some infinite
  else if lower = "nan".toList then some notANumber
  else none

def ofText? (text : List Char) : Option Binary64 :=
  match Decimal.ofText? text with
  | some decimal => some decimal.toBinary64
  | none =>
    let (sign, word) := splitSign text
    (ofWord? word).map (ofMagnitude (sign == ['-']))

/-- Reads the number that a text begins with, after its blanks. The characters of decimals that come
first are cut at every length, the greatest first, until a cut can be converted. -/
def read? (text : List Char) : Option Binary64 :=
  let run := (text.dropWhile Text.isAsciiBlank).takeWhile Decimal.isPart
  (List.range' 1 run.length).reverse.findSome? fun length => ofText? (run.take length)

end Binary64

end ConfigTree.Number
