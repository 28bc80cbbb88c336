import ConfigTree.Number.Digits

/-!
Binary floating point numbers of 64 bits, kept as their bits, so that every number, both zeros and
each NaN stay apart. A finite magnitude is a whole multiple of 2^-1074; `scaled` is that multiple,
and both directions of decimal conversion are exact integer arithmetic on it, rounded once, to the
nearest and from a tie to the even neighbour.
-/

namespace ConfigTree.Number

def roundHalfEven (numerator denominator : Nat) : Nat :=
  let whole := numerator / denominator
  let twice := 2 * (numerator % denominator)
  if twice < denominator then whole
  else if denominator < twice then whole + 1
  else whole + whole % 2

structure Binary64 where
  bits : BitVec 64
  deriving DecidableEq, Repr

namespace Binary64

def fractionCount : Nat := 0x10000000000000

def greatestExponent : Nat := 0x7FF

def negative (x : Binary64) : Bool :=
  x.bits.msb

def exponent (x : Binary64) : Nat :=
  x.bits.toNat / fractionCount % (greatestExponent + 1)

def fraction (x : Binary64) : Nat :=
  x.bits.toNat % fractionCount

def isNaN (x : Binary64) : Bool :=
  x.exponent == greatestExponent && x.fraction != 0

def isInfinite (x : Binary64) : Bool :=
  x.exponent == greatestExponent && x.fraction == 0

def isZero (x : Binary64) : Bool :=
  x.exponent == 0 && x.fraction == 0

/-- The finite magnitude in units of 2^-1074. -/
def scaled (x : Binary64) : Nat :=
  match x.exponent with
  | 0 => x.fraction
  | above + 1 => (fractionCount + x.fraction) <<< above

def unitsInOne : Nat := 1 <<< 1074

def ofMagnitude (negative : Bool) (magnitude : Nat) : Binary64 :=
  ⟨BitVec.ofBool negative ++ BitVec.ofNat 63 magnitude⟩

def infinite : Nat :=
  greatestExponent * fractionCount

/-- The number nearest to a quotient of natural numbers. A significand of 53 bits in units of
2^(shift - 1074) has the bits `shift * fractionCount + significand`, also where rounding carries
into the next exponent. -/
def ofRatio (negative : Bool) (numerator denominator : Nat) : Binary64 :=
  let units := numerator * unitsInOne
  let shift := Nat.log2 (units / denominator) - 52
  let significand := roundHalfEven units (denominator <<< shift)
  ofMagnitude negative (min infinite (shift * fractionCount + significand))

/-- Equality of numbers: a NaN equals nothing, and the two zeros are equal. -/
def agree (x y : Binary64) : Bool :=
  !x.isNaN && !y.isNaN && (x == y || (x.isZero && y.isZero))

def toFixed (places : Nat) (x : Binary64) : List Char :=
  if x.isNaN then "NaN".toList
  else
    let sign := if x.negative then ['-'] else []
    if x.isInfinite then sign ++ "inf".toList
    else
      let one := Nat.pow 10 places
      let units := roundHalfEven (x.scaled * one) unitsInOne
      sign ++ digits 10 (units / one) ++ '.' :: zeroPadded places (digits 10 (units % one))

end Binary64

end ConfigTree.Number
