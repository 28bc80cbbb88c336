import ConfigTree.Address
import ConfigTree.Kind
import ConfigTree.Number.Binary64

/-!
Values: what a bound leaf holds. Integers are words of their declared width, floats are kept bit
for bit. `Kind.holds` says which values belong to which kind.
-/

namespace ConfigTree

inductive Value where
  | pointer (location : BitVec 64)
  | signed (width : Width) (word : BitVec width.bits)
  | unsigned (width : Width) (word : BitVec width.bits)
  | float (number : Number.Binary64)
  | boolean (flag : Bool)
  | char (c : Char)
  | string (text : String)
  | address (quad : Address)
  deriving DecidableEq, Repr

namespace Value

def label : Value → String
  | pointer _ => "Pointer"
  | signed width _ => s!"I{width.bits}"
  | unsigned width _ => s!"U{width.bits}"
  | float _ => "F64"
  | boolean _ => "Bool"
  | char _ => "Char"
  | string _ => "Str"
  | address _ => "Ipv4"

def toSigned? : Value → Option Int
  | signed _ word => some word.toInt
  | _ => none

def toUnsigned? : Value → Option Nat
  | pointer location => some location.toNat
  | unsigned _ word => some word.toNat
  | _ => none

def toFloat? : Value → Option Number.Binary64
  | float number => some number
  | _ => none

def toBool? : Value → Option Bool
  | boolean flag => some flag
  | _ => none

def toChar? : Value → Option Char
  | char c => some c
  | _ => none

def toText? : Value → Option String
  | string text => some text
  | _ => none

def toAddress? : Value → Option Address
  | address quad => some quad
  | _ => none

/-- Equality of values as data: floats are compared as numbers, so a NaN agrees with nothing and
the two zeros agree. -/
def agree : Value → Value → Bool
  | float x, float y => x.agree y
  | x, y => x == y

end Value

def Kind.holds : Kind → Value → Bool
  | .void, .pointer _ => true
  | .signed width, .signed actual _ => width == actual
  | .unsigned width, .unsigned actual _ => width == actual
  | .hexadecimal width, .unsigned actual _ => width == actual
  | .float, .float _ => true
  | .string, .string _ => true
  | .boolean, .boolean _ => true
  | .char, .char _ => true
  | .address, .address _ => true
  | _, _ => false

def Value.holders (value : Value) : List Kind :=
  Kind.all.filter (·.holds value)

theorem Kind.hasCodec_of_holds {kind : Kind} {value : Value} (held : kind.holds value = true) :
    kind.hasCodec = true := by
  cases kind <;> first | rfl | simp [Kind.holds] at held

end ConfigTree
