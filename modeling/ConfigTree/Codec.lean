import ConfigTree.Fault
import ConfigTree.Number.Decimal
import ConfigTree.Number.Numeral
import ConfigTree.Value

/-!
The text form of each kind. `Kind.encode` writes the canonical text of a value, and `Kind.decode`
reads a text leniently: blanks before a value are skipped, and except for unquoted strings whatever
follows it is ignored.
-/

namespace ConfigTree

/-- Text written for a leaf without a value, or with a value that has no text. -/
def nullText : String := "NULL"

namespace Codec

/-- Words that read as true and as false, tried in this order and without regard to the case of
ASCII letters. -/
def trueWords : List String := ["TRUE", "YES", "ON", "1"]

def falseWords : List String := ["FALSE", "NO", "OFF", "0"]

def beginsWith (text : List Char) (word : String) : Bool :=
  (text.take word.length).map Char.toUpper == word.toList

def readFlag? (text : List Char) : Option Bool :=
  let body := Text.trimStart text
  if trueWords.any (beginsWith body) then some true
  else if falseWords.any (beginsWith body) then some false
  else none

def before (mark : Char) (text : List Char) : List Char :=
  if mark ∈ text then text.takeWhile (· ≠ mark) else []

/-- The body of a string: what stands between two equal quotes, or else the trimmed text. A quote
that is never closed leaves nothing. -/
def unquote (text : List Char) : List Char :=
  match Text.trimStart text with
  | '"' :: rest => before '"' rest
  | '\'' :: rest => before '\'' rest
  | body => Text.trimEnd body

def bounded (maxLength : Nat) (text : List Char) : List Char :=
  if maxLength = 0 then text else text.take maxLength

def decimal (n : Int) : List Char :=
  if n < 0 then '-' :: Number.digits 10 n.natAbs else Number.digits 10 n.natAbs

def hexMark : List Char := ['0', 'x']

end Codec

namespace Kind

def write? : Kind → Value → Option (List Char)
  | void, .pointer location =>
    if location = 0 then none else some (Codec.hexMark ++ Number.digits 16 location.toNat)
  | signed width, .signed actual word =>
    if width = actual then some (Codec.decimal word.toInt) else none
  | unsigned width, .unsigned actual word =>
    if width = actual then some (Number.digits 10 word.toNat) else none
  | hexadecimal width, .unsigned actual word =>
    if width = actual then
      some (Codec.hexMark ++ Number.upperHex (width.bits / 4) word.toNat)
    else none
  | float, .float number => some (number.toFixed 6)
  | string, .string text => some ('"' :: (text.toList ++ ['"']))
  | boolean, .boolean flag => some (if flag then "True".toList else "False".toList)
  | char, .char c => some [c]
  | address, .address quad => some quad.text
  | _, _ => none

/-- The value that a text denotes under a kind, if there is one. Integers are read in 64 bits and
cut to the width of the kind. -/
def read? (kind : Kind) (maxLength : Nat) (text : List Char) : Option Value :=
  match kind with
  | void => (Number.Numeral.read? .hexadecimal text).map fun n => .pointer n.toUnsigned
  | signed width =>
    (Number.Numeral.read? .inferred text).map fun n =>
      .signed width (n.toSigned.setWidth width.bits)
  | unsigned width =>
    (Number.Numeral.read? .inferred text).map fun n =>
      .unsigned width (n.toUnsigned.setWidth width.bits)
  | hexadecimal width =>
    (Number.Numeral.read? .hexadecimal text).map fun n =>
      .unsigned width (n.toUnsigned.setWidth width.bits)
  | float => (Number.Binary64.read? text).map .float
  | string => some (.string (String.ofList (Codec.bounded maxLength (Codec.unquote text))))
  | boolean => (Codec.readFlag? text).map .boolean
  | char => (Text.trimStart text).head?.map .char
  | address => ((Text.firstWord? text).bind Address.read?).map .address
  | subsection | binary _ | octal _ | rgb | rgbi | cymk | ratio => none

def encode (kind : Kind) (value : Value) : Option String :=
  (kind.write? value).map String.ofList

/-- Reads a text as a value of a kind. The bound on the length counts characters and concerns
strings only; zero sets no bound. -/
def decode (kind : Kind) (maxLength : Nat) (text : String) : Except Fault Value :=
  if kind.hasCodec then
    match kind.read? maxLength text.toList with
    | some value => .ok value
    | none => .error (.undecodable kind text)
  else .error (.unsupported kind)

theorem holds_of_write? {kind : Kind} {value : Value} {text : List Char}
    (written : kind.write? value = some text) : kind.holds value = true := by
  cases kind <;> cases value <;> simp_all [write?, holds]

theorem holds_of_read? {kind : Kind} {maxLength : Nat} {text : List Char} {value : Value}
    (found : kind.read? maxLength text = some value) : kind.holds value = true := by
  cases kind <;> simp only [read?, Option.map_eq_some_iff, Option.some.injEq, reduceCtorEq] at found
  case string => subst found; rfl
  all_goals
    obtain ⟨_, _, rfl⟩ := found
    simp [holds]

theorem holds_of_decode {kind : Kind} {maxLength : Nat} {text : String} {value : Value}
    (decoded : kind.decode maxLength text = .ok value) : kind.holds value = true := by
  unfold decode at decoded
  split at decoded
  · split at decoded
    · next found =>
      rw [Except.ok.injEq] at decoded
      exact holds_of_read? (decoded ▸ found)
    · cases decoded
  · cases decoded

end Kind

end ConfigTree
