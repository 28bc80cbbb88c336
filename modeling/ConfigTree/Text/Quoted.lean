import ConfigTree.Number.Digits
import ConfigTree.Text.Printable

/-!
A text shown inside a message. The quotation stays on one line and in printable characters: the
quotation mark and the backslash are escaped, five controls have a letter of their own, and every
other character that cannot stand for itself is written as its code point in braces.
-/

namespace ConfigTree.Text

/-- The escape of a code point: lower-case hexadecimal digits in braces, without padding. -/
def codePointEscape (c : Char) : List Char :=
  ['\\', 'u', '\x7b'] ++ Number.digits 16 c.toNat ++ ['\x7d']

def escape (c : Char) : List Char :=
  if c = '\x00' then ['\\', '0']
  else if c = '\t' then ['\\', 't']
  else if c = '\n' then ['\\', 'n']
  else if c = '\r' then ['\\', 'r']
  else if c = '"' then ['\\', '"']
  else if c = '\\' then ['\\', '\\']
  else if isPrintable c then [c]
  else codePointEscape c

def quote (text : List Char) : List Char :=
  '"' :: (text.flatMap escape ++ ['"'])

end ConfigTree.Text
