import ConfigTree.Number.Digits

/-!
Reports as JSON. The printed form has one item on a line, two blanks of indentation for each level,
and escapes only where the format demands them.
-/

namespace ConfigTree.Command

inductive Json where
  | null
  | boolean (flag : Bool)
  | number (n : Nat)
  | string (text : String)
  | array (items : List Json)
  | object (fields : List (String × Json))

namespace Json

def escape (c : Char) : List Char :=
  if c = '"' then ['\\', '"']
  else if c = '\\' then ['\\', '\\']
  else if c = '\n' then ['\\', 'n']
  else if c = '\r' then ['\\', 'r']
  else if c = '\t' then ['\\', 't']
  else if c = '\x08' then ['\\', 'b']
  else if c = '\x0c' then ['\\', 'f']
  else if c.toNat < 0x20 then
    ['\\', 'u'] ++ Number.zeroPadded 4 (Number.digits 16 c.toNat)
  else [c]

def quote (text : String) : List Char :=
  '"' :: (text.toList.flatMap escape ++ ['"'])

def newLine (depth : Nat) : List Char :=
  '\n' :: List.replicate (2 * depth) ' '

mutual

def pretty (depth : Nat) : Json → List Char
  | null => "null".toList
  | boolean flag => if flag then "true".toList else "false".toList
  | number n => Number.digits 10 n
  | string text => quote text
  | array [] => ['[', ']']
  | array (first :: rest) =>
    ['['] ++ newLine (depth + 1) ++ first.pretty (depth + 1) ++ prettyItems (depth + 1) rest ++
      newLine depth ++ [']']
  | object [] => ['\x7b', '\x7d']
  | object ((name, value) :: rest) =>
    ['\x7b'] ++ newLine (depth + 1) ++ quote name ++ [':', ' '] ++ value.pretty (depth + 1) ++
      prettyFields (depth + 1) rest ++ newLine depth ++ ['\x7d']

def prettyItems (depth : Nat) : List Json → List Char
  | [] => []
  | item :: rest => [','] ++ newLine depth ++ item.pretty depth ++ prettyItems depth rest

def prettyFields (depth : Nat) : List (String × Json) → List Char
  | [] => []
  | (name, value) :: rest =>
    [','] ++ newLine depth ++ quote name ++ [':', ' '] ++ value.pretty depth ++
      prettyFields depth rest

end

end Json

end ConfigTree.Command
