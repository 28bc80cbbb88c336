/-!
The registry of kinds: what a leaf may be declared to hold. Every kind has a name and a tag, the
tag being its place in the registry. Some kinds are reserved: they are registered, and no value is
ever written or read for them.
-/

namespace ConfigTree

inductive Width where
  | w8
  | w16
  | w32
  | w64
  deriving DecidableEq, Repr

def Width.bits : Width → Nat
  | .w8 => 8
  | .w16 => 16
  | .w32 => 32
  | .w64 => 64

/-- What an entry is declared to hold. A hexadecimal kind holds an unsigned number and writes it
in base sixteen; a subsection holds a whole section and has no text of its own. -/
inductive Kind where
  | void
  | subsection
  | signed (width : Width)
  | unsigned (width : Width)
  | hexadecimal (width : Width)
  | binary (width : Width)
  | octal (width : Width)
  | float
  | string
  | boolean
  | char
  | address
  | rgb
  | rgbi
  | cymk
  | ratio
  deriving DecidableEq, Repr

namespace Kind

def all : List Kind := [
  void, subsection, signed .w32, unsigned .w32, float, string, boolean, char,
  signed .w8, unsigned .w8, hexadecimal .w8, binary .w8, octal .w8,
  signed .w16, unsigned .w16, hexadecimal .w16, binary .w16, octal .w16,
  hexadecimal .w32, binary .w32, octal .w32,
  signed .w64, unsigned .w64, hexadecimal .w64, binary .w64, octal .w64,
  address, rgb, rgbi, cymk, ratio]

def tag (kind : Kind) : Nat :=
  all.idxOf kind

/-- The registered name. The 32-bit integers are the plain ones. -/
def name : Kind → String
  | void => "void"
  | subsection => "section"
  | signed .w32 => "integer"
  | unsigned .w32 => "unsigned"
  | float => "float"
  | string => "string"
  | boolean => "boolean"
  | char => "char"
  | signed width => sized "int" width
  | unsigned width => sized "uint" width
  | hexadecimal width => sized "hex" width
  | binary width => sized "binary" width
  | octal width => sized "octal" width
  | address => "ipv4_address"
  | rgb => "rgb"
  | rgbi => "rgbi"
  | cymk => "cymk"
  | ratio => "ratio"
where
  /-- A family name and the width in bits. -/
  sized (family : String) : Width → String
    | .w8 => family ++ "_8"
    | .w16 => family ++ "_16"
    | .w32 => family ++ "_32"
    | .w64 => family ++ "_64"

def ofTag? (tag : Nat) : Option Kind :=
  all[tag]?

def ofName? (name : String) : Option Kind :=
  all.find? (·.name == name)

/-- Registered kinds without a text form. -/
def isReserved : Kind → Bool
  | binary _ | octal _ | rgb | rgbi | cymk | ratio => true
  | _ => false

def hasCodec (kind : Kind) : Bool :=
  !kind.isReserved && kind != subsection

theorem mem_all (kind : Kind) : kind ∈ all := by
  cases kind with
  | signed width | unsigned width | hexadecimal width | binary width | octal width =>
    cases width <;> decide
  | _ => decide

theorem nodup_all : all.Nodup := by decide

theorem names_nodup : (all.map name).Nodup := by decide

theorem ofTag?_tag (kind : Kind) : ofTag? kind.tag = some kind := by
  have inside := List.idxOf_lt_length_of_mem (mem_all kind)
  unfold ofTag? tag
  rw [List.getElem?_eq_getElem inside, List.getElem_idxOf inside]

end Kind

end ConfigTree
