import ConfigTree.Codec

/-!
Configuration trees. A section is an ordered list of named entries, and an entry is a leaf of some
kind or a branch to a child section. Names need not be distinct: every look-up takes the first.

`Section.toList` is the view of one level. The operations of a level are list operations on it, and
the operations on all levels are recursions on the section.
-/

namespace ConfigTree

/-- A declared variable. The bound on the length is in characters and zero sets none; a leaf
without a value is unbound. -/
structure Leaf where
  name : String
  kind : Kind
  maxLength : Nat := 0
  value : Option Value := none
  deriving DecidableEq, Repr

inductive Section where
  | empty
  | leaf (item : Leaf) (rest : Section)
  | branch (name : String) (maxLength : Nat) (child : Section) (rest : Section)
  deriving DecidableEq, Repr

inductive Entry where
  | leaf (item : Leaf)
  | branch (name : String) (maxLength : Nat) (child : Section)
  deriving DecidableEq, Repr

namespace Leaf

def encode (item : Leaf) : Option String :=
  item.value.bind item.kind.encode

def text (item : Leaf) : String :=
  item.encode.getD nullText

def decode (item : Leaf) (text : String) : Except Fault Leaf :=
  (item.kind.decode item.maxLength text).map fun value => { item with value := some value }

def bind (item : Leaf) (value : Value) : Except Fault Leaf :=
  if item.kind.holds value then .ok { item with value := some value }
  else .error (.kindMismatch item.kind value.label)

def unbind (item : Leaf) : Leaf :=
  { item with value := none }

def agree (x y : Leaf) : Bool :=
  x.unbind == y.unbind &&
    match x.value, y.value with
    | none, none => true
    | some v, some w => v.agree w
    | _, _ => false

end Leaf

namespace Entry

/-- Declares an unbound leaf. A leaf of the subsection kind is an empty branch. -/
def declare (name : String) (kind : Kind) : Entry :=
  if kind = .subsection then .branch name 0 .empty else .leaf { name, kind }

def name : Entry → String
  | leaf item => item.name
  | branch name _ _ => name

def kind : Entry → Kind
  | leaf item => item.kind
  | branch _ _ _ => .subsection

def maxLength : Entry → Nat
  | leaf item => item.maxLength
  | branch _ maxLength _ => maxLength

def withMaxLength (entry : Entry) (maxLength : Nat) : Entry :=
  match entry with
  | leaf item => leaf { item with maxLength }
  | branch name _ child => branch name maxLength child

def child? : Entry → Option Section
  | leaf _ => none
  | branch _ _ child => some child

def isBranch (entry : Entry) : Bool :=
  entry.child?.isSome

def value? : Entry → Option Value
  | leaf item => item.value
  | branch _ _ _ => none

def encode : Entry → Option String
  | leaf item => item.encode
  | branch _ _ _ => none

def decode (entry : Entry) (text : String) : Except Fault Entry :=
  match entry with
  | leaf item => (item.decode text).map leaf
  | branch name _ _ => .error (.notALeaf name)

def bind (entry : Entry) (value : Value) : Except Fault Entry :=
  match entry with
  | leaf item => (item.bind value).map leaf
  | branch name _ _ => .error (.notALeaf name)

def unbind : Entry → Entry
  | leaf item => leaf item.unbind
  | entry => entry

end Entry

namespace Section

def cons : Entry → Section → Section
  | .leaf item, rest => leaf item rest
  | .branch name maxLength child, rest => branch name maxLength child rest

def toList : Section → List Entry
  | empty => []
  | leaf item rest => .leaf item :: rest.toList
  | branch name maxLength child rest => .branch name maxLength child :: rest.toList

def ofList (entries : List Entry) : Section :=
  entries.foldr cons empty

@[simp] theorem toList_cons (entry : Entry) (rest : Section) :
    (cons entry rest).toList = entry :: rest.toList := by
  cases entry <;> rfl

@[simp] theorem toList_ofList (entries : List Entry) : (ofList entries).toList = entries := by
  induction entries with
  | nil => rfl
  | cons entry rest ih =>
    show (cons entry (ofList rest)).toList = entry :: rest
    rw [toList_cons, ih]

@[simp] theorem ofList_toList (level : Section) : ofList level.toList = level := by
  induction level with
  | empty => rfl
  | leaf item rest ih =>
    show cons (.leaf item) (ofList rest.toList) = leaf item rest
    rw [ih, cons]
  | branch name maxLength child rest _ ih =>
    show cons (.branch name maxLength child) (ofList rest.toList) = _
    rw [ih, cons]

theorem toList_injective {first second : Section} (same : first.toList = second.toList) :
    first = second := by
  rw [← ofList_toList first, same, ofList_toList]

def length (level : Section) : Nat :=
  level.toList.length

def isEmpty (level : Section) : Bool :=
  level.toList.isEmpty

def names (level : Section) : List String :=
  level.toList.map Entry.name

def push (level : Section) (entry : Entry) : Section :=
  ofList (level.toList ++ [entry])

def get? (level : Section) (index : Nat) : Option Entry :=
  level.toList[index]?

def replace (level : Section) (index : Nat) (entry : Entry) : Section :=
  ofList (level.toList.set index entry)

def findIndex? (level : Section) (name : String) : Option Nat :=
  level.toList.findIdx? (·.name == name)

def find? (level : Section) (name : String) : Option Entry :=
  level.toList.find? (·.name == name)

@[simp] theorem toList_push (level : Section) (entry : Entry) :
    (level.push entry).toList = level.toList ++ [entry] :=
  toList_ofList _

@[simp] theorem toList_replace (level : Section) (index : Nat) (entry : Entry) :
    (level.replace index entry).toList = level.toList.set index entry :=
  toList_ofList _

def leafCount : Section → Nat
  | empty => 0
  | leaf _ rest => rest.leafCount + 1
  | branch _ _ child rest => child.leafCount + rest.leafCount

def unbound : Section → Section
  | empty => empty
  | leaf item rest => leaf item.unbind rest.unbound
  | branch name maxLength child rest => branch name maxLength child.unbound rest.unbound

def agree : Section → Section → Bool
  | empty, empty => true
  | leaf x rest, leaf y others => x.agree y && rest.agree others
  | branch name maxLength child rest, branch other bound below others =>
    name == other && maxLength == bound && child.agree below && rest.agree others
  | _, _ => false

end Section

end ConfigTree
