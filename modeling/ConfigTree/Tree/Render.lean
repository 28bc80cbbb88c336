import ConfigTree.Tree.Path
import ConfigTree.Text.Utf8

/-!
The text of a tree. Every section writes its own leaves first and then its branches in order, each
branch after an empty line and under a header with its full path. The text goes piece by piece to a
writer that may run full, and the leaves are counted on the way. Rendering is writing without a
limit.
-/

namespace ConfigTree

def joinPath (path name : List Char) : List Char :=
  if path = [] then name else path ++ separator :: name

/-- Something that takes octets. A limited writer has room for so many more, and after that takes
none. -/
structure Writer where
  room : Option Nat := none
  taken : List UInt8 := []
  deriving DecidableEq, Repr

namespace Writer

def take (writer : Writer) (octets : List UInt8) : Bool × Writer :=
  match writer.room with
  | none => (true, { writer with taken := writer.taken ++ octets })
  | some room =>
    (octets.length ≤ room,
      { room := some (room - octets.length), taken := writer.taken ++ octets.take room })

end Writer

/-- A task that sends text to a writer. A piece that does not fit ends the task, and the writer keeps
what it has taken until then. -/
abbrev Sending (α : Type) :=
  ExceptT Fault (StateM Writer) α

def Sending.piece (text : List Char) : Sending Unit :=
  ExceptT.mk fun writer =>
    match writer.take (Text.Utf8.encode text) with
    | (true, after) => (.ok (), after)
    | (false, after) => (.error (.storage .full), after)

def Leaf.send (item : Leaf) : Sending Unit := do
  Sending.piece item.name.toList
  Sending.piece [' ', '=', ' ']
  Sending.piece item.text.toList
  Sending.piece ['\n']

def sendHeader (path : List Char) : Sending Unit := do
  Sending.piece ['\n']
  Sending.piece ['[']
  Sending.piece path
  Sending.piece [']', '\n']

namespace Section

def sendLeaves : Section → Sending Nat
  | empty => return 0
  | leaf item rest => do
    item.send
    let others ← rest.sendLeaves
    return others + 1
  | branch _ _ _ rest => rest.sendLeaves

def sendBranches (path : List Char) : Section → Sending Nat
  | empty => return 0
  | leaf _ rest => rest.sendBranches path
  | branch name _ child rest => do
    let inner := joinPath path name.toList
    sendHeader inner
    let own ← child.sendLeaves
    let below ← child.sendBranches inner
    let others ← rest.sendBranches path
    return own + below + others

def send (root : Section) : Sending Nat := do
  let own ← root.sendLeaves
  let below ← root.sendBranches []
  return own + below

def write (root : Section) (writer : Writer) : Except Fault Nat × Writer :=
  root.send.run.run writer

/-- The text of a tree, read back from what an unlimited writer has taken. -/
def render (root : Section) : String :=
  String.ofList (Text.Utf8.decode (root.write {}).2.taken)

def octets (root : Section) : List UInt8 :=
  Text.Utf8.encode root.render.toList

end Section

end ConfigTree
