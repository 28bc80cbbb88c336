import ConfigTree.Document.Reader
import ConfigTree.Tree.Render

/-!
Outlines: all headers and assignments of a document in order, whatever the tree that the document
may be meant for. Every section is taken and every assignment counts, so an outline exists exactly
for the documents without a malformed line.
-/

namespace ConfigTree

structure Header where
  path : String
  line : Nat
  deriving DecidableEq, Repr

structure Assignment where
  sectionPath : String
  key : String
  value : String
  line : Nat
  deriving DecidableEq, Repr

/-- The path of what is assigned: the key below the section, or the key alone at the root. -/
def Assignment.path (assignment : Assignment) : String :=
  String.ofList (joinPath assignment.sectionPath.toList assignment.key.toList)

/-- The headers and assignments recorded so far, and the path of the section that the recorder is
in. It is in none before the first header, and in none when the document has ended. -/
structure Outline where
  headers : List Header := []
  assignments : List Assignment := []
  current : String := ""
  deriving DecidableEq, Repr

/-- A path before and after its last separator; without one, all of it comes after. -/
def splitLast (path : List Char) : List Char × List Char :=
  let key := (path.reverse.takeWhile (· ≠ separator)).reverse
  let before := (path.reverse.dropWhile (· ≠ separator)).drop 1
  (before.reverse, key)

namespace Outline

def addHeader (outline : Outline) (path : String) (line : Nat) : Outline :=
  { outline with headers := outline.headers ++ [⟨path, line⟩], current := path }

def addAssignment (outline : Outline) (key value : String) (line : Nat) : Outline :=
  { outline with assignments := outline.assignments ++ [⟨outline.current, key, value, line⟩] }

def recorder : Document.Consumer Outline where
  openSection path line outline := (true, outline.addHeader path line)
  assign key value line outline := (true, outline.addAssignment key value line)

/-- What is kept of a record when the document has ended. -/
def finish (outline : Outline) : Outline :=
  { outline with current := "" }

def read (octets : List UInt8) : Except Fault Outline :=
  match recorder.read octets {} with
  | (.ok _, outline) => .ok outline.finish
  | (.error fault, _) => .error fault

/-- The value last assigned at a path. The last separator divides the section from the key. -/
def get? (outline : Outline) (path : String) : Option String :=
  let (before, key) := splitLast path.toList
  let wanted (assignment : Assignment) : Bool :=
    assignment.sectionPath == String.ofList before && assignment.key == String.ofList key
  (outline.assignments.reverse.find? wanted).map Assignment.value

def sections (outline : Outline) : List String :=
  outline.headers.foldl (fun seen header =>
    if header.path ∈ seen then seen else seen ++ [header.path]) []

def assignmentsIn (outline : Outline) (sectionPath : String) : List Assignment :=
  outline.assignments.filter (·.sectionPath == sectionPath)

end Outline

end ConfigTree
