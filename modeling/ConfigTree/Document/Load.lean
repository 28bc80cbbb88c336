import ConfigTree.Document.Reader
import ConfigTree.Tree.Render

/-!
Loading a document into a tree. A header is resolved from the root and must lead to a section; an
assignment goes to the first entry of its name in the current section. Unknown sections and names
and values that cannot be decoded are passed over and leave the tree as it is.
-/

namespace ConfigTree

structure Loading where
  root : Section
  current : String := ""
  deriving DecidableEq, Repr

namespace Loading

def openSection (path : String) (loading : Loading) : Bool × Loading :=
  match loading.root.requireSection path with
  | .ok _ => (true, { loading with current := path })
  | .error _ => (false, loading)

def assign (name value : String) (loading : Loading) : Bool × Loading :=
  let edited := do
    let position ← loading.root.position? loading.current
    loading.root.editNamed? position name (·.decode value)
  match edited with
  | some (.ok root) => (true, { loading with root })
  | _ => (false, loading)

def consumer : Document.Consumer Loading where
  openSection path _ := openSection path
  assign name value _ := assign name value

end Loading

namespace Section

/-- Loads a document into a tree. The result is the number of assignments applied, and the tree
has those applied before a fault. -/
def load (root : Section) (octets : List UInt8) : Except Fault Nat × Section :=
  let (result, loading) := Loading.consumer.read octets { root }
  (result, loading.root)

/-- Loads the text of a tree into the same tree without its values. -/
def reload (root : Section) : Except Fault Nat × Section :=
  root.unbound.load root.octets

end Section

end ConfigTree
