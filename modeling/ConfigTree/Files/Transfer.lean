import ConfigTree.Document.Load
import ConfigTree.Files.Store

/-!
Trees and files. A tree is loaded from the whole contents of a file, and saved by replacing the
contents of a file with what writing the tree gives.
-/

namespace ConfigTree.Section

def loadFile (root : Section) (store : Store) (path : String) : Except Fault Nat × Section :=
  match store.contents path with
  | .ok octets => root.load octets
  | .error cause => (.error (.storage cause), root)

def saveFile (root : Section) (store : Store) (path : String) : Except Fault Nat × Store :=
  let (result, writer) := root.write {}
  match store.write path writer.taken with
  | .ok after => (result, after)
  | .error cause => (.error (.storage cause), store)

end ConfigTree.Section
