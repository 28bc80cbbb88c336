import ConfigTree.Fault

/-!
Files. A store is the part of a file system that the library needs: which directories there are,
which regular files with which contents, and the working directory. A path is followed name by name
from the root or from the working directory, and every name but the last must be a directory.
-/

namespace ConfigTree

abbrev Location := List String

/-- The root directory always exists and is not listed. -/
structure Store where
  working : Location := []
  directories : List Location := []
  files : List (Location × List UInt8) := []
  deriving DecidableEq, Repr

/-- What stands at the end of a path. A vacant place has a directory around it and no entry. -/
inductive Place where
  | directory
  | file (location : Location) (contents : List UInt8)
  | vacant (location : Location)
  deriving DecidableEq, Repr

/-- The names in a path. Doubled separators leave empty names, and so does a separator at the end. -/
def pathNames (path : String) : List String :=
  (path.toList.splitOn '/').map String.ofList

def isAbsolute (path : String) : Bool :=
  path.toList.head? == some '/'

namespace Store

def isDirectory (store : Store) (location : Location) : Bool :=
  location.isEmpty || store.directories.contains location

/-- Follows names from a directory. The empty name and the single point stay where they are, the
double point leads to the parent, and the root is its own parent. -/
def follow (store : Store) (here : Location) : List String → Except StorageFault Place
  | [] => .ok .directory
  | name :: rest =>
    if name = "" ∨ name = "." then store.follow here rest
    else if name = ".." then store.follow here.dropLast rest
    else
      let next := here ++ [name]
      if store.isDirectory next then store.follow next rest
      else
        match store.files.lookup next with
        | some contents => if rest = [] then .ok (.file next contents) else .error .throughFile
        | none => if rest = [] then .ok (.vacant next) else .error .missing

def start (store : Store) (path : String) : Location :=
  if isAbsolute path then [] else store.working

/-- What a path leads to. The empty path leads nowhere, and a NUL cannot stand in a path. -/
def resolve (store : Store) (path : String) (names : List String) : Except StorageFault Place :=
  if path = "" then .error .missing
  else if '\x00' ∈ path.toList then
    .error (.other "file name contained an unexpected NUL byte")
  else store.follow (store.start path) names

def isFile (store : Store) (path : String) : Bool :=
  match store.resolve path (pathNames path) with
  | .ok (.file _ _) => true
  | _ => false

def contents (store : Store) (path : String) : Except StorageFault (List UInt8) :=
  match store.resolve path (pathNames path) with
  | .ok (.file _ octets) => .ok octets
  | .ok .directory => .error .isDirectory
  | .ok (.vacant _) => .error .missing
  | .error fault => .error fault

def insert (store : Store) (location : Location) (octets : List UInt8) : Store :=
  { store with files := (location, octets) :: store.files.filter (·.1 != location) }

/-- Creates the file at a path, or replaces its contents. A separator at the end asks for a
directory, which is no file. -/
def write (store : Store) (path : String) (octets : List UInt8) : Except StorageFault Store :=
  let names := pathNames path
  let named := (names.reverse.dropWhile (· == "")).reverse
  match store.resolve path named with
  | .ok (.file location _) | .ok (.vacant location) =>
    if named = names then .ok (store.insert location octets) else .error .isDirectory
  | .ok .directory => .error .isDirectory
  | .error fault => .error fault

def addDirectory (store : Store) (location : Location) : Store :=
  let above := (List.range location.length).map fun depth => location.take (depth + 1)
  { store with directories := above.foldl (fun known place => known.insert place) store.directories }

def addFile (store : Store) (location : Location) (octets : List UInt8) : Store :=
  (store.addDirectory location.dropLast).insert location octets

end Store

end ConfigTree
