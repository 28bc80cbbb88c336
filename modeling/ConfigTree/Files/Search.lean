import ConfigTree.Text.Blank

/-!
Searching for a file by name over directories. Names come first and directories second: the first
name is tried in every directory before the second name is tried at all. Leading white space does
not count, a blank name is no name, and a directory that begins with a tilde is taken from the home
directory.
-/

namespace ConfigTree.Search

/-- A name below a directory. An absolute name stands for itself, and a directory that is empty or
ends in a separator needs no separator. -/
def join (directory name : List Char) : List Char :=
  if name.head? = some '/' then name
  else if directory = [] ∨ directory.getLast? = some '/' then directory ++ name
  else directory ++ '/' :: name

/-- A directory with its leading tilde resolved; without a home directory there is none. -/
def expandHome (home : Option String) : List Char → Option (List Char)
  | '~' :: rest =>
    home.map fun place =>
      match rest.dropWhile (· == '/') with
      | [] => place.toList
      | below => join place.toList below
  | directory => some directory

def candidates (home : Option String) (directories names : List String) : List String :=
  let places := directories.filterMap fun directory =>
    expandHome home (Text.trimStart directory.toList)
  let wanted := (names.map fun name => Text.trimStart name.toList).filter (· ≠ [])
  wanted.flatMap fun name => places.map fun place => String.ofList (join place name)

def locate? (isFile : String → Bool) (home : Option String) (directories names : List String) :
    Option String :=
  (candidates home directories names).find? isFile

end ConfigTree.Search
