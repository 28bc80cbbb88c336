import ConfigTree.Tree.Basic

/-!
Paths. A path is compared with the names of a level as text: a name is taken whole, and a name that
is followed by a separator leads into the child section with the rest of the path. At every level
the first entry that matches is taken, without a second try at a later sibling.

A path is resolved to a position, which says for each level the index of the entry to follow, and
everything else works on positions.
-/

namespace ConfigTree

def separator : Char := '/'

/-- How a path relates to a name: it is the name, it continues below the name, or it is about
something else. -/
inductive Segment where
  | whole
  | inside (rest : List Char)
  | elsewhere
  deriving DecidableEq, Repr

/-- Compares a path with a name. The empty path names nothing, not even an entry without a name. -/
def Segment.compare (path name : List Char) : Segment :=
  if path = [] then elsewhere
  else
    match name.isPrefixOf? path with
    | some [] => whole
    | some (c :: rest) => if c = separator then inside rest else elsewhere
    | none => elsewhere

/-- The indices of the entries on the way from a section to one of the entries below it. -/
abbrev Position := List Nat

def Position.shift : Position → Position
  | [] => []
  | index :: rest => (index + 1) :: rest

namespace Section

def locate? : Section → List Char → Option Position
  | empty, _ => none
  | leaf item rest, path =>
    match Segment.compare path item.name.toList with
    | .whole => some [0]
    | .inside _ => none
    | .elsewhere => (rest.locate? path).map Position.shift
  | branch name _ child rest, path =>
    match Segment.compare path name.toList with
    | .whole => some [0]
    | .inside below => (child.locate? below).map (0 :: ·)
    | .elsewhere => (rest.locate? path).map Position.shift

def sectionAt? (root : Section) : Position → Option Section
  | [] => some root
  | index :: rest => do
    let entry ← root.get? index
    let child ← entry.child?
    child.sectionAt? rest

def at? (root : Section) : Position → Option Entry
  | [] => none
  | [index] => root.get? index
  | index :: next :: rest => do
    let entry ← root.get? index
    let child ← entry.child?
    child.at? (next :: rest)

def modifySection? (root : Section) (change : Section → Section) : Position → Option Section
  | [] => some (change root)
  | index :: rest =>
    match root.get? index with
    | some (.branch name maxLength child) =>
      (child.modifySection? change rest).map fun changed =>
        root.replace index (.branch name maxLength changed)
    | _ => none

def replaceAt (root : Section) (entry : Entry) : Position → Section
  | [] => root
  | [index] => root.replace index entry
  | index :: next :: rest =>
    match root.get? index with
    | some (.branch name maxLength child) =>
      root.replace index (.branch name maxLength (child.replaceAt entry (next :: rest)))
    | _ => root

def editAt? (root : Section) (position : Position) (change : Entry → Except Fault Entry) :
    Option (Except Fault Section) :=
  (root.at? position).map fun entry =>
    (change entry).map fun changed => root.replaceAt changed position

def edit? (root : Section) (path : String) (change : Entry → Except Fault Entry) :
    Option (Except Fault Section) :=
  (root.locate? path.toList).bind fun position => root.editAt? position change

def editNamed? (root : Section) (position : Position) (name : String)
    (change : Entry → Except Fault Entry) : Option (Except Fault Section) := do
  let level ← root.sectionAt? position
  let index ← level.findIndex? name
  root.editAt? (position ++ [index]) change

def entry? (root : Section) (path : String) : Option Entry :=
  (root.locate? path.toList).bind root.at?

def section? (root : Section) (path : String) : Option Section :=
  (root.entry? path).bind Entry.child?

def position? (root : Section) (path : String) : Option Position :=
  if path = "" then some []
  else (root.locate? path.toList).filter fun position => (root.sectionAt? position).isSome

def requireSection (root : Section) (path : String) : Except Fault Section :=
  match root.entry? path with
  | none => .error (.pathNotFound path)
  | some (.leaf _) => .error (.notASection path)
  | some (.branch _ _ child) => .ok child

/-- The text of the leaf at a path; for an unbound leaf that is the null text. -/
def get (root : Section) (path : String) : Except Fault String :=
  match root.entry? path with
  | none => .error (.pathNotFound path)
  | some (.branch _ _ _) => .error (.notALeaf path)
  | some (.leaf item) => .ok item.text

/-- Binds the leaf at a path to the value that a text denotes; an absent text is the null text. -/
def set (root : Section) (path : String) (text : Option String) : Except Fault Section :=
  let refuseBranch : Entry → Except Fault Entry
    | .branch _ _ _ => .error (.notALeaf path)
    | .leaf item => (item.decode (text.getD nullText)).map .leaf
  (root.edit? path refuseBranch).getD (.error (.pathNotFound path))

theorem locate?_nil (root : Section) : root.locate? [] = none := by
  induction root with
  | empty => rfl
  | leaf item rest ih => simp [locate?, Segment.compare, ih]
  | branch name maxLength child rest _ ih => simp [locate?, Segment.compare, ih]

theorem locate?_ne_nil {root : Section} {path : List Char} {position : Position}
    (found : root.locate? path = some position) : position ≠ [] := by
  induction root generalizing path position with
  | empty => cases found
  | leaf item rest ih =>
    simp only [locate?] at found
    split at found
    · cases found; simp
    · cases found
    · obtain ⟨earlier, located, rfl⟩ := Option.map_eq_some_iff.mp found
      have nonempty := ih located
      cases earlier with
      | nil => exact absurd rfl nonempty
      | cons index rest => simp [Position.shift]
  | branch name maxLength child rest _ ih =>
    simp only [locate?] at found
    split at found
    · cases found; simp
    · obtain ⟨below, _, rfl⟩ := Option.map_eq_some_iff.mp found
      simp
    · obtain ⟨earlier, located, rfl⟩ := Option.map_eq_some_iff.mp found
      have nonempty := ih located
      cases earlier with
      | nil => exact absurd rfl nonempty
      | cons index rest => simp [Position.shift]

end Section

end ConfigTree
