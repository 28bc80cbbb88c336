import ConfigTree.Proofs.Text.Runs
import ConfigTree.Proofs.Tree.Names
import ConfigTree.Proofs.Tree.Targets

/-!
Paths by their segments. A path is never split when it is resolved, only compared with whole names.
Where every name of a tree is a whole segment, this comes to the same as splitting the path at every
separator and following the segments, at each level to the first entry of that name.

Main statement: `Section.resolves_segments`.
-/

namespace ConfigTree

/-- The parts of a path between its separators. There is at least one, and any of them can be
empty. -/
def segments (path : String) : List String :=
  (path.toList.splitOn separator).map String.ofList

theorem segments_ne_nil (path : String) : segments path ≠ [] := by
  rw [segments, ne_eq, List.map_eq_nil_iff]
  exact List.splitOn_ne_nil separator path.toList

theorem segments_append (path below : String) :
    segments (path ++ "/" ++ below) = segments path ++ segments below := by
  have joined : (path ++ "/" ++ below).toList = path.toList ++ separator :: below.toList := by
    simp [separator]
  rw [segments, joined, List.splitOn_append_cons_self, List.map_append, segments, segments]

namespace Entry

def mapChild (change : Section → Section) : Entry → Entry
  | leaf item => leaf item
  | branch name maxLength child => branch name maxLength (change child)

theorem replaceAt_cons (entry changed : Entry) (index : Nat) (rest : Position) :
    entry.replaceAt changed (index :: rest) =
      entry.mapChild (·.replaceAt changed (index :: rest)) := by
  cases entry <;> rfl

end Entry

namespace Section

/-- The entry that some names lead to: at every level the first of that name, and for all names but
the last its child. -/
def lookup? (root : Section) : List String → Option Entry
  | [] => none
  | [name] => root.find? name
  | name :: next :: rest => do
    let entry ← root.find? name
    let child ← entry.child?
    child.lookup? (next :: rest)

def follow? (root : Section) : List String → Option Position
  | [] => none
  | [name] => (root.findIndex? name).map fun index => [index]
  | name :: next :: rest => do
    let index ← root.findIndex? name
    let child ← (root.get? index).bind Entry.child?
    (child.follow? (next :: rest)).map (index :: ·)

def alter (level : Section) (name : String) (change : Entry → Entry) : Section :=
  (do
    let index ← level.findIndex? name
    let entry ← level.get? index
    return level.replace index (change entry)).getD level

/-- The section with the entry that some names lead to exchanged for another. -/
def exchange (root : Section) (changed : Entry) : List String → Section
  | [] => root
  | [name] => root.alter name fun _ => changed
  | name :: next :: rest => root.alter name (Entry.mapChild (·.exchange changed (next :: rest)))

section
variable {root : Section} {names others : List String} {name : String}

theorem lookup?_cons (root : Section) (name : String) (nonempty : names ≠ []) :
    root.lookup? (name :: names) =
      ((root.find? name).bind Entry.child?).bind (·.lookup? names) := by
  cases names with
  | nil => exact absurd rfl nonempty
  | cons next rest => exact (Option.bind_assoc ..).symm

theorem lookup?_append (root : Section) (nonempty : names ≠ []) (filled : others ≠ []) :
    root.lookup? (names ++ others) =
      ((root.lookup? names).bind Entry.child?).bind (·.lookup? others) := by
  induction names generalizing root with
  | nil => exact absurd rfl nonempty
  | cons name rest ih =>
    rw [List.cons_append, lookup?_cons root name (List.append_ne_nil_of_right_ne_nil rest filled)]
    cases rest with
    | nil => rfl
    | cons next more =>
      have further : next :: more ≠ [] := List.cons_ne_nil next more
      rw [lookup?_cons root name further]
      cases (root.find? name).bind Entry.child? with
      | none => rfl
      | some child => exact ih child further

theorem follow?_cons (root : Section) (name : String) (nonempty : names ≠ []) :
    root.follow? (name :: names) = (root.findIndex? name).bind fun index =>
      ((root.get? index).bind Entry.child?).bind fun child =>
        (child.follow? names).map (index :: ·) := by
  cases names with
  | nil => exact absurd rfl nonempty
  | cons next rest => rfl

theorem follow?_ne_nil {position : Position} (found : root.follow? names = some position) :
    position ≠ [] := by
  cases names with
  | nil => cases found
  | cons name rest =>
    by_cases last : rest = []
    · subst last
      obtain ⟨index, -, rfl⟩ := Option.map_eq_some_iff.mp found
      exact List.cons_ne_nil index []
    · rw [follow?_cons root name last] at found
      obtain ⟨index, -, found⟩ := Option.bind_eq_some_iff.mp found
      obtain ⟨child, -, found⟩ := Option.bind_eq_some_iff.mp found
      obtain ⟨below, -, rfl⟩ := Option.map_eq_some_iff.mp found
      exact List.cons_ne_nil index below

theorem at?_follow? (root : Section) (names : List String) :
    (root.follow? names).bind root.at? = root.lookup? names := by
  induction names generalizing root with
  | nil => rfl
  | cons name rest ih =>
    by_cases last : rest = []
    · rw [last, follow?, lookup?, find?_eq_bind, Option.bind_map]
      rfl
    · rw [follow?_cons root name last, lookup?_cons root name last, find?_eq_bind]
      cases root.findIndex? name with
      | none => rfl
      | some index =>
        rw [Option.bind_some, Option.bind_some]
        cases inside : (root.get? index).bind Entry.child? with
        | none => rfl
        | some child =>
          rw [Option.bind_some, Option.bind_some, ← ih child]
          cases located : child.follow? rest with
          | none => rfl
          | some position =>
            obtain ⟨next, below, rfl⟩ := List.exists_cons_of_ne_nil (follow?_ne_nil located)
            rw [Option.map_some, Option.bind_some, at?_cons_cons, inside]
            rfl

theorem alter_of_findIndex? {level : Section} {index : Nat} {entry : Entry}
    (found : level.findIndex? name = some index) (inside : level.get? index = some entry)
    (change : Entry → Entry) : level.alter name change = level.replace index (change entry) := by
  simp [alter, found, inside]

theorem replaceAt_of_follow? {position : Position} (found : root.follow? names = some position)
    (changed : Entry) : root.replaceAt changed position = root.exchange changed names := by
  induction names generalizing root position with
  | nil => cases found
  | cons name rest ih =>
    cases rest with
    | nil =>
      obtain ⟨index, named, rfl⟩ := Option.map_eq_some_iff.mp found
      obtain ⟨entry, inside, -⟩ := Option.map_eq_some_iff.mp (name_of_findIndex? named)
      rw [exchange, alter_of_findIndex? named inside, replaceAt]
    | cons next more =>
      rw [follow?_cons root name (List.cons_ne_nil next more)] at found
      obtain ⟨index, named, found⟩ := Option.bind_eq_some_iff.mp found
      obtain ⟨child, inside, found⟩ := Option.bind_eq_some_iff.mp found
      obtain ⟨entry, inside, own⟩ := Option.bind_eq_some_iff.mp inside
      obtain ⟨below, located, rfl⟩ := Option.map_eq_some_iff.mp found
      obtain ⟨second, others, rfl⟩ := List.exists_cons_of_ne_nil (follow?_ne_nil located)
      rw [exchange, alter_of_findIndex? named inside, replaceAt_cons inside, Entry.replaceAt_cons]
      cases entry with
      | leaf item => cases own
      | branch name maxLength inner =>
        cases own
        rw [Entry.mapChild, Entry.mapChild, ih located]

end

section
variable {root : Section} {name : String} {names : List String}

theorem locate?_segment (named : root.Named IsSegment IsSegment) {segment : List Char}
    (apart : separator ∉ segment) :
    root.locate? segment =
      (root.findIndex? (String.ofList segment)).map fun index => [index] := by
  have name : (String.ofList segment).toList = segment := String.toList_ofList
  have located := locate?_of_not_mem named (name.symm ▸ apart)
  rwa [name] at located

theorem locateIn?_singleton (root : Section) (path : List Char) (index : Nat) :
    root.locateIn? path [index] =
      ((root.get? index).bind Entry.child?).bind fun child =>
        (child.locate? path).map (index :: ·) := by
  rw [locateIn?, sectionAt?_cons]
  cases (root.get? index).bind Entry.child? <;> rfl

/-- A path resolves to the position that its segments lead to. -/
theorem locate?_eq_follow? (named : root.Named IsSegment IsSegment) (path : String) :
    root.locate? path.toList = root.follow? (segments path) := by
  rw [segments]
  generalize path.toList = text
  induction text using Text.splitOn_induction separator generalizing root with
  | last segment apart =>
    rw [List.splitOn_eq_singleton apart, List.map_singleton, follow?, locate?_segment named apart]
  | step segment below apart ih =>
    have further : (below.splitOn separator).map String.ofList ≠ [] :=
      fun none => List.splitOn_ne_nil separator below (List.map_eq_nil_iff.mp none)
    rw [List.splitOn_append_cons_self_of_not_mem apart, List.map_cons,
      follow?_cons root _ further, locate?_append named, locate?_segment named apart,
      Option.bind_map]
    congr
    funext index
    rw [Function.comp_apply, locateIn?_singleton]
    cases inside : (root.get? index).bind Entry.child? with
    | none => rfl
    | some child =>
      have level : root.sectionAt? [index] = some child := by
        rw [sectionAt?_cons, inside]
        rfl
      rw [Option.bind_some, Option.bind_some, ih (named_sectionAt? named level)]

theorem find?_empty (named : root.Named IsSegment IsSegment) : root.find? "" = none := by
  have none : (root.findIndex? "").map (fun index => [index]) = none := by
    rw [← locate?_of_not_mem named (by decide)]
    exact locate?_nil root
  rw [find?_eq_bind, Option.map_eq_none_iff.mp none]
  rfl

theorem lookup?_of_empty (named : root.Named IsSegment IsSegment) (member : "" ∈ names) :
    root.lookup? names = none := by
  induction names generalizing root with
  | nil => rfl
  | cons name rest ih =>
    by_cases last : rest = []
    · rw [last, List.mem_singleton] at member
      rw [last, lookup?, ← member, find?_empty named]
    · rw [lookup?_cons root name last]
      cases found : (root.find? name).bind Entry.child? with
      | none => rfl
      | some child =>
        rcases List.mem_cons.mp member with here | later
        · rw [← here, find?_empty named] at found
          cases found
        · exact ih (named_of_find? named found) later

theorem entry?_eq_lookup? (named : root.Named IsSegment IsSegment) (path : String) :
    root.entry? path = root.lookup? (segments path) := by
  unfold entry?
  rw [locate?_eq_follow? named, at?_follow?]

theorem entry?_append (named : root.Named IsSegment IsSegment) (path below : String) :
    root.entry? (path ++ "/" ++ below) =
      (root.section? path).bind fun level => level.entry? below := by
  calc
    root.entry? (path ++ "/" ++ below)
      = root.lookup? (segments path ++ segments below) := by
        rw [entry?_eq_lookup? named, segments_append]
    _ = (root.section? path).bind (·.lookup? (segments below)) := by
        rw [lookup?_append root (segments_ne_nil path) (segments_ne_nil below), section?,
          entry?_eq_lookup? named]
    _ = _ := by
        cases found : root.section? path with
        | none => rfl
        | some child => exact (entry?_eq_lookup? (named_section? named found) below).symm

theorem edit?_eq_lookup? (named : root.Named IsSegment IsSegment) (path : String)
    (change : Entry → Except Fault Entry) :
    root.edit? path change = (root.lookup? (segments path)).map fun entry =>
      (change entry).map fun changed => root.exchange changed (segments path) := by
  rw [edit?, locate?_eq_follow? named, ← at?_follow?]
  cases found : root.follow? (segments path) with
  | none => rfl
  | some position =>
    rw [Option.bind_some, Option.bind_some, editAt?]
    congr
    funext entry
    congr
    funext changed
    exact replaceAt_of_follow? found changed

theorem requireSection_eq_pathNotFound_iff {path : String} :
    root.requireSection path = .error (.pathNotFound path) ↔ root.entry? path = none := by
  rw [requireSection]
  rcases root.entry? path with _ | (item | ⟨name, maxLength, child⟩) <;> simp

theorem requireSection_eq_notASection_iff {path : String} :
    root.requireSection path = .error (.notASection path) ↔
      ∃ item, root.entry? path = some (.leaf item) := by
  rw [requireSection]
  rcases root.entry? path with _ | (item | ⟨name, maxLength, child⟩) <;> simp

end

/-- Where names are segments, paths are resolved segment by segment: reading and changing reach the
entry that the segments lead to, an empty segment leads nowhere, and a path goes on below a section
as if it began there. A section that is required is missing for one of two reasons. -/
theorem resolves_segments {root : Section} (named : root.Named IsSegment IsSegment)
    (path : String) :
    root.entry? path = root.lookup? (segments path) ∧
      ("" ∈ segments path → root.entry? path = none) ∧
      (∀ below, root.entry? (path ++ "/" ++ below) =
        (root.section? path).bind fun level => level.entry? below) ∧
      (∀ change, root.edit? path change = (root.lookup? (segments path)).map fun entry =>
        (change entry).map fun changed => root.exchange changed (segments path)) ∧
      (root.requireSection path = .error (.pathNotFound path) ↔ root.entry? path = none) ∧
      (root.requireSection path = .error (.notASection path) ↔
        ∃ item, root.entry? path = some (.leaf item)) := by
  refine ⟨entry?_eq_lookup? named path, ?_, entry?_append named path, edit?_eq_lookup? named path,
    requireSection_eq_pathNotFound_iff, requireSection_eq_notASection_iff⟩
  intro member
  rw [entry?_eq_lookup? named]
  exact lookup?_of_empty named member

/-- The leaf hides the section of its own name, and not the one whose name it is the beginning of. -/
theorem resolves_segments_of_shadowed :
    let flag (name : String) : Leaf := { name, kind := .boolean }
    let last := branch "a" 0 (leaf (flag "x") empty) empty
    let root := leaf (flag "a") (branch "ab" 0 (leaf (flag "a") empty) last)
    root.Named IsSegment IsSegment ∧ root.entry? "ab/a" = some (.leaf (flag "a")) ∧
      root.entry? "a/x" = none ∧ root.entry? "ab//a" = none := by
  intro flag last root
  have named : root.Named IsSegment IsSegment := by decide +kernel
  refine ⟨named, ?_, ?_, ?_⟩
  · rw [(resolves_segments named "ab/a").1]
    decide +kernel
  · rw [(resolves_segments named "a/x").1]
    decide +kernel
  · exact (resolves_segments named "ab//a").2.1 (by decide +kernel)

end Section

end ConfigTree
