import ConfigTree.Proofs.Document.Checked
import ConfigTree.Proofs.Tree.Targets

/-!
Loading a document is assigning what its outline records. The loader and the recorder read the same
lines, and where the loader skips a section because the tree has no such section, what is recorded
there is meant for no entry of the tree. So the outline alone says what loading does, whatever the
names in the tree are.

Main statement: `Section.load_eq_assignAll`.
-/

namespace ConfigTree

structure Note where
  sectionPath : String
  key : String
  value : String
  deriving DecidableEq, Repr

def Note.ofAssignment (assignment : Assignment) : Note :=
  ⟨assignment.sectionPath, assignment.key, assignment.value⟩

namespace Outline

def notes (outline : Outline) : List Note :=
  outline.assignments.map Note.ofAssignment

theorem notes_addAssignment (outline : Outline) (key value : String) (line : Nat) :
    (outline.addAssignment key value line).notes =
      outline.notes ++ [⟨outline.current, key, value⟩] :=
  List.map_append

theorem notes_finish (outline : Outline) : outline.finish.notes = outline.notes :=
  rfl

theorem InLast.current_mem {outline : Outline} (inLast : outline.InLast) :
    outline.current = "" ∨ outline.current ∈ outline.headers.map Header.path := by
  rw [InLast] at inLast
  cases last : outline.headers.getLast? with
  | none =>
    rw [last] at inLast
    exact .inl inLast
  | some header =>
    rw [last] at inLast
    exact .inr (List.mem_map.mpr ⟨header, List.mem_of_getLast? last, inLast.symm⟩)

end Outline

namespace Document

/-- The headers and assignments in an outline come from lines, and the assignments below no header
are those of the root. -/
structure FromLines (pieces : List (List UInt8)) (outline : Outline) : Prop where
  headers : ∀ header ∈ outline.headers, ∃ line ∈ pieces,
    readLine false line = .ok (.header header.path)
  notes : ∀ note ∈ outline.notes, ∃ line ∈ pieces,
    readLine false line = .ok (.assignment note.key note.value)
  sections : ∀ note ∈ outline.notes,
    note.sectionPath = "" ∨ note.sectionPath ∈ outline.headers.map Header.path

section
variable {pieces : List (List UInt8)} {outline : Outline} {line : List UInt8}

theorem FromLines.addHeader (origin : FromLines pieces outline) (member : line ∈ pieces)
    {path : String} (given : readLine false line = .ok (.header path)) (number : Nat) :
    FromLines pieces (outline.addHeader path number) := by
  refine ⟨?_, origin.notes, ?_⟩
  · intro header inside
    rcases List.mem_append.mp inside with old | new
    · exact origin.headers header old
    · rw [List.mem_singleton.mp new]
      exact ⟨line, member, given⟩
  · intro note inside
    refine (origin.sections note inside).imp_right fun known => ?_
    rw [Outline.addHeader, List.map_append]
    exact List.mem_append_left _ known

theorem FromLines.addAssignment (origin : FromLines pieces outline) (inLast : outline.InLast)
    (member : line ∈ pieces) {key value : String}
    (given : readLine false line = .ok (.assignment key value)) (number : Nat) :
    FromLines pieces (outline.addAssignment key value number) := by
  refine ⟨origin.headers, ?_, ?_⟩
  all_goals
    intro note inside
    rw [Outline.notes_addAssignment] at inside
    rcases List.mem_append.mp inside with old | new
  · exact origin.notes note old
  · rw [List.mem_singleton.mp new]
    exact ⟨line, member, given⟩
  · exact origin.sections note old
  · rw [List.mem_singleton.mp new]
    exact inLast.current_mem

end

/-- An outline records what the lines of its document give, and nothing else. -/
theorem fromLines_readLines (pieces : List (List UInt8)) :
    FromLines pieces (Outline.recorder.readLines 1 { state := {} } pieces).1.state := by
  have start : FromLines pieces {} := by
    constructor
    · rintro header ⟨⟩
    · rintro note ⟨⟩
    · rintro note ⟨⟩
  have reached := Outline.recorder.readLines_invariant
    (fun progress => Recording progress ∧ FromLines pieces progress.state) pieces ?_ 1
    { state := {} } ⟨.start, start⟩
  · exact reached.2
  · rintro line member number progress item given ⟨recording, origin⟩
    rw [recording.taken] at given
    refine ⟨recording.accept number item, ?_⟩
    cases item with
    | nothing => exact origin
    | header path => exact origin.addHeader member given number
    | assignment name value => exact origin.addAssignment recording.inLast member given number

end Document

namespace Section

def assign? (root : Section) (note : Note) : Option Section := do
  let position ← root.target? note.sectionPath note.key
  let edited ← root.editAt? position (·.decode note.value)
  edited.toOption

/-- The tree after a list of assignments, and the number of those that are accepted. -/
def assignAll (root : Section) : List Note → Section × Nat
  | [] => (root, 0)
  | note :: rest =>
    match root.assign? note with
    | some after => ((after.assignAll rest).1, (after.assignAll rest).2 + 1)
    | none => root.assignAll rest

theorem assign?_eq_editNamed? (root : Section) (note : Note) :
    root.assign? note =
      (root.position? note.sectionPath).bind fun position =>
        (root.editNamed? position note.key (·.decode note.value)).bind Except.toOption := by
  simp only [assign?, target?, editNamed?, bind, pure, Option.bind_assoc, Option.bind_some]

theorem unbound_of_assign? {root after : Section} {note : Note}
    (assigned : root.assign? note = some after) : after.unbound = root.unbound := by
  simp only [assign?, bind, Option.bind_eq_some_iff] at assigned
  obtain ⟨position, _, edited, found, accepted⟩ := assigned
  cases edited with
  | error fault => cases accepted
  | ok changed =>
    cases accepted
    exact unbound_of_editAt? (fun _ _ => Entry.unbound_of_decode) found

theorem assignAll_append (root : Section) (notes more : List Note) :
    root.assignAll (notes ++ more) =
      (((root.assignAll notes).1.assignAll more).1,
        (root.assignAll notes).2 + ((root.assignAll notes).1.assignAll more).2) := by
  induction notes generalizing root with
  | nil => rw [List.nil_append, assignAll, Nat.zero_add]
  | cons note rest ih =>
    rw [List.cons_append, assignAll, assignAll]
    cases root.assign? note with
    | none => exact ih root
    | some after =>
      dsimp only
      rw [ih after, Nat.add_right_comm]

end Section

namespace Loading
open Document

/-- The loader is in the section that the recorder names, and is skipping if there is none. -/
structure Follows (first : Progress Loading) (second : Progress Outline) : Prop where
  taken : second.skipping = false
  skips : first.skipping = (first.state.root.position? second.state.current).isNone
  current : first.skipping = false → first.state.current = second.state.current

theorem openSection_eq {path : String} (nonempty : path ≠ "") (loading : Loading) :
    loading.openSection path =
      if (loading.root.position? path).isNone then (false, loading)
      else (true, { loading with current := path }) := by
  have found := Section.isSome_position? nonempty loading.root
  rw [← Option.not_isSome, found, openSection, Section.requireSection, Section.section?]
  cases loading.root.entry? path with
  | none => rfl
  | some entry => cases entry <;> rfl

theorem current_assign (name value : String) (loading : Loading) :
    (loading.assign name value).2.current = loading.current := by
  unfold assign
  dsimp only
  split
  · rfl
  · rfl

theorem assign_eq (name value : String) (loading : Loading) :
    loading.assign name value =
      match loading.root.assign? ⟨loading.current, name, value⟩ with
      | some root => (true, { loading with root })
      | none => (false, loading) := by
  rw [Section.assign?_eq_editNamed?, assign, ← Option.bind_assoc]
  dsimp only [bind]
  generalize (loading.root.position? loading.current).bind _ = edited
  rcases edited with _ | (fault | root)
  · rfl
  · rfl
  · rfl

variable {first next : Progress Loading} {second other : Progress Outline}

/-- Between two points the loader has made the assignments that were recorded meanwhile. -/
def Assigned (first next : Progress Loading) (second other : Progress Outline) : Prop :=
  ∃ notes, other.state.notes = second.state.notes ++ notes ∧
    next.state.root = (first.state.root.assignAll notes).1 ∧
    next.count = first.count + (first.state.root.assignAll notes).2

theorem Assigned.refl (first : Progress Loading) (second : Progress Outline) :
    Assigned first first second second :=
  ⟨[], (List.append_nil _).symm, rfl, rfl⟩

theorem Assigned.trans {last : Progress Loading} {after : Progress Outline}
    (earlier : Assigned first next second other) (later : Assigned next last other after) :
    Assigned first last second after := by
  obtain ⟨notes, recorded, root, count⟩ := earlier
  obtain ⟨more, recordedLater, rootLater, countLater⟩ := later
  refine ⟨notes ++ more, ?_, ?_, ?_⟩
  · rw [recordedLater, recorded, List.append_assoc]
  · rw [rootLater, root, Section.assignAll_append]
  · rw [countLater, count, root, Section.assignAll_append, Nat.add_assoc]

theorem header_step {path : String} (nonempty : path ≠ "") (first : Progress Loading)
    (second : Progress Outline) (number : Nat) :
    Follows (consumer.accept number first (.header path))
        (Outline.recorder.accept number second (.header path)) ∧
      Assigned first (consumer.accept number first (.header path))
        second (Outline.recorder.accept number second (.header path)) := by
  have kept : (consumer.accept number first (.header path)).state.root = first.state.root :=
    (openSection_spec path first.state).2
  have current : (Outline.recorder.accept number second (.header path)).state.current = path :=
    rfl
  refine ⟨⟨rfl, ?_, ?_⟩, [], ?_, kept, rfl⟩
  · rw [kept, current]
    simp only [Consumer.accept, consumer, openSection_eq nonempty]
    cases first.state.root.position? path <;> rfl
  · rw [current]
    simp only [Consumer.accept, consumer, openSection_eq nonempty]
    cases first.state.root.position? path with
    | none =>
      intro reads
      cases reads
    | some position =>
      intro _
      rfl
  · exact (List.append_nil _).symm

theorem skipped_step {name : String} (follows : Follows first second) (value : String)
    (number : Nat) (skips : first.skipping = true) :
    Follows first (Outline.recorder.accept number second (.assignment name value)) ∧
      Assigned first first
        second (Outline.recorder.accept number second (.assignment name value)) := by
  -- The recorder is in a section that the tree does not have, so the assignment is for no entry.
  have nowhere : first.state.root.position? second.state.current = none :=
    Option.isNone_iff_eq_none.mp (follows.skips ▸ skips)
  have refused : first.state.root.assign? ⟨second.state.current, name, value⟩ = none := by
    rw [Section.assign?_eq_editNamed?, nowhere]
    rfl
  refine ⟨⟨follows.taken, follows.skips, follows.current⟩, _,
    Outline.notes_addAssignment second.state name value number, ?_, ?_⟩
  all_goals
    rw [Section.assignAll, refused]
    rfl

theorem assignment_step {name : String} (follows : Follows first second) (value : String)
    (number : Nat) (reads : first.skipping = false) :
    Follows (consumer.accept number first (.assignment name value))
        (Outline.recorder.accept number second (.assignment name value)) ∧
      Assigned first (consumer.accept number first (.assignment name value))
        second (Outline.recorder.accept number second (.assignment name value)) := by
  have same := follows.current reads
  have shape := unbound_accept number first (.assignment name value)
  have applied := assign_eq name value first.state
  rw [same] at applied
  refine ⟨⟨follows.taken, ?_, ?_⟩, _,
    Outline.notes_addAssignment second.state name value number, ?_, ?_⟩
  · rw [Section.position?_of_unbound shape]
    exact follows.skips
  · intro _
    exact (current_assign name value first.state).trans same
  all_goals
    simp only [Section.assignAll, Consumer.accept, consumer, applied]
    cases first.state.root.assign? ⟨second.state.current, name, value⟩ <;> rfl

theorem accept_step {line : List UInt8} {item : Item} (follows : Follows first second)
    (gives : Gives line item) (number : Nat) :
    Follows (consumer.accept number first (item.seen first.skipping))
        (Outline.recorder.accept number second item) ∧
      Assigned first (consumer.accept number first (item.seen first.skipping))
        second (Outline.recorder.accept number second item) := by
  cases skips : first.skipping with
  | true =>
    cases gives with
    | nothing _ _ => exact ⟨follows, Assigned.refl first second⟩
    | header path _ _ nonempty => exact header_step nonempty first second number
    | assignment name value _ _ _ => exact skipped_step follows value number skips
  | false =>
    cases gives with
    | nothing _ _ => exact ⟨follows, Assigned.refl first second⟩
    | header path _ _ nonempty => exact header_step nonempty first second number
    | assignment name value _ _ _ => exact assignment_step follows value number skips

theorem readLines_assigned {number : Nat} {pieces : List (List UInt8)}
    (follows : Follows first second)
    (recorded : Outline.recorder.readLines number second pieces = (other, none)) :
    ∃ done, consumer.readLines number first pieces = (done, none) ∧
      Assigned first done second other := by
  induction pieces generalizing number first second with
  | nil =>
    cases recorded
    exact ⟨first, rfl, Assigned.refl first _⟩
  | cons line rest ih =>
    rw [Consumer.readLines, follows.taken] at recorded
    cases given : readLine false line with
    | error expected => rw [given] at recorded; cases recorded
    | ok item =>
      rw [given] at recorded
      obtain ⟨still, earlier⟩ := accept_step follows (gives_of_readLine given) number
      obtain ⟨done, read, later⟩ := ih still recorded
      rw [Consumer.readLines, readLine_of_ok given]
      exact ⟨done, read, earlier.trans later⟩

end Loading

namespace Section

theorem load_of_readLines_recorder (root : Section) {octets : List UInt8}
    {after : Document.Progress Outline}
    (recorded : Outline.recorder.readLines 1 { state := {} } (Document.lines octets) =
      (after, none)) :
    root.load octets =
      (.ok (root.assignAll after.state.notes).2, (root.assignAll after.state.notes).1) := by
  have start : Loading.Follows { state := { root } } { state := {} } := ⟨rfl, rfl, fun _ => rfl⟩
  obtain ⟨done, read, notes, known, reached, count⟩ := Loading.readLines_assigned start recorded
  have whole : after.state.notes = notes := known
  rw [Nat.zero_add] at count
  rw [load_of_readLines read, whole, Document.Progress.outcome, reached, count]

/-- Loading a document into a tree is making the assignments of its outline one after the other. -/
theorem load_eq_assignAll (root : Section) {octets : List UInt8} {outline : Outline}
    (read : Outline.read octets = .ok outline) :
    root.load octets =
      (.ok (root.assignAll outline.notes).2, (root.assignAll outline.notes).1) := by
  obtain ⟨after, recorded, rfl⟩ := Outline.readLines_of_read read
  exact load_of_readLines_recorder root recorded

end Section

end ConfigTree
