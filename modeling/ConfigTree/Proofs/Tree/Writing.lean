import Mathlib.Data.List.Basic
import ConfigTree.Files.Transfer
import ConfigTree.Text.Utf8.RoundTrip

/-!
Writing to a writer that may run full. A task that sends pieces of text offers the writer the octets
of all of them in order: if the writer takes them all, the task returns its result, and otherwise it
ends with the fault of a full writer, which then has taken the octets that it had room for. Writing
a tree is such a task. It offers the octets of the text of the tree, and its result is the number of
leaves at all depths.

The text is also given line by line, as `Section.lines`, and this is the same text
(`Section.octets_eq`).

Main statement: `Section.write_of_limited`.
-/

namespace ConfigTree

namespace Writer

variable {α : Type}

def offer (writer : Writer) (octets : List UInt8) (result : α) : Except Fault α × Writer :=
  match writer.take octets with
  | (true, after) => (.ok result, after)
  | (false, after) => (.error (.storage .full), after)

theorem take_nil (writer : Writer) : writer.take [] = (true, writer) := by
  rcases writer with ⟨_ | room, taken⟩ <;> simp [take]

/-- A writer takes octets one part after the other. Once a part does not fit, there is no room left
for the next one. -/
theorem take_append (writer : Writer) (first second : List UInt8) :
    writer.take (first ++ second) =
      match writer.take first with
      | (true, after) => after.take second
      | (false, after) => (false, after) := by
  rcases writer with ⟨_ | room, taken⟩
  · simp [take]
  · by_cases fits : first.length ≤ room
    · have whole : first.take room = first := List.take_of_length_le fits
      have rest : first.length + second.length ≤ room ↔ second.length ≤ room - first.length := by
        omega
      simp only [take, fits, decide_true, List.length_append, List.take_append, whole, rest,
        Nat.sub_add_eq, List.append_assoc]
    · -- The part that did not fit has filled the writer, so the next one adds nothing.
      have spent : room - first.length = 0 := by omega
      have short : ¬first.length + second.length ≤ room := by omega
      simp only [take, fits, short, decide_false, List.length_append, List.take_append, spent,
        Nat.sub_add_eq, Nat.zero_sub, List.take_zero, List.append_nil]

end Writer

namespace Sending

variable {α β : Type}

theorem run_bind (task : Sending α) (next : α → Sending β) (writer : Writer) :
    (task >>= next).run.run writer =
      match task.run.run writer with
      | (.ok middle, after) => (next middle).run.run after
      | (.error fault, after) => (.error fault, after) := by
  rw [ExceptT.run_bind, StateT.run_bind]
  rcases task.run.run writer with ⟨_ | middle, after⟩ <;> rfl

/-- Run on any writer, the task offers the octets and returns the result. -/
def Offers (task : Sending α) (octets : List UInt8) (result : α) : Prop :=
  ∀ writer, task.run.run writer = writer.offer octets result

theorem offers_pure (result : α) : Offers (pure result) [] result := by
  intro writer
  rw [Writer.offer, Writer.take_nil]
  rfl

theorem Offers.bind {task : Sending α} {next : α → Sending β} {first second : List UInt8}
    {middle : α} {result : β} (earlier : Offers task first middle)
    (later : Offers (next middle) second result) :
    Offers (task >>= next) (first ++ second) result := by
  intro writer
  rw [run_bind, earlier, Writer.offer, Writer.offer, Writer.take_append]
  rcases writer.take first with ⟨_ | _, after⟩
  · rfl
  · exact later after

theorem Offers.returning {task : Sending α} {octets : List UInt8} {middle : α}
    (offers : Offers task octets middle) (compute : α → β) :
    Offers (do return compute (← task)) octets (compute middle) := by
  rw [← List.append_nil octets]
  exact offers.bind (offers_pure (compute middle))

theorem offers_piece (text : List Char) : Offers (piece text) (Text.Utf8.encode text) () := by
  intro writer
  rfl

end Sending

open Sending

def Leaf.line (item : Leaf) : List Char :=
  item.name.toList ++ [' ', '=', ' '] ++ item.text.toList

def headerLine (path : List Char) : List Char :=
  '[' :: (path ++ [']'])

namespace Section

def leafLines : Section → List (List Char)
  | empty => []
  | leaf item rest => item.line :: rest.leafLines
  | branch _ _ _ rest => rest.leafLines

def branchLines (path : List Char) : Section → List (List Char)
  | empty => []
  | leaf _ rest => rest.branchLines path
  | branch name _ child rest =>
    let inner := joinPath path name.toList
    [] :: headerLine inner :: (child.leafLines ++ child.branchLines inner ++ rest.branchLines path)

def lines (root : Section) : List (List Char) :=
  root.leafLines ++ root.branchLines []

end Section

def lineOctets (lines : List (List Char)) : List UInt8 :=
  Text.Utf8.encode (lines.flatMap (· ++ ['\n']))

theorem lineOctets_cons (line : List Char) (rest : List (List Char)) :
    lineOctets (line :: rest) = Text.Utf8.encode (line ++ ['\n']) ++ lineOctets rest := by
  rw [lineOctets, List.flatMap_cons, Text.Utf8.encode_append]
  rfl

theorem lineOctets_append (first second : List (List Char)) :
    lineOctets (first ++ second) = lineOctets first ++ lineOctets second := by
  rw [lineOctets, List.flatMap_append, Text.Utf8.encode_append]
  rfl

theorem Leaf.offers_send (item : Leaf) :
    Offers item.send (Text.Utf8.encode (item.line ++ ['\n'])) () := by
  simp only [Leaf.line, Text.Utf8.encode_append, List.append_assoc]
  refine (offers_piece item.name.toList).bind ?_
  refine (offers_piece [' ', '=', ' ']).bind ?_
  exact (offers_piece item.text.toList).bind (offers_piece ['\n'])

theorem offers_sendHeader (path : List Char) :
    Offers (sendHeader path) (lineOctets [[], headerLine path]) () := by
  have pieces : lineOctets [[], headerLine path] = Text.Utf8.encode ['\n'] ++
      (Text.Utf8.encode ['['] ++ (Text.Utf8.encode path ++ Text.Utf8.encode [']', '\n'])) := by
    simp [lineOctets, headerLine, ← Text.Utf8.encode_append]
  rw [pieces]
  refine (offers_piece ['\n']).bind ?_
  refine (offers_piece ['[']).bind ?_
  exact (offers_piece path).bind (offers_piece [']', '\n'])

namespace Section

def branchLeafCount : Section → Nat
  | empty => 0
  | leaf _ rest => rest.branchLeafCount
  | branch _ _ child rest => child.leafCount + rest.branchLeafCount

theorem length_leafLines (level : Section) :
    level.leafLines.length + level.branchLeafCount = level.leafCount := by
  induction level with
  | empty => rfl
  | leaf item rest ih =>
    rw [leafLines, branchLeafCount, leafCount, List.length_cons, ← ih]
    omega
  | branch name maxLength child rest _ ih =>
    rw [leafLines, branchLeafCount, leafCount, ← ih]
    omega

theorem offers_sendLeaves (level : Section) :
    Offers level.sendLeaves (lineOctets level.leafLines) level.leafLines.length := by
  induction level with
  | empty => exact offers_pure 0
  | leaf item rest ih =>
    rw [leafLines, lineOctets_cons]
    exact item.offers_send.bind (ih.returning (· + 1))
  | branch name maxLength child rest _ ih => exact ih

theorem offers_sendBranches (level : Section) (path : List Char) :
    Offers (level.sendBranches path) (lineOctets (level.branchLines path))
      level.branchLeafCount := by
  induction level generalizing path with
  | empty => exact offers_pure 0
  | leaf item rest ih => exact ih path
  | branch name maxLength child rest ihChild ihRest =>
    -- The lines are grouped by the tasks that send them.
    have lines : (branch name maxLength child rest).branchLines path =
        [[], headerLine (joinPath path name.toList)] ++ (child.leafLines ++
          (child.branchLines (joinPath path name.toList) ++ rest.branchLines path)) := by
      rw [branchLines, List.append_assoc]
      rfl
    rw [lines, lineOctets_append, lineOctets_append, lineOctets_append, branchLeafCount,
      ← length_leafLines]
    refine (offers_sendHeader _).bind ?_
    refine (offers_sendLeaves child).bind ?_
    refine (ihChild _).bind ?_
    exact (ihRest path).returning (child.leafLines.length + child.branchLeafCount + ·)

theorem offers_send (root : Section) : Offers root.send (lineOctets root.lines) root.leafCount := by
  rw [lines, lineOctets_append, ← length_leafLines]
  refine (offers_sendLeaves root).bind ?_
  exact (offers_sendBranches root []).returning (root.leafLines.length + ·)

theorem taken_write (root : Section) : (root.write {}).2.taken = lineOctets root.lines :=
  congrArg (·.2.taken) (offers_send root {})

/-- Rendering joins the lines of a tree with a line feed after each. -/
theorem render_eq (root : Section) :
    root.render = String.ofList (root.lines.flatMap (· ++ ['\n'])) := by
  rw [render, taken_write, lineOctets, Text.Utf8.decode_encode]

theorem octets_eq (root : Section) : root.octets = lineOctets root.lines := by
  rw [octets, render_eq, String.toList_ofList]
  rfl

theorem write_eq_offer (root : Section) (writer : Writer) :
    root.write writer = writer.offer root.octets root.leafCount := by
  rw [octets_eq]
  exact offers_send root writer

/-- A writer without a limit takes the whole text, and every leaf is counted. -/
theorem write_of_unlimited (root : Section) {writer : Writer} (unlimited : writer.room = none) :
    root.write writer =
      (.ok root.leafCount, { writer with taken := writer.taken ++ root.octets }) := by
  rw [write_eq_offer, Writer.offer, Writer.take, unlimited]

/-- Saving a tree replaces the contents of a file with the text of the tree. -/
theorem saveFile_eq (root : Section) (store : Store) (path : String) :
    root.saveFile store path =
      match store.write path root.octets with
      | .ok after => (.ok root.leafCount, after)
      | .error cause => (.error (.storage cause), store) := by
  rw [saveFile, write_of_unlimited root rfl]
  rfl

/-- A writer with room for some octets takes as many octets from the beginning of the text of a
tree. If that is the whole text, the number of all leaves is returned, and otherwise the fault of a
full writer. -/
theorem write_of_limited (root : Section) (room : Nat) :
    (root.write { room := some room }).2.taken =
        root.octets.take (min room root.octets.length) ∧
      ((root.write { room := some room }).1 = .ok root.leafCount ↔ root.octets.length ≤ room) ∧
      ((root.write { room := some room }).1 = .error (.storage .full) ↔
        room < root.octets.length) := by
  have part : root.octets.take room = root.octets.take (min room root.octets.length) := by
    rw [← List.take_eq_take_min]
  rw [write_eq_offer, Writer.offer, Writer.take, ← part]
  by_cases fits : root.octets.length ≤ room
  · have unfilled : ¬room < root.octets.length := Nat.not_lt.mpr fits
    simp [fits, unfilled]
  · have filled : room < root.octets.length := Nat.not_le.mp fits
    simp [fits, filled]

end Section

end ConfigTree
