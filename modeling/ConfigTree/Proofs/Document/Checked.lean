import ConfigTree.Document.Load
import ConfigTree.Document.Outline
import ConfigTree.Proofs.Document.Items
import ConfigTree.Proofs.Tree.Shape

/-!
Checking a document without a tree. The recorder of an outline takes every section, so it reads
every line that any other consumer reads, and reads it in the same way. What another consumer skips
is the only place where the two can part. The recorder keeps the section that it is in beside the
headers, and at every point of a document this is the section of the last one
(`Document.Recording`).

Main statement: `Section.load_and_outline`, on loading a document and on recording it.
-/

namespace ConfigTree

/-- The current section is that of the last header, or the root if there is none. -/
def Outline.InLast (outline : Outline) : Prop :=
  outline.current = (outline.headers.getLast?.map Header.path).getD ""

namespace Document

/-- What holds of the recorder wherever it has come to in a document: it passes over no section, and
it is in the section of the last header. -/
structure Recording (progress : Progress Outline) : Prop where
  taken : progress.skipping = false
  inLast : progress.state.InLast

namespace Recording

theorem start : Recording { state := {} } :=
  ⟨rfl, rfl⟩

variable {progress : Progress Outline} (recording : Recording progress)
include recording

/-- A header moves the recorder into its section, and no other line moves it. -/
theorem accept (number : Nat) (item : Item) :
    Recording (Outline.recorder.accept number progress item) := by
  cases item with
  | nothing => exact recording
  | header path =>
    refine ⟨rfl, ?_⟩
    simp only [Consumer.accept, Outline.recorder, Outline.InLast, Outline.addHeader,
      List.getLast?_concat]
    rfl
  | assignment name value => exact ⟨recording.taken, recording.inLast⟩

theorem readLines (number : Nat) (pieces : List (List UInt8)) :
    Recording (Outline.recorder.readLines number progress pieces).1 := by
  apply Outline.recorder.readLines_invariant Recording pieces
  · intro line _ number progress item _ recording
    exact recording.accept number item
  · exact recording

end Recording

section
variable {σ : Type} {consumer : Consumer σ} {number line : Nat} {first : Progress σ}
  {second after : Progress Outline} {pieces : List (List UInt8)} {expected : Expectation}

theorem le_of_malformed
    (failed : (consumer.readLines number first pieces).2 = some (.malformed line expected)) :
    number ≤ line := by
  obtain ⟨before, _, _, _, _, _, _, fault⟩ := Consumer.exists_of_malformed (Prod.ext rfl failed)
  cases fault
  exact Nat.le_add_right number before.length

theorem count_accept_le (consumer : Consumer σ) (number : Nat) (first : Progress σ)
    (second : Progress Outline) (item : Item) (skipping : Bool) :
    (consumer.accept number first (item.seen skipping)).count +
        second.state.assignments.length ≤
      first.count + (Outline.recorder.accept number second item).state.assignments.length := by
  cases item with
  | nothing => cases skipping <;> exact Nat.le_refl _
  | header path => cases skipping <;> exact Nat.le_refl _
  | assignment name value =>
    have recorded : (Outline.recorder.accept number second
        (.assignment name value)).state.assignments.length =
          second.state.assignments.length + 1 := List.length_append
    rw [recorded]
    cases skipping with
    | true => exact Nat.add_le_add_left (Nat.le_succ _) first.count
    | false =>
      simp only [Item.seen, Consumer.accept]
      split <;> omega

theorem readLines_of_recorded (consumer : Consumer σ) (first : Progress σ)
    (recording : Recording second)
    (recorded : Outline.recorder.readLines number second pieces = (after, none)) :
    ∃ done, consumer.readLines number first pieces = (done, none) ∧
      done.count + second.state.assignments.length ≤
        first.count + after.state.assignments.length := by
  induction pieces generalizing number first second with
  | nil =>
    cases recorded
    exact ⟨first, rfl, Nat.le_refl _⟩
  | cons head rest ih =>
    rw [Consumer.readLines, recording.taken] at recorded
    cases given : readLine false head with
    | error expected => rw [given] at recorded; cases recorded
    | ok item =>
      rw [given] at recorded
      have step := count_accept_le consumer number first second item first.skipping
      obtain ⟨done, read, bound⟩ := ih (consumer.accept number first (item.seen first.skipping))
        (recording.accept number item) recorded
      rw [Consumer.readLines, readLine_of_ok given]
      exact ⟨done, read, by omega⟩

theorem recorded_of_malformed (second : Progress Outline)
    (recording : Recording second)
    (failed : (consumer.readLines number first pieces).2 = some (.malformed line expected)) :
    ∃ earlier ≤ line, ∃ other,
      (Outline.recorder.readLines number second pieces).2 = some (.malformed earlier other) := by
  induction pieces generalizing number first second with
  | nil => cases failed
  | cons head rest ih =>
    have bound := le_of_malformed failed
    rw [Consumer.readLines] at failed
    rw [Consumer.readLines, recording.taken]
    cases given : readLine false head with
    | error other => exact ⟨number, bound, other, rfl⟩
    | ok item =>
      rw [readLine_of_ok given] at failed
      exact ih _ (recording.accept number item) failed

/-- Where the recorder stops, another consumer stops with the same fault, or it is skipping. -/
theorem malformed_or_skipping (consumer : Consumer σ) (first : Progress σ)
    (recording : Recording second)
    (recorded : (Outline.recorder.readLines number second pieces).2 =
      some (.malformed line expected)) :
    (consumer.readLines number first pieces).2 = some (.malformed line expected) ∨
      ∃ before bad below done, pieces = before ++ bad :: below ∧ number + before.length = line ∧
        ¬IsHeader bad ∧ consumer.readLines number first before = (done, none) ∧
        done.skipping = true := by
  obtain ⟨before, bad, below, other, rfl, reached, refused, fault⟩ :=
    Consumer.exists_of_malformed (Prod.ext rfl recorded)
  cases fault
  have still := recording.readLines number before
  rw [reached] at still
  rw [still.taken] at refused
  obtain ⟨done, read, -⟩ := readLines_of_recorded consumer first recording reached
  by_cases passed : done.skipping = true ∧ ¬IsHeader bad
  · exact .inr ⟨before, bad, below, done, rfl, rfl, passed.2, read, passed.1⟩
  · have again : readLine done.skipping bad = .error expected := by
      by_cases header : IsHeader bad
      · rw [readLine_of_isHeader header done.skipping false, refused]
      · have taken : done.skipping = false := by simpa [header] using passed
        rw [taken, refused]
    rw [Consumer.readLines_of_malformed read again]
    exact .inl rfl

end

end Document

namespace Loading
open Document

theorem openSection_spec (path : String) (loading : Loading) :
    (loading.openSection path).1 = (loading.root.section? path).isSome ∧
      (loading.openSection path).2.root = loading.root := by
  rw [openSection, Section.requireSection, Section.section?]
  cases loading.root.entry? path with
  | none => exact ⟨rfl, rfl⟩
  | some entry => cases entry <;> exact ⟨rfl, rfl⟩

theorem unbound_assign (name value : String) (loading : Loading) :
    (loading.assign name value).2.root.unbound = loading.root.unbound := by
  unfold assign
  dsimp only
  split
  · next root edited =>
    simp only [Section.editNamed?, bind, Option.bind_eq_some_iff] at edited
    obtain ⟨position, _, level, _, index, _, result⟩ := edited
    exact Section.unbound_of_editAt? (fun _ _ => Entry.unbound_of_decode) result
  · rfl

theorem unbound_accept (number : Nat) (progress : Progress Loading) (item : Item) :
    (consumer.accept number progress item).state.root.unbound = progress.state.root.unbound := by
  cases item with
  | nothing => rfl
  | header path => exact congrArg Section.unbound (openSection_spec path progress.state).2
  | assignment name value => exact unbound_assign name value progress.state

theorem skipping_readLines {number : Nat} {first done : Progress Loading}
    {pieces : List (List UInt8)} (read : consumer.readLines number first pieces = (done, none)) :
    done.skipping =
      match lastHeader? pieces with
      | none => first.skipping
      | some path => (first.state.root.section? path).isNone := by
  induction pieces generalizing number first with
  | nil =>
    cases read
    rfl
  | cons line rest ih =>
    rw [Consumer.readLines] at read
    cases given : readLine first.skipping line with
    | error expected => rw [given] at read; cases read
    | ok item =>
      rw [given] at read
      rw [ih read, lastHeader?_cons, headerPath?_of_ok given]
      cases lastHeader? rest with
      | some path =>
        have shape := unbound_accept number first item
        have same := Section.isSome_section?_of_unbound shape path
        simp only [Option.some_or, ← Option.not_isSome, same]
      | none =>
        cases item with
        | nothing => rfl
        | header path =>
          have taken := (openSection_spec path first.state).1
          simp only [Option.none_or, Item.path?, Consumer.accept, consumer, taken,
            Option.not_isSome]
        | assignment name value => rfl

end Loading

open Document (IsHeader lastHeader?)

theorem Outline.read_of_readLines {octets : List UInt8} {after : Document.Progress Outline}
    {fault : Option Fault}
    (read : recorder.readLines 1 { state := {} } (Document.lines octets) = (after, fault)) :
    Outline.read octets = (after.outcome fault).1.map fun _ => after.state.finish := by
  rw [Outline.read, Document.Consumer.read_eq, read]
  cases fault <;> rfl

theorem Outline.readLines_of_read {octets : List UInt8} {outline : Outline}
    (read : Outline.read octets = .ok outline) :
    ∃ after : Document.Progress Outline,
      recorder.readLines 1 { state := {} } (Document.lines octets) = (after, none) ∧
        after.state.finish = outline := by
  rcases recorded : recorder.readLines 1 { state := {} } (Document.lines octets) with
    ⟨after, fault⟩
  rw [read_of_readLines recorded] at read
  cases fault with
  | some fault => cases read
  | none =>
    cases read
    exact ⟨after, rfl, rfl⟩

theorem Section.load_of_readLines {root : Section} {octets : List UInt8}
    {done : Document.Progress Loading} {fault : Option Fault}
    (read : Loading.consumer.readLines 1 { state := { root } } (Document.lines octets) =
      (done, fault)) :
    root.load octets = ((done.outcome fault).1, done.state.root) := by
  rw [load, Document.Consumer.read_eq, read]
  cases fault <;> rfl

namespace Section
variable {root : Section} {octets : List UInt8} {line : Nat} {expected : Expectation}

theorem load_of_read {outline : Outline} (root : Section)
    (read : Outline.read octets = .ok outline) :
    ∃ count ≤ outline.assignments.length, (root.load octets).1 = .ok count := by
  obtain ⟨after, recorded, rfl⟩ := Outline.readLines_of_read read
  obtain ⟨done, loading, bound⟩ :=
    Document.readLines_of_recorded Loading.consumer { state := { root } } .start recorded
  rw [load_of_readLines loading]
  exact ⟨done.count, bound.trans_eq (Nat.zero_add _), rfl⟩

theorem read_of_malformed (failed : (root.load octets).1 = .error (.malformed line expected)) :
    ∃ earlier ≤ line, ∃ other, Outline.read octets = .error (.malformed earlier other) := by
  rcases loading : Loading.consumer.readLines 1 { state := { root } } (Document.lines octets) with
    ⟨done, loaded⟩
  rw [load_of_readLines loading] at failed
  cases loaded with
  | none => cases failed
  | some fault =>
    cases failed
    have stopped := congrArg Prod.snd loading
    obtain ⟨earlier, bound, other, fault⟩ :=
      Document.recorded_of_malformed { state := {} } .start stopped
    rcases recording : Outline.recorder.readLines 1 { state := {} } (Document.lines octets) with
      ⟨after, recorded⟩
    rw [recording] at fault
    cases fault
    refine ⟨earlier, bound, other, ?_⟩
    rw [Outline.read_of_readLines recording]
    rfl

theorem load_of_malformed (root : Section)
    (failed : Outline.read octets = .error (.malformed line expected)) :
    (root.load octets).1 = .error (.malformed line expected) ∨
      ∃ before bad below path, Document.lines octets = before ++ bad :: below ∧
        before.length + 1 = line ∧ ¬IsHeader bad ∧ lastHeader? before = some path ∧
        root.section? path = none := by
  rcases recording : Outline.recorder.readLines 1 { state := {} } (Document.lines octets) with
    ⟨after, recorded⟩
  rw [Outline.read_of_readLines recording] at failed
  cases recorded with
  | none => cases failed
  | some fault =>
    cases failed
    have stopped := congrArg Prod.snd recording
    rcases Document.malformed_or_skipping Loading.consumer { state := { root } } .start stopped with
      same | skipped
    · rcases loading : Loading.consumer.readLines 1 { state := { root } }
        (Document.lines octets) with ⟨done, loaded⟩
      rw [loading] at same
      cases same
      rw [load_of_readLines loading]
      exact Or.inl rfl
    · obtain ⟨before, bad, below, reached, whole, position, plain, read, skips⟩ := skipped
      rw [Loading.skipping_readLines read] at skips
      cases header : lastHeader? before with
      | none => rw [header] at skips; cases skips
      | some path =>
        rw [header] at skips
        refine Or.inr ⟨before, bad, below, path, whole, ?_, plain, header, ?_⟩
        · omega
        · exact Option.isNone_iff_eq_none.mp skips

/-- A document that has an outline loads into every tree, with no more assignments applied than
recorded. Where loading fails, recording has failed in that line or before. Where recording fails,
loading fails in the same way, or the line stands in a section that the tree does not have. -/
theorem load_and_outline (root : Section) (octets : List UInt8) :
    (∀ outline, Outline.read octets = .ok outline →
      ∃ count ≤ outline.assignments.length, (root.load octets).1 = .ok count) ∧
    (∀ line expected, (root.load octets).1 = .error (.malformed line expected) →
      ∃ earlier ≤ line, ∃ other, Outline.read octets = .error (.malformed earlier other)) ∧
    (∀ line expected, Outline.read octets = .error (.malformed line expected) →
      (root.load octets).1 = .error (.malformed line expected) ∨
        ∃ before bad below path, Document.lines octets = before ++ bad :: below ∧
          before.length + 1 = line ∧ ¬IsHeader bad ∧ lastHeader? before = some path ∧
          root.section? path = none) := by
  refine ⟨?_, ?_, ?_⟩
  · intro outline read
    exact load_of_read root read
  · intro line expected failed
    exact read_of_malformed failed
  · intro line expected failed
    exact load_of_malformed root failed

theorem load_and_outline_of_flag :
    let root := branch "a" 0 (leaf { name := "x", kind := .boolean } empty) empty
    let taken := Text.Utf8.encode "[a]\nx = 1".toList
    let broken := Text.Utf8.encode "[a]\nx 1".toList
    let skipped := Text.Utf8.encode "[b]\nx 1".toList
    (∃ count ≤ 1, (root.load taken).1 = .ok count) ∧
      (∃ earlier ≤ 2, ∃ other, Outline.read broken = .error (.malformed earlier other)) ∧
      ((root.load skipped).1 = .error (.malformed 2 .equalsSign) ∨
        ∃ before bad below path, Document.lines skipped = before ++ bad :: below ∧
          before.length + 1 = 2 ∧ ¬IsHeader bad ∧ lastHeader? before = some path ∧
          root.section? path = none) := by
  intro root taken broken skipped
  have outlined : Outline.read taken =
      .ok { headers := [⟨"a", 1⟩], assignments := [⟨"a", "x", "1", 2⟩] } := by decide +kernel
  have refused : (root.load broken).1 = .error (.malformed 2 .equalsSign) := by decide +kernel
  have unread : Outline.read skipped = .error (.malformed 2 .equalsSign) := by decide +kernel
  refine ⟨(load_and_outline root taken).1 _ outlined, ?_, ?_⟩
  · exact (load_and_outline root broken).2.1 2 .equalsSign refused
  · exact (load_and_outline root skipped).2.2 2 .equalsSign unread

end Section

end ConfigTree
