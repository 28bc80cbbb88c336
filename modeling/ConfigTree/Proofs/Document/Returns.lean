import ConfigTree.Proofs.Codec.Trailing
import ConfigTree.Proofs.Document.Assigned
import ConfigTree.Proofs.Document.Grammar
import ConfigTree.Proofs.Text.Ascii
import ConfigTree.Proofs.Tree.Changes

/-!
Carriage returns before line feeds. In front of a line feed a carriage return is one more blank
where a line may end in blanks, one more octet of a comment, and in an assignment one more character
of the value. No kind looks at white space behind a value, so to a loader the two ways to end a line
are the same.

Main statement: `Section.load_withReturns`.
-/

namespace ConfigTree.Document

def carriageReturn : UInt8 := 0x0D

def withReturns (octets : List UInt8) : List UInt8 :=
  octets.flatMap fun b => if b = lineFeed then [carriageReturn, lineFeed] else [b]

inductive Returned (line : List UInt8) : List UInt8 → Prop where
  | bare : Returned line line
  | returned : Returned line (line ++ [carriageReturn])

/-- What a line gives, and what it may give with a carriage return behind it. -/
inductive Item.Returned : Except Expectation Item → Except Expectation Item → Prop where
  | same (outcome : Except Expectation Item) : Returned outcome outcome
  | value (name value : String) :
      Returned (.ok (.assignment name value)) (.ok (.assignment name (value ++ "\r")))

/-- A consumer that does not mind a carriage return behind a value. -/
def Consumer.Tolerant {σ : Type} (consumer : Consumer σ) : Prop :=
  ∀ name value number state,
    consumer.assign name (value ++ "\r") number state = consumer.assign name value number state

section
variable {line octets : List UInt8}

theorem withReturns_cons (b : UInt8) (rest : List UInt8) :
    withReturns (b :: rest) =
      (if b = lineFeed then [carriageReturn, lineFeed] else [b]) ++ withReturns rest :=
  List.flatMap_cons

theorem withReturns_append (first second : List UInt8) :
    withReturns (first ++ second) = withReturns first ++ withReturns second :=
  List.flatMap_append

theorem withReturns_of_clean (clean : lineFeed ∉ line) : withReturns line = line := by
  induction line with
  | nil => rfl
  | cons b rest ih =>
    rw [List.mem_cons, not_or] at clean
    rw [withReturns_cons, if_neg (Ne.symm clean.1), ih clean.2, List.singleton_append]

theorem takeWhile_withReturns (octets : List UInt8) :
    (withReturns octets).takeWhile (· ≠ 0) = withReturns (octets.takeWhile (· ≠ 0)) := by
  induction octets with
  | nil => rfl
  | cons b rest ih =>
    rw [withReturns_cons]
    by_cases zero : b = 0
    · subst zero
      rfl
    have kept : ∀ c ∈ (if b = lineFeed then [carriageReturn, lineFeed] else [b]),
        decide (c ≠ 0) = true := by
      intro c member
      split at member
      · revert c
        decide +kernel
      · rw [List.mem_singleton.mp member]
        exact decide_eq_true zero
    have taken : (b :: rest).takeWhile (· ≠ 0) = b :: rest.takeWhile (· ≠ 0) :=
      List.takeWhile_cons_of_pos (decide_eq_true zero)
    rw [List.takeWhile_append_of_pos kept, ih, taken, withReturns_cons]

theorem not_mem_return (clean : lineFeed ∉ line) : lineFeed ∉ line ++ [carriageReturn] := by
  rw [List.mem_append, not_or]
  exact ⟨clean, by decide⟩

theorem splitOn_withReturns (octets : List UInt8) :
    List.Forall₂ Returned (octets.splitOn lineFeed) ((withReturns octets).splitOn lineFeed) := by
  induction octets using Text.splitOn_induction lineFeed with
  | last line clean =>
    rw [withReturns_of_clean clean, List.splitOn_eq_singleton clean]
    exact .cons .bare .nil
  | step line below clean ih =>
    have split : withReturns (line ++ lineFeed :: below) =
        (line ++ [carriageReturn]) ++ lineFeed :: withReturns below := by
      rw [withReturns_append, withReturns_cons, if_pos rfl, withReturns_of_clean clean,
        List.append_assoc]
      rfl
    rw [split, List.splitOn_append_cons_self_of_not_mem clean,
      List.splitOn_append_cons_self_of_not_mem (not_mem_return clean)]
    exact .cons .returned ih

theorem lines_withReturns (octets : List UInt8) :
    List.Forall₂ Returned (lines octets) (lines (withReturns octets)) := by
  rw [lines, lines, takeWhile_withReturns]
  exact splitOn_withReturns _

theorem text_return (octets : List UInt8) :
    text (octets ++ [carriageReturn]) = text octets ++ "\r" := by
  have ending : Text.Utf8.decode [carriageReturn] = ['\r'] := by decide
  rw [text, text, Text.Utf8.decode_append_of_ascii (by decide), ending, String.ofList_append]

end

namespace Grammar

section
variable {before rest : List UInt8}

theorem blanks_return (blank : Blanks before) : Blanks (before ++ [carriageReturn]) := by
  intro b member
  rcases List.mem_append.mp member with inside | last
  · exact blank b inside
  · rw [List.mem_singleton.mp last]
    rfl

theorem avoids_return {p : UInt8 → Bool} (avoids : Avoids p rest)
    (other : p carriageReturn = false) : Avoids p (rest ++ [carriageReturn]) := by
  cases rest with
  | nil => exact Avoids.cons other
  | cons first tail => exact Avoids.cons avoids.head

/-- A carriage return is one more blank where nothing but blanks stands before it, and otherwise
goes to what stands there. -/
theorem exists_blanks_return (blank : Blanks before) (visible : Avoids Text.isLineBlank rest) :
    ∃ gap after, before ++ rest ++ [carriageReturn] = gap ++ after ∧ Blanks gap ∧
      after.head? = rest.head? ∧
      (rest = [] ∧ after = [] ∨ after = rest ++ [carriageReturn]) := by
  cases rest with
  | nil =>
    refine ⟨before ++ [carriageReturn], [], ?_, blanks_return blank, rfl, .inl ⟨rfl, rfl⟩⟩
    rw [List.append_nil, List.append_nil]
  | cons first tail =>
    exact ⟨before, first :: tail ++ [carriageReturn], List.append_assoc _ _ _, blank, rfl, .inr rfl⟩

theorem Avoids.of_head? {p : UInt8 → Bool} {after : List UInt8} (avoids : Avoids p rest)
    (same : after.head? = rest.head?) : Avoids p after := by
  rw [Avoids, same]
  exact avoids

end

theorem Trailer.exists_return {after trailer : List UInt8} (blank : Blanks after)
    (ending : Trailer trailer) :
    ∃ gap words, after ++ trailer ++ [carriageReturn] = gap ++ words ∧ Blanks gap ∧
      Trailer words := by
  cases ending with
  | lineEnd =>
    refine ⟨after ++ [carriageReturn], [], ?_, blanks_return blank, .lineEnd⟩
    rw [List.append_nil, List.append_nil]
  | comment words =>
    exact ⟨after, hash :: (words ++ [carriageReturn]), List.append_assoc _ _ _, blank,
      .comment _⟩

theorem Header.return {body : List UInt8} {outcome : Except Expectation Item}
    (header : Header body outcome) : Header (body ++ [carriageReturn]) outcome := by
  cases header with
  | @path before path between after trailer blank word gap space ending =>
    obtain ⟨more, words, split, blanks, ends⟩ := ending.exists_return space
    have whole : before ++ (path ++ (between ++ closeBracket :: (after ++ trailer))) ++
          [carriageReturn] =
        before ++ (path ++ (between ++ closeBracket :: (more ++ words))) := by
      simp only [← split, List.append_assoc, List.cons_append]
    rw [whole]
    exact .path blank word gap blanks ends
  | noLetter blank visible other =>
    obtain ⟨more, after, split, blanks, same, -⟩ := exists_blanks_return blank visible
    rw [split]
    exact .noLetter blanks (visible.of_head? same) (other.of_head? same)
  | @noBracket before path between rest blank word gap ends visible other =>
    obtain ⟨more, after, split, blanks, same, -⟩ := exists_blanks_return gap visible
    have apart : Avoids isPathOctet (more ++ after) := split ▸ avoids_return ends (by decide)
    have whole : before ++ (path ++ (between ++ rest)) ++ [carriageReturn] =
        before ++ (path ++ (more ++ after)) := by
      simp only [← split, List.append_assoc]
    rw [whole]
    exact .noBracket blank word blanks apart (visible.of_head? same) (other.of_head? same)
  | @noLineEnd before path between after tail next blank word gap space visible other =>
    have whole : before ++ (path ++ (between ++ closeBracket :: (after ++ next :: tail))) ++
          [carriageReturn] =
        before ++ (path ++ (between ++ closeBracket :: (after ++ next ::
          (tail ++ [carriageReturn])))) := by
      simp only [List.append_assoc, List.cons_append]
    rw [whole]
    exact .noLineEnd blank word gap space visible other

theorem Assignment.exists_return {line : List UInt8} {outcome : Except Expectation Item}
    (assignment : Assignment line outcome) :
    ∃ other, Item.Returned outcome other ∧ Assignment (line ++ [carriageReturn]) other := by
  cases assignment with
  | @value name between before value word gap blank visible =>
    obtain ⟨more, after, split, blanks, same, ending⟩ := exists_blanks_return blank visible
    have whole : name ++ (between ++ equalsSign :: (before ++ value)) ++ [carriageReturn] =
        name ++ (between ++ equalsSign :: (more ++ after)) := by
      simp only [← split, List.append_assoc, List.cons_append]
    rw [whole]
    refine ⟨_, ?_, .value word gap blanks (visible.of_head? same)⟩
    rcases ending with ⟨rfl, rfl⟩ | rfl
    · exact .same _
    · rw [text_return]
      exact .value _ _
  | noLetter other => exact ⟨_, .same _, .noLetter (avoids_return other (by decide))⟩
  | @noEquals name between rest word gap ends visible other =>
    obtain ⟨more, after, split, blanks, same, -⟩ := exists_blanks_return gap visible
    have apart : Avoids isNameOctet (more ++ after) := split ▸ avoids_return ends (by decide)
    have whole : name ++ (between ++ rest) ++ [carriageReturn] = name ++ (more ++ after) := by
      simp only [← split, List.append_assoc]
    rw [whole]
    exact ⟨_, .same _, .noEquals word blanks apart (visible.of_head? same) (other.of_head? same)⟩

theorem Means.exists_return {skipping : Bool} {line : List UInt8}
    {outcome : Except Expectation Item} (means : Means skipping line outcome) :
    ∃ other, Item.Returned outcome other ∧ Means skipping (line ++ [carriageReturn]) other := by
  cases means with
  | nothing blank ending =>
    obtain ⟨gap, words, split, blanks, ends⟩ := ending.exists_return blank
    rw [split]
    exact ⟨_, .same _, .nothing blanks ends⟩
  | @header before body outcome blank header =>
    rw [List.append_assoc, List.cons_append]
    exact ⟨_, .same _, .header blank header.return⟩
  | skipped skips blank visible comment bracket =>
    rw [List.append_assoc, List.cons_append]
    exact ⟨_, .same _, .skipped skips blank visible comment bracket⟩
  | assignment reads blank visible comment bracket assignment =>
    obtain ⟨other, returned, assigned⟩ := assignment.exists_return
    rw [List.append_assoc, List.cons_append]
    exact ⟨other, returned, .assignment reads blank visible comment bracket assigned⟩

end Grammar

/-- The value of an assignment is all of a line that a carriage return behind it can change. -/
theorem readLine_return (skipping : Bool) {line : List UInt8} (clean : lineFeed ∉ line) :
    Item.Returned (readLine skipping line) (readLine skipping (line ++ [carriageReturn])) := by
  have means : Grammar.Means skipping line (readLine skipping line) :=
    (Grammar.means_iff clean).mpr rfl
  obtain ⟨other, returned, ended⟩ := means.exists_return
  rw [ended.eq_readLine (not_mem_return clean)]
  exact returned

namespace Consumer

variable {σ : Type} {consumer : Consumer σ}

theorem readLines_of_returned (tolerant : consumer.Tolerant) {pieces others : List (List UInt8)}
    (returned : List.Forall₂ Returned pieces others) (clean : ∀ line ∈ pieces, lineFeed ∉ line)
    (number : Nat) (progress : Progress σ) :
    consumer.readLines number progress others = consumer.readLines number progress pieces := by
  induction returned generalizing number progress with
  | nil => rfl
  | @cons line other rest more first _ ih =>
    have below := ih fun other member => clean other (List.mem_cons_of_mem line member)
    rw [readLines, readLines]
    cases first with
    | bare =>
      cases readLine progress.skipping line with
      | ok item => exact below _ _
      | error expected => rfl
    | returned =>
      -- both lines give the same, or values that the consumer treats alike
      have outcome := readLine_return progress.skipping (clean line List.mem_cons_self)
      revert outcome
      generalize readLine progress.skipping (line ++ [carriageReturn]) = ended
      generalize readLine progress.skipping line = bare
      intro outcome
      cases outcome with
      | same =>
        cases ended with
        | ok item => exact below _ _
        | error expected => rfl
      | value name value =>
        have same : consumer.accept number progress (.assignment name (value ++ "\r")) =
            consumer.accept number progress (.assignment name value) := by
          rw [accept, accept, tolerant]
        dsimp only
        rw [same]
        exact below _ _

/-- A consumer that does not mind carriage returns behind values does not mind them before line
feeds. -/
theorem read_withReturns (tolerant : consumer.Tolerant) (octets : List UInt8) (initial : σ) :
    consumer.read (withReturns octets) initial = consumer.read octets initial := by
  have clean := not_mem_of_mem_splitOn (octets.takeWhile (· ≠ 0))
  rw [read_eq, read_eq, readLines_of_returned tolerant (lines_withReturns octets) clean]

end Consumer

end ConfigTree.Document

namespace ConfigTree

theorem Entry.toOption_decode_append_white {trailer : String}
    (white : ∀ c ∈ trailer.toList, Text.isWhite c = true) (entry : Entry) (text : String) :
    (entry.decode (text ++ trailer)).toOption = (entry.decode text).toOption := by
  cases entry with
  | leaf item =>
    have same := item.kind.read?_append_white white item.maxLength text.toList
    rw [decode, decode, Leaf.decode, Leaf.decode, Kind.decode, Kind.decode, String.toList_append,
      same]
    split
    · cases item.kind.read? item.maxLength text.toList <;> rfl
    · rfl
  | branch name maxLength child => rfl

theorem Section.assign?_append_white {trailer : String}
    (white : ∀ c ∈ trailer.toList, Text.isWhite c = true) (root : Section)
    (path name value : String) :
    root.assign? ⟨path, name, value ++ trailer⟩ = root.assign? ⟨path, name, value⟩ := by
  rw [assign?, assign?]
  dsimp only [bind]
  congr 1
  funext position
  exact root.toOption_editAt? position fun entry => entry.toOption_decode_append_white white value

namespace Loading

theorem tolerant_consumer : consumer.Tolerant := by
  intro name value number loading
  have white : ∀ c ∈ "\r".toList, Text.isWhite c = true := List.all_eq_true.mp (by decide)
  change loading.assign name (value ++ "\r") = loading.assign name value
  rw [assign_eq, assign_eq, Section.assign?_append_white white]

end Loading

/-- A document loads alike whether its lines end in line feeds or in carriage returns and line
feeds. -/
theorem Section.load_withReturns (root : Section) (octets : List UInt8) :
    root.load (Document.withReturns octets) = root.load octets := by
  rw [load, load, Document.Consumer.read_withReturns Loading.tolerant_consumer]

end ConfigTree
