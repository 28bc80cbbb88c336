import ConfigTree.Proofs.Document.Items

/-!
The grammar of a document, as relations between a line and what it gives. A line that leaves the
grammar gives the first expectation that it does not meet.

Main statement: `Consumer.read_eq_iff_reads`. The outcome of reading a document, for every consumer,
is the one that the grammar assigns to its lines.
-/

namespace ConfigTree.Document.Grammar

def Blanks (octets : List UInt8) : Prop :=
  ∀ b ∈ octets, Text.isLineBlank b = true

/-- A letter, and after it octets of a class. -/
def Word (p : UInt8 → Bool) (octets : List UInt8) : Prop :=
  ∃ first tail, octets = first :: tail ∧ isLetter first = true ∧ ∀ b ∈ tail, p b = true

/-- Not begun by an octet of a class. -/
def Avoids (p : UInt8 → Bool) (octets : List UInt8) : Prop :=
  ∀ b ∈ octets.head?, p b = false

/-- The end of a line, or a comment. -/
inductive Trailer : List UInt8 → Prop where
  | lineEnd : Trailer []
  | comment (words : List UInt8) : Trailer (hash :: words)

/-- What a line gives that has an opening bracket before these octets. -/
inductive Header : List UInt8 → Except Expectation Item → Prop where
  | path {before path between after trailer : List UInt8} :
      Blanks before → Word isPathOctet path → Blanks between → Blanks after → Trailer trailer →
      Header (before ++ (path ++ (between ++ closeBracket :: (after ++ trailer))))
        (.ok (.header (text path)))
  | noLetter {before rest : List UInt8} :
      Blanks before → Avoids Text.isLineBlank rest → Avoids isLetter rest →
      Header (before ++ rest) (.error .letter)
  | noBracket {before path between rest : List UInt8} :
      Blanks before → Word isPathOctet path → Blanks between →
      Avoids isPathOctet (between ++ rest) → Avoids Text.isLineBlank rest →
      Avoids (· == closeBracket) rest →
      Header (before ++ (path ++ (between ++ rest))) (.error .closingBracket)
  | noLineEnd {before path between after tail : List UInt8} {next : UInt8} :
      Blanks before → Word isPathOctet path → Blanks between → Blanks after →
      Text.isLineBlank next = false → next ≠ hash →
      Header (before ++ (path ++ (between ++ closeBracket :: (after ++ next :: tail))))
        (.error .lineEnd)

/-- What a line gives that is these octets and neither empty, a comment nor a header. -/
inductive Assignment : List UInt8 → Except Expectation Item → Prop where
  | value {name between before value : List UInt8} :
      Word isNameOctet name → Blanks between → Blanks before → Avoids Text.isLineBlank value →
      Assignment (name ++ (between ++ equalsSign :: (before ++ value)))
        (.ok (.assignment (text name) (text value)))
  | noLetter {rest : List UInt8} : Avoids isLetter rest → Assignment rest (.error .letter)
  | noEquals {name between rest : List UInt8} :
      Word isNameOctet name → Blanks between → Avoids isNameOctet (between ++ rest) →
      Avoids Text.isLineBlank rest → Avoids (· == equalsSign) rest →
      Assignment (name ++ (between ++ rest)) (.error .equalsSign)

/-- What a line gives, in a section that is skipped or in one that is not. -/
inductive Means (skipping : Bool) : List UInt8 → Except Expectation Item → Prop where
  | nothing {before rest : List UInt8} :
      Blanks before → Trailer rest → Means skipping (before ++ rest) (.ok .nothing)
  | header {before body : List UInt8} {outcome : Except Expectation Item} :
      Blanks before → Header body outcome → Means skipping (before ++ openBracket :: body) outcome
  | skipped {before tail : List UInt8} {first : UInt8} :
      skipping = true → Blanks before → Text.isLineBlank first = false → first ≠ hash →
      first ≠ openBracket → Means skipping (before ++ first :: tail) (.ok .nothing)
  | assignment {before tail : List UInt8} {first : UInt8} {outcome : Except Expectation Item} :
      skipping = false → Blanks before → Text.isLineBlank first = false → first ≠ hash →
      first ≠ openBracket → Assignment (first :: tail) outcome →
      Means skipping (before ++ first :: tail) outcome

/-- The outcome of lines, numbered on from a number, for a consumer in a state. -/
inductive Reads {σ : Type} (consumer : Consumer σ) :
    (number : Nat) → (state : σ) → (skipping : Bool) → (count : Nat) → List (List UInt8) →
      Except Fault Nat × σ → Prop where
  | finished {number : Nat} {state : σ} {skipping : Bool} {count : Nat} :
      Reads consumer number state skipping count [] (.ok count, state)
  | nothing {number : Nat} {state : σ} {skipping : Bool} {count : Nat} {line : List UInt8}
      {rest : List (List UInt8)} {outcome : Except Fault Nat × σ} :
      Means skipping line (.ok .nothing) →
      Reads consumer (number + 1) state skipping count rest outcome →
      Reads consumer number state skipping count (line :: rest) outcome
  | header {number : Nat} {state after : σ} {skipping taken : Bool} {count : Nat} {path : String}
      {line : List UInt8} {rest : List (List UInt8)} {outcome : Except Fault Nat × σ} :
      Means skipping line (.ok (.header path)) →
      consumer.openSection path number state = (taken, after) →
      Reads consumer (number + 1) after (!taken) count rest outcome →
      Reads consumer number state skipping count (line :: rest) outcome
  | counted {number : Nat} {state after : σ} {skipping : Bool} {count : Nat}
      {name value : String} {line : List UInt8} {rest : List (List UInt8)}
      {outcome : Except Fault Nat × σ} :
      Means skipping line (.ok (.assignment name value)) →
      consumer.assign name value number state = (true, after) →
      Reads consumer (number + 1) after skipping (count + 1) rest outcome →
      Reads consumer number state skipping count (line :: rest) outcome
  | ignored {number : Nat} {state after : σ} {skipping : Bool} {count : Nat}
      {name value : String} {line : List UInt8} {rest : List (List UInt8)}
      {outcome : Except Fault Nat × σ} :
      Means skipping line (.ok (.assignment name value)) →
      consumer.assign name value number state = (false, after) →
      Reads consumer (number + 1) after skipping count rest outcome →
      Reads consumer number state skipping count (line :: rest) outcome
  | malformed {number : Nat} {state : σ} {skipping : Bool} {count : Nat} {line : List UInt8}
      {rest : List (List UInt8)} {expected : Expectation} :
      Means skipping line (.error expected) →
      Reads consumer number state skipping count (line :: rest)
        (.error (.malformed number expected), state)

theorem Avoids.nil {p : UInt8 → Bool} : Avoids p [] := by
  intro b member
  cases member

theorem Avoids.cons {p : UInt8 → Bool} {first : UInt8} {tail : List UInt8}
    (other : p first = false) : Avoids p (first :: tail) := by
  intro b member
  cases member
  exact other

theorem Avoids.head {p : UInt8 → Bool} {first : UInt8} {tail : List UInt8}
    (avoids : Avoids p (first :: tail)) : p first = false :=
  avoids first rfl

theorem avoids_dropWhile (p : UInt8 → Bool) (octets : List UInt8) :
    Avoids p (octets.dropWhile p) := by
  induction octets with
  | nil => exact Avoids.nil
  | cons first tail ih =>
    rw [List.dropWhile_cons]
    split
    · exact ih
    · next other => exact Avoids.cons (Bool.eq_false_iff.mpr other)

theorem dropWhile_append_of_avoids {p : UInt8 → Bool} {front rest : List UInt8}
    (all : ∀ b ∈ front, p b = true) (avoids : Avoids p rest) :
    (front ++ rest).dropWhile p = rest := by
  rw [Text.dropWhile_append_of_stops front avoids, List.dropWhile_eq_nil_iff.mpr all,
    List.nil_append]

theorem takeWhile_append_of_avoids {p : UInt8 → Bool} {front rest : List UInt8}
    (all : ∀ b ∈ front, p b = true) (avoids : Avoids p rest) :
    (front ++ rest).takeWhile p = front := by
  rw [Text.takeWhile_append_of_stops front avoids, List.takeWhile_eq_self_iff.mpr all]

theorem skipBlanks_of_avoids {before rest : List UInt8} (blank : Blanks before)
    (avoids : Avoids Text.isLineBlank rest) : skipBlanks (before ++ rest) = rest :=
  dropWhile_append_of_avoids blank avoids

theorem exists_blanks (octets : List UInt8) :
    ∃ before rest, octets = before ++ rest ∧ Blanks before ∧ Avoids Text.isLineBlank rest := by
  refine ⟨octets.takeWhile Text.isLineBlank, octets.dropWhile Text.isLineBlank, ?_, ?_, ?_⟩
  · exact List.takeWhile_append_dropWhile.symm
  · exact fun b member => List.mem_takeWhile_imp member
  · exact avoids_dropWhile _ octets

theorem exists_word {p : UInt8 → Bool} {first : UInt8} (letter : isLetter first = true)
    (tail : List UInt8) :
    ∃ word between rest, first :: tail = word ++ (between ++ rest) ∧ Word p word ∧
      Blanks between ∧ Avoids p (between ++ rest) ∧ Avoids Text.isLineBlank rest := by
  obtain ⟨between, rest, split, blank, avoids⟩ := exists_blanks (tail.dropWhile p)
  refine ⟨first :: tail.takeWhile p, between, rest, ?_, ?_, blank, ?_, avoids⟩
  · rw [← split, List.cons_append, List.takeWhile_append_dropWhile]
  · exact ⟨first, _, rfl, letter, fun b member => List.mem_takeWhile_imp member⟩
  · rw [← split]
    exact avoids_dropWhile p tail

/-- A word is ASCII, so it is read as one character for each octet. -/
theorem Word.toList_text {p : UInt8 → Bool} {octets : List UInt8} (word : Word p octets)
    (ascii : ∀ b, p b = true → b < 0x80) :
    (text octets).toList = octets.map fun b => Char.ofNat b.toNat := by
  obtain ⟨first, tail, rfl, letter, all⟩ := word
  apply toList_text_of_ascii
  intro b member
  rcases List.mem_cons.mp member with rfl | inside
  · exact lt_of_isNameOctet (isNameOctet_of_isLetter letter)
  · exact ascii b (all b inside)

theorem not_isLineBlank_of_isLetter {b : UInt8} (letter : isLetter b = true) :
    Text.isLineBlank b = false := by
  by_contra blank
  simp only [Bool.not_eq_false, Text.isLineBlank, Bool.or_eq_true, beq_iff_eq] at blank
  rcases blank with (rfl | rfl) | rfl <;> exact absurd letter (by decide)

section
variable {before path name between rest : List UInt8}

theorem takeHeader_of_word (blank : Blanks before) (word : Word isPathOctet path)
    (gap : Blanks between) (ends : Avoids isPathOctet (between ++ rest))
    (avoids : Avoids Text.isLineBlank rest) :
    takeHeader (before ++ (path ++ (between ++ rest))) =
      match rest with
      | [] => .error .closingBracket
      | next :: after =>
        if next = closeBracket then
          (takeTrailer after).map fun left => (.header (text path), left)
        else .error .closingBracket := by
  obtain ⟨first, tail, rfl, letter, all⟩ := word
  have visible : Avoids Text.isLineBlank (first :: tail ++ (between ++ rest)) :=
    Avoids.cons (not_isLineBlank_of_isLetter letter)
  rw [takeHeader, skipBlanks_of_avoids blank visible]
  simp only [List.cons_append, if_pos letter]
  rw [dropWhile_append_of_avoids all ends, takeWhile_append_of_avoids all ends,
    skipBlanks_of_avoids gap avoids]
  cases rest <;> rfl

theorem takeAssignment_of_word {first : UInt8} {tail : List UInt8}
    (whole : first :: tail = name ++ (between ++ rest)) (word : Word isNameOctet name)
    (gap : Blanks between) (ends : Avoids isNameOctet (between ++ rest))
    (avoids : Avoids Text.isLineBlank rest) :
    takeAssignment first tail =
      match rest with
      | [] => .error .equalsSign
      | next :: after =>
        if next = equalsSign then
          .ok (.assignment (text name) (text ((skipBlanks after).takeWhile (· ≠ lineFeed))),
            skipLine (skipBlanks after))
        else .error .equalsSign := by
  obtain ⟨letter, others, rfl, isLetter, all⟩ := word
  rw [List.cons_append, List.cons.injEq] at whole
  obtain ⟨rfl, rfl⟩ := whole
  rw [takeAssignment, if_pos isLetter, dropWhile_append_of_avoids all ends,
    takeWhile_append_of_avoids all ends, skipBlanks_of_avoids gap avoids]
  cases rest <;> rfl

theorem not_isPathOctet_of_isLineBlank {b : UInt8} (blank : Text.isLineBlank b = true) :
    isPathOctet b = false := by
  simp only [Text.isLineBlank, Bool.or_eq_true, beq_iff_eq] at blank
  rcases blank with (rfl | rfl) | rfl <;> decide

theorem not_isNameOctet_of_isLineBlank {b : UInt8} (blank : Text.isLineBlank b = true) :
    isNameOctet b = false := by
  simp only [Text.isLineBlank, Bool.or_eq_true, beq_iff_eq] at blank
  rcases blank with (rfl | rfl) | rfl <;> decide

theorem avoids_append {p : UInt8 → Bool} (gap : Blanks between)
    (apart : ∀ b, Text.isLineBlank b = true → p b = false) (avoids : Avoids p rest) :
    Avoids p (between ++ rest) := by
  cases between with
  | nil => exact avoids
  | cons first tail => exact Avoids.cons (apart first (gap first List.mem_cons_self))

end

theorem takeTrailer_of_trailer {after trailer : List UInt8} (blank : Blanks after)
    (ending : Trailer trailer) : ∃ left, takeTrailer (after ++ trailer) = .ok left := by
  unfold takeTrailer
  cases ending with
  | lineEnd =>
    rw [skipBlanks_of_avoids blank Avoids.nil]
    exact ⟨_, rfl⟩
  | comment words =>
    rw [skipBlanks_of_avoids blank (Avoids.cons (by decide))]
    exact ⟨_, rfl⟩

theorem Header.eq_takeHeader {body : List UInt8} {outcome : Except Expectation Item}
    (header : Header body outcome) (clean : lineFeed ∉ body) :
    (takeHeader body).map Prod.fst = outcome := by
  cases header with
  | path blank word gap space ending =>
    obtain ⟨left, taken⟩ := takeTrailer_of_trailer space ending
    rw [takeHeader_of_word blank word gap
      (avoids_append gap (fun _ => not_isPathOctet_of_isLineBlank) (Avoids.cons (by decide)))
      (Avoids.cons (by decide))]
    simp only [if_true, taken]
    rfl
  | @noLetter before rest blank visible other =>
    rw [takeHeader, skipBlanks_of_avoids blank visible]
    cases rest with
    | nil => rfl
    | cons first tail =>
      simp only [other.head, Bool.false_eq_true, if_false]
      rfl
  | @noBracket before path between rest blank word gap ends visible other =>
    rw [takeHeader_of_word blank word gap ends visible]
    cases rest with
    | nil => rfl
    | cons next after =>
      have different : next ≠ closeBracket := by simpa using other.head
      simp only [if_neg different]
      rfl
  | @noLineEnd before path between after tail next blank word gap space visible other =>
    have feed : next ≠ lineFeed := by
      rintro rfl
      exact clean (by simp)
    rw [takeHeader_of_word blank word gap
      (avoids_append gap (fun _ => not_isPathOctet_of_isLineBlank) (Avoids.cons (by decide)))
      (Avoids.cons (by decide))]
    simp only [if_true, takeTrailer, skipBlanks_of_avoids space (Avoids.cons visible), if_neg feed,
      if_neg other]
    rfl

theorem Assignment.eq_takeAssignment {first : UInt8} {tail : List UInt8}
    {outcome : Except Expectation Item} (assignment : Assignment (first :: tail) outcome)
    (clean : lineFeed ∉ first :: tail) :
    (takeAssignment first tail).map Prod.fst = outcome := by
  generalize whole : first :: tail = line at assignment clean
  cases assignment with
  | @value name between before value word gap blank visible =>
    have kept : lineFeed ∉ value := fun member => clean (by simp [member])
    rw [takeAssignment_of_word whole word gap
      (avoids_append gap (fun _ => not_isNameOctet_of_isLineBlank) (Avoids.cons (by decide)))
      (Avoids.cons (by decide))]
    simp only [if_true, skipBlanks_of_avoids blank visible, Text.takeWhile_ne_of_not_mem kept]
    rfl
  | noLetter other =>
    subst whole
    rw [takeAssignment, other.head]
    rfl
  | @noEquals name between rest word gap ends visible other =>
    rw [takeAssignment_of_word whole word gap ends visible]
    cases rest with
    | nil => rfl
    | cons next after =>
      have different : next ≠ equalsSign := by simpa using other.head
      simp only [if_neg different]
      rfl

theorem exists_header {body : List UInt8} (clean : lineFeed ∉ body) :
    ∃ outcome, Header body outcome := by
  obtain ⟨before, visible, rfl, blank, avoids⟩ := exists_blanks body
  cases visible with
  | nil => exact ⟨_, .noLetter blank avoids Avoids.nil⟩
  | cons first tail =>
    by_cases letter : isLetter first = true
    · obtain ⟨path, between, rest, whole, word, gap, ends, seen⟩ :=
        exists_word (p := isPathOctet) letter tail
      rw [whole] at clean ⊢
      cases rest with
      | nil => exact ⟨_, .noBracket blank word gap ends seen Avoids.nil⟩
      | cons next after =>
        by_cases closes : next = closeBracket
        · subst closes
          obtain ⟨space, ending, rfl, white, shown⟩ := exists_blanks after
          cases ending with
          | nil => exact ⟨_, .path blank word gap white .lineEnd⟩
          | cons mark words =>
            by_cases comment : mark = hash
            · subst comment
              exact ⟨_, .path blank word gap white (.comment words)⟩
            · exact ⟨_, .noLineEnd blank word gap white shown.head comment⟩
        · have other : Avoids (· == closeBracket) (next :: after) :=
            Avoids.cons (by simpa using closes)
          exact ⟨_, .noBracket blank word gap ends seen other⟩
    · exact ⟨_, .noLetter blank avoids (Avoids.cons (Bool.eq_false_iff.mpr letter))⟩

theorem exists_assignment (first : UInt8) (tail : List UInt8) :
    ∃ outcome, Assignment (first :: tail) outcome := by
  by_cases letter : isLetter first = true
  · obtain ⟨name, between, rest, whole, word, gap, ends, seen⟩ :=
      exists_word (p := isNameOctet) letter tail
    rw [whole]
    cases rest with
    | nil => exact ⟨_, .noEquals word gap ends seen Avoids.nil⟩
    | cons next after =>
      by_cases equals : next = equalsSign
      · subst equals
        obtain ⟨before, value, rfl, blank, visible⟩ := exists_blanks after
        exact ⟨_, .value word gap blank visible⟩
      · have other : Avoids (· == equalsSign) (next :: after) :=
          Avoids.cons (by simpa using equals)
        exact ⟨_, .noEquals word gap ends seen other⟩
  · exact ⟨_, .noLetter (Avoids.cons (Bool.eq_false_iff.mpr letter))⟩

section
variable {skipping : Bool} {line : List UInt8} {outcome : Except Expectation Item}

theorem exists_meaning (skipping : Bool) (clean : lineFeed ∉ line) :
    ∃ outcome, Means skipping line outcome := by
  obtain ⟨before, visible, rfl, blank, avoids⟩ := exists_blanks line
  cases visible with
  | nil => exact ⟨_, .nothing blank .lineEnd⟩
  | cons first tail =>
    by_cases comment : first = hash
    · subst comment
      exact ⟨_, .nothing blank (.comment tail)⟩
    by_cases bracket : first = openBracket
    · subst bracket
      have kept : lineFeed ∉ tail := fun member => clean (by simp [member])
      obtain ⟨outcome, header⟩ := exists_header kept
      exact ⟨outcome, .header blank header⟩
    cases skipping with
    | true => exact ⟨_, .skipped rfl blank avoids.head comment bracket⟩
    | false =>
      obtain ⟨outcome, assignment⟩ := exists_assignment first tail
      exact ⟨outcome, .assignment rfl blank avoids.head comment bracket assignment⟩

theorem Means.eq_readLine (means : Means skipping line outcome) (clean : lineFeed ∉ line) :
    readLine skipping line = outcome := by
  rw [readLine]
  cases means with
  | nothing blank ending =>
    cases ending with
    | lineEnd => rw [skipBlanks_of_avoids blank Avoids.nil]
    | comment words =>
      rw [skipBlanks_of_avoids blank (Avoids.cons (by decide))]
      rfl
  | header blank header =>
    have kept := header.eq_takeHeader fun member => clean (by simp [member])
    rw [skipBlanks_of_avoids blank (Avoids.cons (by decide))]
    exact kept
  | @skipped before tail first skips blank visible comment bracket =>
    have feed : first ≠ lineFeed := by
      rintro rfl
      exact clean (by simp)
    rw [skipBlanks_of_avoids blank (Avoids.cons visible)]
    simp only [takeLine, if_neg feed, if_neg comment, if_neg bracket, if_pos skips]
    rfl
  | @assignment before tail first _ reads blank visible comment bracket assignment =>
    have kept : lineFeed ∉ first :: tail := fun member => clean (List.mem_append_right _ member)
    have feed : first ≠ lineFeed := by
      rintro rfl
      exact kept List.mem_cons_self
    rw [skipBlanks_of_avoids blank (Avoids.cons visible)]
    simp only [takeLine, if_neg feed, if_neg comment, if_neg bracket, reads, Bool.false_eq_true,
      if_false]
    exact assignment.eq_takeAssignment kept

/-- The grammar gives every line exactly one meaning, the one that is read. -/
theorem means_iff (clean : lineFeed ∉ line) :
    Means skipping line outcome ↔ readLine skipping line = outcome := by
  constructor
  · intro means
    exact means.eq_readLine clean
  · rintro rfl
    obtain ⟨outcome, means⟩ := exists_meaning skipping clean
    rw [means.eq_readLine clean]
    exact means

/-- The path of a header has the characters of a word in the line. -/
theorem Means.exists_path_word {path : String} (means : Means skipping line (.ok (.header path))) :
    ∃ word, Word isPathOctet word ∧ word <:+: line ∧
      path.toList = word.map fun b => Char.ofNat b.toNat := by
  cases means with
  | @header before body _ blank header =>
    cases header with
    | @path inner path between after trailer _ word =>
      refine ⟨path, word, ?_, word.toList_text fun _ => lt_of_isPathOctet⟩
      refine ⟨before ++ openBracket :: inner, between ++ closeBracket :: (after ++ trailer), ?_⟩
      simp
  | @assignment before tail first _ _ _ _ _ _ assignment =>
    generalize first :: tail = rest at assignment
    cases assignment

theorem Means.exists_name_word {name value : String}
    (means : Means skipping line (.ok (.assignment name value))) :
    ∃ word rest, Word isNameOctet word ∧ word <:+: line ∧
      (name.toList = word.map fun b => Char.ofNat b.toNat) ∧
      value = text rest ∧ Avoids Text.isLineBlank rest := by
  cases means with
  | header _ header => cases header
  | @assignment before tail first _ _ _ _ _ _ assignment =>
    generalize first :: tail = rest at assignment
    cases assignment with
    | @value name between after value word _ _ visible =>
      refine ⟨name, value, word, ?_, word.toList_text fun _ => lt_of_isNameOctet, rfl, visible⟩
      exact ⟨before, between ++ equalsSign :: (after ++ value), by simp⟩

end

end ConfigTree.Document.Grammar

namespace ConfigTree.Document.Consumer
open Grammar

variable {σ : Type}

theorem reads_readLines (consumer : Consumer σ) (number : Nat) (progress : Progress σ)
    {pieces : List (List UInt8)} (clean : ∀ line ∈ pieces, lineFeed ∉ line) :
    Reads consumer number progress.state progress.skipping progress.count pieces
      ((consumer.readLines number progress pieces).1.outcome
        (consumer.readLines number progress pieces).2) := by
  induction pieces generalizing number progress with
  | nil => exact .finished
  | cons line rest ih =>
    have below : ∀ other ∈ rest, lineFeed ∉ other :=
      fun other member => clean other (List.mem_cons_of_mem _ member)
    have means : Means progress.skipping line (readLine progress.skipping line) :=
      (means_iff (clean line List.mem_cons_self)).mpr rfl
    rw [readLines]
    cases given : readLine progress.skipping line with
    | error expected =>
      rw [given] at means
      exact .malformed means
    | ok item =>
      rw [given] at means
      have later := ih (number + 1) (consumer.accept number progress item) below
      cases item with
      | nothing => exact .nothing means later
      | header path => exact .header means rfl later
      | assignment name value =>
        cases answer : consumer.assign name value number progress.state with
        | mk counts state =>
          simp only [accept, answer] at later ⊢
          cases counts with
          | true => exact .counted means answer later
          | false => exact .ignored means answer later

theorem readLines_of_reads {consumer : Consumer σ} {number : Nat} {state : σ} {skipping : Bool}
    {count : Nat} {pieces : List (List UInt8)} {outcome : Except Fault Nat × σ}
    (reads : Reads consumer number state skipping count pieces outcome)
    (clean : ∀ line ∈ pieces, lineFeed ∉ line) :
    let (after, fault) := consumer.readLines number ⟨state, skipping, count⟩ pieces
    after.outcome fault = outcome := by
  induction reads with
  | finished => rfl
  | nothing means _ ih =>
    have given := means.eq_readLine (clean _ List.mem_cons_self)
    simp only [readLines, given, accept]
    exact ih fun other member => clean other (List.mem_cons_of_mem _ member)
  | header means answer _ ih =>
    have given := means.eq_readLine (clean _ List.mem_cons_self)
    simp only [readLines, given, accept, answer]
    exact ih fun other member => clean other (List.mem_cons_of_mem _ member)
  | counted means answer _ ih =>
    have given := means.eq_readLine (clean _ List.mem_cons_self)
    simp only [readLines, given, accept, answer, if_true]
    exact ih fun other member => clean other (List.mem_cons_of_mem _ member)
  | ignored means answer _ ih =>
    have given := means.eq_readLine (clean _ List.mem_cons_self)
    simp only [readLines, given, accept, answer, Bool.false_eq_true, if_false]
    exact ih fun other member => clean other (List.mem_cons_of_mem _ member)
  | malformed means =>
    have given := means.eq_readLine (clean _ List.mem_cons_self)
    simp only [readLines, given]
    rfl

/-- Reading accepts exactly the grammar: a document has the outcome that the grammar assigns to its
lines and no other, whatever the consumer answers. -/
theorem read_eq_iff_reads (consumer : Consumer σ) (octets : List UInt8) (initial : σ)
    (outcome : Except Fault Nat × σ) :
    consumer.read octets initial = outcome ↔
      Reads consumer 1 initial false 0 (lines octets) outcome := by
  have clean := not_mem_of_mem_splitOn (octets.takeWhile (· ≠ 0))
  rw [read_eq]
  constructor
  · rintro rfl
    exact reads_readLines consumer 1 { state := initial } clean
  · intro reads
    exact readLines_of_reads reads clean

example :
    let octets := Text.Utf8.encode "[a_1/B] # b\n x-1.y\t= \u00e9 # c".toList ++ [0xFF]
    let keeper : Consumer (List Item) := {
      openSection := fun path _ items => (true, items ++ [.header path])
      assign := fun name value _ items => (true, items ++ [.assignment name value]) }
    keeper.read octets [] =
      (.ok 1, [.header "a_1/B", .assignment "x-1.y" "\u00e9 # c\uFFFD"]) := by
  decide +kernel

end ConfigTree.Document.Consumer
