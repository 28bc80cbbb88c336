import ConfigTree.Document.Reader
import ConfigTree.Proofs.Text.Runs

/-!
A document line by line. Its lines are what stands between the line feeds before the first NUL, and
each of them is read by itself. The cursor of the reader crosses from one line to the next in three
ways: at the line feed, at the end of the document, and over the rest of a line that it passes over.

Main statement: `Consumer.scan_eq_readLines`, reading with the cursor is reading line by line.
-/

namespace ConfigTree.Document

def lines (octets : List UInt8) : List (List UInt8) :=
  (octets.takeWhile (· ≠ 0)).splitOn lineFeed

def ofLines (pieces : List (List UInt8)) : List UInt8 :=
  pieces.flatMap (· ++ [lineFeed])

def readLine (skipping : Bool) (line : List UInt8) : Except Expectation Item :=
  match skipBlanks line with
  | [] => .ok .nothing
  | first :: tail => (takeLine skipping first tail).map Prod.fst

theorem not_mem_of_mem_splitOn (octets : List UInt8) :
    ∀ line ∈ octets.splitOn lineFeed, lineFeed ∉ line := by
  induction octets using Text.splitOn_induction lineFeed with
  | last octets clean =>
    intro line member
    rw [List.splitOn_eq_singleton clean, List.mem_singleton] at member
    exact member ▸ clean
  | step first below clean ih =>
    intro line member
    rw [List.splitOn_append_cons_self_of_not_mem clean] at member
    rcases List.mem_cons.mp member with same | later
    · exact same ▸ clean
    · exact ih line later

theorem mem_of_mem_splitOn {octets line : List UInt8} {b : UInt8}
    (piece : line ∈ octets.splitOn lineFeed) (member : b ∈ line) : b ∈ octets := by
  induction octets using Text.splitOn_induction lineFeed with
  | last octets clean =>
    rw [List.splitOn_eq_singleton clean, List.mem_singleton] at piece
    exact piece ▸ member
  | step first below clean ih =>
    rw [List.splitOn_append_cons_self_of_not_mem clean] at piece
    rcases List.mem_cons.mp piece with rfl | later
    · exact List.mem_append_left _ member
    · exact List.mem_append_right _ (List.mem_cons_of_mem _ (ih later))

theorem clean_of_mem_lines {octets line : List UInt8} (piece : line ∈ lines octets) :
    lineFeed ∉ line ∧ 0 ∉ line := by
  refine ⟨not_mem_of_mem_splitOn _ line piece, ?_⟩
  intro member
  have nonzero := List.mem_takeWhile_imp (mem_of_mem_splitOn piece member)
  simp at nonzero

theorem lines_ofLines {pieces : List (List UInt8)}
    (clean : ∀ line ∈ pieces, lineFeed ∉ line ∧ 0 ∉ line) :
    lines (ofLines pieces) = pieces ++ [[]] := by
  have whole : ∀ b ∈ ofLines pieces, decide (b ≠ 0) = true := by
    intro b member
    apply decide_eq_true
    intro zero
    obtain ⟨line, inside, own⟩ := List.mem_flatMap.mp member
    rw [zero] at own
    rcases List.mem_append.mp own with nul | feed
    · exact (clean line inside).2 nul
    · exact absurd feed (by decide)
  rw [lines, List.takeWhile_eq_self_iff.mpr whole]
  exact Text.splitOn_flatMap fun line member => (clean line member).1

/-- What may stand after a line: the end of the document, or a line feed and further lines. -/
inductive EndsLine : List UInt8 → Prop where
  | document : EndsLine []
  | line (below : List UInt8) : EndsLine (lineFeed :: below)

theorem EndsLine.stops {p : UInt8 → Bool} {rest : List UInt8} (ends : EndsLine rest)
    (feed : p lineFeed = false) : ∀ b ∈ rest.head?, p b = false := by
  intro b first
  cases ends with
  | document => cases first
  | line below =>
    cases first
    exact feed

theorem dropWhile_append_of_endsLine {p : UInt8 → Bool} {rest : List UInt8} (line : List UInt8)
    (ends : EndsLine rest) (feed : p lineFeed = false) :
    (line ++ rest).dropWhile p = line.dropWhile p ++ rest :=
  Text.dropWhile_append_of_stops line (ends.stops feed)

theorem takeWhile_append_of_endsLine {p : UInt8 → Bool} {rest : List UInt8} (line : List UInt8)
    (ends : EndsLine rest) (feed : p lineFeed = false) :
    (line ++ rest).takeWhile p = line.takeWhile p :=
  Text.takeWhile_append_of_stops line (ends.stops feed)

section
variable {line rest : List UInt8}

theorem skipBlanks_append (line : List UInt8) (ends : EndsLine rest) :
    skipBlanks (line ++ rest) = skipBlanks line ++ rest :=
  dropWhile_append_of_endsLine line ends (by decide)

theorem not_mem_of_skipBlanks (clean : lineFeed ∉ line) : lineFeed ∉ skipBlanks line :=
  fun member => clean ((List.dropWhile_suffix _).subset member)

theorem skipLine_append (clean : lineFeed ∉ line) (ends : EndsLine rest) :
    skipLine (line ++ rest) = rest.drop 1 := by
  rw [skipLine, dropWhile_append_of_endsLine line ends (by decide),
    Text.dropWhile_ne_of_not_mem clean, List.nil_append]

theorem takeTrailer_append (clean : lineFeed ∉ line) (ends : EndsLine rest) :
    takeTrailer (line ++ rest) = (takeTrailer line).map fun _ => rest.drop 1 := by
  have kept := not_mem_of_skipBlanks clean
  unfold takeTrailer
  rw [skipBlanks_append line ends]
  cases skipped : skipBlanks line with
  | nil =>
    cases ends with
    | document => rfl
    | line below => rfl
  | cons next after =>
    rw [skipped, List.mem_cons, not_or] at kept
    have other : next ≠ lineFeed := Ne.symm kept.1
    simp only [List.cons_append, if_neg other]
    split
    · rw [skipLine_append kept.2 ends]
      rfl
    · rfl

theorem takeHeader_append (clean : lineFeed ∉ line) (ends : EndsLine rest) :
    takeHeader (line ++ rest) =
      (takeHeader line).map fun (item, _) => (item, rest.drop 1) := by
  have kept := not_mem_of_skipBlanks clean
  unfold takeHeader
  rw [skipBlanks_append line ends]
  cases skipped : skipBlanks line with
  | nil =>
    cases ends with
    | document => rfl
    | line below => rfl
  | cons first tail =>
    rw [skipped, List.mem_cons, not_or] at kept
    have below : lineFeed ∉ skipBlanks (tail.dropWhile isPathOctet) :=
      not_mem_of_skipBlanks fun member => kept.2 ((List.dropWhile_suffix _).subset member)
    simp only [List.cons_append]
    rw [dropWhile_append_of_endsLine tail ends (by decide),
      takeWhile_append_of_endsLine tail ends (by decide), skipBlanks_append _ ends]
    split
    · cases found : skipBlanks (tail.dropWhile isPathOctet) with
      | nil =>
        cases ends with
        | document => rfl
        | line below => rfl
      | cons next after =>
        rw [found, List.mem_cons, not_or] at below
        simp only [List.cons_append]
        split
        · rw [takeTrailer_append below.2 ends]
          cases takeTrailer after <;> rfl
        · rfl
    · rfl

theorem takeAssignment_append (first : UInt8) (clean : lineFeed ∉ line) (ends : EndsLine rest) :
    takeAssignment first (line ++ rest) =
      (takeAssignment first line).map fun (item, _) => (item, rest.drop 1) := by
  have below : lineFeed ∉ skipBlanks (line.dropWhile isNameOctet) :=
    not_mem_of_skipBlanks fun member => clean ((List.dropWhile_suffix _).subset member)
  unfold takeAssignment
  rw [dropWhile_append_of_endsLine line ends (by decide),
    takeWhile_append_of_endsLine line ends (by decide), skipBlanks_append _ ends]
  split
  · cases found : skipBlanks (line.dropWhile isNameOctet) with
    | nil =>
      cases ends with
      | document => rfl
      | line below => rfl
    | cons next after =>
      rw [found, List.mem_cons, not_or] at below
      have value := not_mem_of_skipBlanks below.2
      simp only [List.cons_append]
      split
      · rw [skipBlanks_append after ends, takeWhile_append_of_endsLine _ ends (by decide),
          skipLine_append value ends]
        rfl
      · rfl
  · rfl

theorem takeLine_append (skipping : Bool) {first : UInt8} (other : first ≠ lineFeed)
    (clean : lineFeed ∉ line) (ends : EndsLine rest) :
    takeLine skipping first (line ++ rest) =
      (takeLine skipping first line).map fun (item, _) => (item, rest.drop 1) := by
  simp only [takeLine, if_neg other]
  split
  · rw [skipLine_append clean ends]
    rfl
  split
  · exact takeHeader_append clean ends
  split
  · rw [skipLine_append clean ends]
    rfl
  · exact takeAssignment_append first clean ends

end

namespace Consumer

variable {σ : Type}

def readLines (consumer : Consumer σ) (number : Nat) (progress : Progress σ) :
    List (List UInt8) → Progress σ × Option Fault
  | [] => (progress, none)
  | line :: rest =>
    match readLine progress.skipping line with
    | .ok item => consumer.readLines (number + 1) (consumer.accept number progress item) rest
    | .error expected => (progress, some (.malformed number expected))

/-- What every line carries from its number to the next, the lines together carry to the number that
they reach. -/
theorem exists_readLines_invariant (consumer : Consumer σ) (invariant : Nat → Progress σ → Prop)
    (pieces : List (List UInt8))
    (kept : ∀ line ∈ pieces, ∀ number progress item, readLine progress.skipping line = .ok item →
      invariant number progress →
      invariant (number + 1) (consumer.accept number progress item))
    (number : Nat) (progress : Progress σ) (initial : invariant number progress) :
    ∃ reached, invariant reached (consumer.readLines number progress pieces).1 := by
  induction pieces generalizing number progress with
  | nil => exact ⟨number, initial⟩
  | cons line rest ih =>
    rw [readLines]
    cases given : readLine progress.skipping line with
    | error expected => exact ⟨number, initial⟩
    | ok item =>
      have next := kept line List.mem_cons_self number progress item given initial
      exact ih (fun other member => kept other (List.mem_cons_of_mem line member)) _ _ next

theorem readLines_invariant (consumer : Consumer σ) (invariant : Progress σ → Prop)
    (pieces : List (List UInt8))
    (kept : ∀ line ∈ pieces, ∀ number progress item, readLine progress.skipping line = .ok item →
      invariant progress → invariant (consumer.accept number progress item))
    (number : Nat) (progress : Progress σ) (initial : invariant progress) :
    invariant (consumer.readLines number progress pieces).1 := by
  obtain ⟨_, kept⟩ :=
    consumer.exists_readLines_invariant (fun _ => invariant) pieces kept number progress initial
  exact kept

theorem readLines_append {consumer : Consumer σ} {number : Nat} {first next : Progress σ}
    {pieces : List (List UInt8)} (read : consumer.readLines number first pieces = (next, none))
    (more : List (List UInt8)) :
    consumer.readLines number first (pieces ++ more) =
      consumer.readLines (number + pieces.length) next more := by
  induction pieces generalizing number first with
  | nil =>
    cases read
    rfl
  | cons line rest ih =>
    rw [readLines] at read
    rw [List.cons_append, readLines]
    cases given : readLine first.skipping line with
    | error expected => rw [given] at read; cases read
    | ok item =>
      rw [given] at read
      rw [List.length_cons, Nat.add_comm rest.length, ← Nat.add_assoc]
      exact ih read

theorem exists_of_malformed {consumer : Consumer σ} {number : Nat} {first done : Progress σ}
    {pieces : List (List UInt8)} {fault : Fault}
    (read : consumer.readLines number first pieces = (done, some fault)) :
    ∃ before bad below expected, pieces = before ++ bad :: below ∧
      consumer.readLines number first before = (done, none) ∧
      readLine done.skipping bad = .error expected ∧
      fault = .malformed (number + before.length) expected := by
  induction pieces generalizing number first with
  | nil => cases read
  | cons line rest ih =>
    rw [readLines] at read
    cases given : readLine first.skipping line with
    | error expected =>
      rw [given] at read
      cases read
      exact ⟨[], line, rest, expected, rfl, rfl, given, rfl⟩
    | ok item =>
      rw [given] at read
      obtain ⟨before, bad, below, expected, whole, reached, refused, position⟩ := ih read
      refine ⟨line :: before, bad, below, expected, ?_, ?_, refused, ?_⟩
      · rw [whole, List.cons_append]
      · rw [readLines, given]
        exact reached
      · rw [position, List.length_cons]
        congr 1
        omega

theorem readLines_of_malformed {consumer : Consumer σ} {number : Nat} {first done : Progress σ}
    {before : List (List UInt8)} {bad : List UInt8} {expected : Expectation}
    (reached : consumer.readLines number first before = (done, none))
    (refused : readLine done.skipping bad = .error expected) (below : List (List UInt8)) :
    consumer.readLines number first (before ++ bad :: below) =
      (done, some (.malformed (number + before.length) expected)) := by
  rw [readLines_append reached, readLines, refused]

theorem scan_eq (consumer : Consumer σ) (number : Nat) (progress : Progress σ)
    (rest : List UInt8) :
    consumer.scan number progress rest =
      match skipBlanks rest with
      | [] => (progress, none)
      | first :: tail =>
        match takeLine progress.skipping first tail with
        | .ok (item, left) => consumer.scan (number + 1) (consumer.accept number progress item) left
        | .error expected => (progress, some (.malformed number expected)) := by
  rw [scan]
  split
  · next found => rw [found]
  · next first tail found =>
    rw [found]
    dsimp only
    split
    · next item left taken => rw [taken]
    · next expected taken => rw [taken]

theorem scan_nil (consumer : Consumer σ) (number : Nat) (progress : Progress σ) :
    consumer.scan number progress [] = (progress, none) :=
  scan_eq consumer number progress []

theorem scan_append (consumer : Consumer σ) (number : Nat) (progress : Progress σ)
    {line rest : List UInt8} (clean : lineFeed ∉ line) (ends : EndsLine rest) :
    consumer.scan number progress (line ++ rest) =
      match readLine progress.skipping line with
      | .ok item => consumer.scan (number + 1) (consumer.accept number progress item) (rest.drop 1)
      | .error expected => (progress, some (.malformed number expected)) := by
  have kept := not_mem_of_skipBlanks clean
  rw [scan_eq, skipBlanks_append line ends, readLine]
  cases skipped : skipBlanks line with
  | nil =>
    cases ends with
    | document => exact (scan_nil consumer _ _).symm
    | line below => rfl
  | cons first tail =>
    rw [skipped, List.mem_cons, not_or] at kept
    simp only [List.cons_append]
    rw [takeLine_append _ (Ne.symm kept.1) kept.2 ends]
    cases takeLine progress.skipping first tail <;> rfl

/-- Reading with the cursor is reading line by line. -/
theorem scan_eq_readLines (consumer : Consumer σ) (number : Nat) (progress : Progress σ)
    (octets : List UInt8) :
    consumer.scan number progress octets =
      consumer.readLines number progress (octets.splitOn lineFeed) := by
  induction octets using Text.splitOn_induction lineFeed generalizing number progress with
  | last line clean =>
    have step := scan_append consumer number progress clean EndsLine.document
    rw [List.append_nil] at step
    rw [step, List.splitOn_eq_singleton clean, readLines]
    cases readLine progress.skipping line with
    | ok item => exact scan_nil consumer _ _
    | error expected => rfl
  | step line below clean ih =>
    rw [scan_append consumer number progress clean (EndsLine.line below),
      List.splitOn_append_cons_self_of_not_mem clean, readLines]
    cases readLine progress.skipping line with
    | ok item => exact ih _ _
    | error expected => rfl

theorem read_eq (consumer : Consumer σ) (octets : List UInt8) (initial : σ) :
    consumer.read octets initial =
      let (progress, fault) := consumer.readLines 1 { state := initial } (lines octets)
      progress.outcome fault := by
  rw [read, scan_eq_readLines, lines]

end Consumer

end ConfigTree.Document
