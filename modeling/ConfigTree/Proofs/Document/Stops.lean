import ConfigTree.Proofs.Document.Checked

/-!
Where the reading of a document stops. A malformed line gives nothing to the consumer, and no octet
behind it is looked at. So all that has been read is what stands before that line, and every
document that begins with the same lines stops at the same one.

Main statement: `Section.load_stops`.
-/

namespace ConfigTree.Document

def firstLines (count : Nat) (octets : List UInt8) : List UInt8 :=
  ofLines ((lines octets).take count)

theorem lines_firstLines (count : Nat) (octets : List UInt8) :
    lines (firstLines count octets) = (lines octets).take count ++ [[]] := by
  apply lines_ofLines
  intro line member
  exact clean_of_mem_lines (List.mem_of_mem_take member)

namespace Consumer

variable {σ : Type} {consumer : Consumer σ} {number : Nat} {first done : Progress σ}
  {before : List (List UInt8)} {fault : Fault}

theorem readLines_concat_empty
    (reached : consumer.readLines number first before = (done, none)) :
    consumer.readLines number first (before ++ [[]]) = (done, none) := by
  rw [readLines_append reached]
  rfl

/-- Reading stops at one line. The lines before it are read by themselves to the same state, and
with any lines behind it the reading stops at the same line in the same state. -/
theorem read_stops {octets : List UInt8} {initial state : σ}
    (failed : consumer.read octets initial = (.error fault, state)) :
    ∃ before bad below expected count, lines octets = before ++ bad :: below ∧
      fault = .malformed (before.length + 1) expected ∧
      (∀ earlier, lines earlier = before ∨ lines earlier = before ++ [[]] →
        consumer.read earlier initial = (.ok count, state)) ∧
      ∀ other more, lines other = before ++ bad :: more →
        consumer.read other initial = (.error fault, state) := by
  rcases reading : consumer.readLines 1 { state := initial } (lines octets) with ⟨done, stopped⟩
  rw [read_eq, reading] at failed
  cases stopped with
  | none => cases failed
  | some fault =>
    cases failed
    obtain ⟨before, bad, below, expected, whole, reached, refused, position⟩ :=
      exists_of_malformed reading
    refine ⟨before, bad, below, expected, done.count, whole, ?_, ?_, ?_⟩
    · rw [position, Nat.add_comm]
    · intro earlier same
      have read : consumer.readLines 1 { state := initial } (lines earlier) = (done, none) := by
        rcases same with bare | ended
        · rw [bare]
          exact reached
        · rw [ended]
          exact readLines_concat_empty reached
      rw [read_eq, read]
      rfl
    · intro other more same
      rw [read_eq, same, readLines_of_malformed reached refused more, ← position]
      rfl

end Consumer

end ConfigTree.Document

namespace ConfigTree.Section
open Document (firstLines)

/-- Loading a document that has a malformed line leaves the tree that the lines before that one
leave, and these load without a fault. Every document with the same lines up to the malformed one
fails in the same way and leaves the same tree, whatever stands behind that line: nothing, further
lines, or a NUL and anything after it. -/
theorem load_stops {root after : Section} {octets : List UInt8} {number : Nat}
    {expected : Expectation}
    (failed : root.load octets = (.error (.malformed number expected), after)) :
    0 < number ∧ number ≤ (Document.lines octets).length ∧
    (∃ count, root.load (firstLines (number - 1) octets) = (.ok count, after) ∧
      ∀ earlier, Document.lines earlier = (Document.lines octets).take (number - 1) →
        root.load earlier = (.ok count, after)) ∧
    ∀ other, (Document.lines other).take number = (Document.lines octets).take number →
      root.load other = (.error (.malformed number expected), after) := by
  rcases reading : Loading.consumer.read octets { root } with ⟨result, loading⟩
  rw [load, reading] at failed
  cases failed
  obtain ⟨before, bad, below, other, count, whole, position, earlier, later⟩ :=
    Document.Consumer.read_stops reading
  cases position
  have front : (Document.lines octets).take before.length = before := by
    rw [whole, List.take_left]
  have upTo : (Document.lines octets).take (before.length + 1) = before ++ [bad] := by
    rw [whole, List.take_length_add_append]
    rfl
  -- Only the lines up to the malformed one decide, with an empty line behind them or without it.
  refine ⟨Nat.succ_pos _, ?_, ⟨count, ?_, ?_⟩, ?_⟩
  · rw [whole, List.length_append, List.length_cons]
    omega
  · have ended : Document.lines (firstLines before.length octets) = before ++ [[]] := by
      rw [Document.lines_firstLines, front]
    rw [Nat.add_sub_cancel, load, earlier _ (.inr ended)]
  · intro document same
    rw [Nat.add_sub_cancel, front] at same
    rw [load, earlier document (.inl same)]
  · intro document same
    rw [upTo] at same
    have split := (List.take_append_drop (before.length + 1) (Document.lines document)).symm
    rw [same, List.append_assoc] at split
    rw [load, later document _ split]

theorem load_stops_of_flag :
    let flag : Leaf := { name := "x", kind := .boolean }
    let root := branch "a" 0 (leaf flag empty) empty
    let after := branch "a" 0 (leaf { flag with value := some (.boolean true) } empty) empty
    let octets := Text.Utf8.encode "[a]\nx = 1\nx 0\nx = 0\n[".toList
    let other := Text.Utf8.encode "[a]\nx = 1\nx 0\x00\nx = 0".toList
    root.load octets = (.error (.malformed 3 .equalsSign), after) ∧
      firstLines 2 octets = Text.Utf8.encode "[a]\nx = 1\n".toList ∧
      (∃ count, root.load (firstLines 2 octets) = (.ok count, after)) ∧
      root.load other = (.error (.malformed 3 .equalsSign), after) := by
  intro flag root after octets other
  have failed : root.load octets = (.error (.malformed 3 .equalsSign), after) := by decide +kernel
  have same : (Document.lines other).take 3 = (Document.lines octets).take 3 := by decide +kernel
  obtain ⟨-, -, ⟨count, earlier, -⟩, later⟩ := load_stops failed
  exact ⟨failed, by decide +kernel, ⟨count, earlier⟩, later other same⟩

end ConfigTree.Section
