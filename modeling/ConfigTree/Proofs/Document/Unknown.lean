import ConfigTree.Proofs.Document.Checked

/-!
The bodies of unknown sections. Below a header that leads to no section of a tree, a loader passes
over every line that is no header without reading it. So two documents that differ in nothing but
such lines are loaded alike, and it does not matter whether these lines are well formed.

Main statement: `Section.load_of_alike`.
-/

namespace ConfigTree.Document

instance (line : List UInt8) : Decidable (IsHeader line) :=
  inferInstanceAs (Decidable (_ = _))

section
variable {line header : List UInt8} {earlier later : List (List UInt8)} {path : String}

theorem headerPath?_of_not_isHeader (plain : ¬IsHeader line) : headerPath? line = none := by
  rw [headerPath?, readLine_of_not_isHeader plain]
  rfl

theorem exists_headerPath?_of_readLine {skipping : Bool} {item : Item} (isHeader : IsHeader line)
    (given : readLine skipping line = .ok item) : ∃ path, headerPath? line = some path := by
  rw [readLine_of_isHeader isHeader skipping false] at given
  cases gives_of_readLine given with
  | nothing plain _ => exact absurd isHeader plain
  | header path _ _ _ => exact ⟨path, headerPath?_of_ok given⟩
  | assignment name value plain _ _ => exact absurd isHeader plain

theorem lastHeader?_append (found : headerPath? header = some path)
    (plain : ∀ line ∈ later, ¬IsHeader line) :
    lastHeader? (earlier ++ header :: later) = some path := by
  have rest : later.filterMap headerPath? = [] := by
    apply List.filterMap_eq_nil_iff.mpr
    intro line member
    exact headerPath?_of_not_isHeader (plain line member)
  rw [lastHeader?, List.filterMap_append, List.filterMap_cons_some found, rest,
    List.getLast?_concat]

end

namespace Consumer

variable {σ : Type} {consumer : Consumer σ} {number : Nat} {first done : Progress σ}
  {pieces others : List (List UInt8)}

theorem exists_headerPath? {header : List UInt8}
    (read : consumer.readLines number first pieces = (done, none)) (member : header ∈ pieces)
    (isHeader : IsHeader header) : ∃ path, headerPath? header = some path := by
  induction pieces generalizing number first with
  | nil => cases member
  | cons line rest ih =>
    rw [readLines] at read
    cases given : readLine first.skipping line with
    | error expected => rw [given] at read; cases read
    | ok item =>
      rw [given] at read
      rcases List.mem_cons.mp member with same | later
      · exact exists_headerPath?_of_readLine isHeader (same ▸ given)
      · exact ih read later

theorem readLines_congr (length : pieces.length = others.length)
    (alike : ∀ index line other, pieces[index]? = some line → others[index]? = some other →
      line = other ∨ ¬IsHeader line ∧ ¬IsHeader other ∧
        ∀ done, consumer.readLines number first (pieces.take index) = (done, none) →
          done.skipping = true) :
    consumer.readLines number first pieces = consumer.readLines number first others := by
  induction pieces generalizing number first others with
  | nil =>
    rw [List.eq_nil_of_length_eq_zero length.symm]
  | cons line rest ih =>
    cases others with
    | nil => cases length
    | cons other more =>
      have outcome : readLine first.skipping line = readLine first.skipping other := by
        rcases alike 0 line other rfl rfl with same | ⟨plain, free, passed⟩
        · rw [same]
        · rw [passed first rfl, readLine_of_not_isHeader plain, readLine_of_not_isHeader free]
      -- Both lines give one outcome, so the two runs go on in the same state.
      rw [readLines, readLines, ← outcome]
      cases given : readLine first.skipping line with
      | error expected => rfl
      | ok item =>
        apply ih (Nat.succ.inj length)
        intro index next after inside within
        refine (alike (index + 1) next after inside within).imp_right ?_
        rintro ⟨plain, free, passed⟩
        refine ⟨plain, free, fun done reached => passed done ?_⟩
        rw [List.take_succ_cons, readLines, given]
        exact reached

end Consumer

end ConfigTree.Document

namespace ConfigTree.Section
open Document (IsHeader headerPath?)

/-- The last header among some lines leads to no section of a tree, be it that there is no such
section or that the header is malformed. -/
def PassesOver (root : Section) (before : List (List UInt8)) : Prop :=
  ∃ earlier header later, before = earlier ++ header :: later ∧ IsHeader header ∧
    (∀ line ∈ later, ¬IsHeader line) ∧ (headerPath? header).bind root.section? = none

/-- Two documents have the same lines up to some that are no headers in either of them, and that
stand below a header which leads to no section of a tree. The headers are the same in both, so it
does not matter in which of them the last one is looked for. -/
structure Alike (root : Section) (first second : List UInt8) : Prop where
  length : (Document.lines first).length = (Document.lines second).length
  lines : ∀ index line other, (Document.lines first)[index]? = some line →
    (Document.lines second)[index]? = some other →
      line = other ∨ ¬IsHeader line ∧ ¬IsHeader other ∧
        root.PassesOver ((Document.lines first).take index)

end ConfigTree.Section

namespace ConfigTree.Loading
open Document

theorem skipping_of_passesOver {number : Nat} {first done : Progress Loading}
    {before : List (List UInt8)} (read : consumer.readLines number first before = (done, none))
    (passes : first.state.root.PassesOver before) : done.skipping = true := by
  obtain ⟨earlier, header, later, rfl, isHeader, plain, unknown⟩ := passes
  have member : header ∈ earlier ++ header :: later :=
    List.mem_append_right earlier List.mem_cons_self
  obtain ⟨path, found⟩ := Consumer.exists_headerPath? read member isHeader
  rw [found, Option.bind_some] at unknown
  rw [skipping_readLines read, lastHeader?_append found plain]
  exact Option.isNone_iff_eq_none.mpr unknown

end ConfigTree.Loading

namespace ConfigTree.Section
open Document (IsHeader headerPath?)

/-- Documents that differ only below headers of unknown sections are loaded alike: with the same
number of assignments or the same fault, and into the same tree. -/
theorem load_of_alike {root : Section} {first second : List UInt8}
    (alike : root.Alike first second) : root.load first = root.load second := by
  have same : Loading.consumer.readLines 1 { state := { root } } (Document.lines first) =
      Loading.consumer.readLines 1 { state := { root } } (Document.lines second) := by
    apply Document.Consumer.readLines_congr alike.length
    intro index line other inside within
    refine (alike.lines index line other inside within).imp_right ?_
    rintro ⟨plain, free, passes⟩
    exact ⟨plain, free, fun done reached => Loading.skipping_of_passesOver reached passes⟩
  rw [load, load, Document.Consumer.read_eq, Document.Consumer.read_eq, same]

/-- A line below a header of an unknown section can be exchanged for any line that is no header. -/
theorem alike_of_exchange {root : Section} {first second line other : List UInt8}
    {before after : List (List UInt8)} (one : Document.lines first = before ++ line :: after)
    (two : Document.lines second = before ++ other :: after) (plain : ¬IsHeader line)
    (free : ¬IsHeader other) (passes : root.PassesOver before) : root.Alike first second := by
  constructor
  · rw [one, two, List.length_append, List.length_append, List.length_cons, List.length_cons]
  · intro index here there inside within
    rw [one] at inside ⊢
    rw [two] at within
    by_cases position : index = before.length
    · subst position
      rw [List.getElem?_append_right (Nat.le_refl _), Nat.sub_self] at inside within
      cases inside
      cases within
      rw [List.take_left]
      exact .inr ⟨plain, free, passes⟩
    · have same : (before ++ line :: after)[index]? = (before ++ other :: after)[index]? := by
        rw [List.getElem?_append, List.getElem?_append]
        split
        · rfl
        · next behind =>
          obtain ⟨rest, later⟩ : ∃ rest, index - before.length = rest + 1 :=
            Nat.exists_eq_add_one.mpr (by omega)
          rw [later, List.getElem?_cons_succ, List.getElem?_cons_succ]
      rw [← same, inside] at within
      exact .inl (Option.some.inj within)

theorem load_of_alike_of_unread :
    let flag : Leaf := { name := "x", kind := .boolean }
    let root := branch "a" 0 (leaf flag empty) empty
    let first := Text.Utf8.encode "[b]\nx = 0\n[a]\nx = 1\nx = 2".toList
    let second := Text.Utf8.encode "[b]\n] = ?\n[a]\nx = 1\nx = 2".toList
    root.Alike first second ∧ root.load first = root.load second := by
  intro flag root first second
  let header := Text.Utf8.encode "[b]".toList
  let body := Text.Utf8.encode "x = 0".toList
  let junk := Text.Utf8.encode "] = ?".toList
  let rest := Document.lines (Text.Utf8.encode "[a]\nx = 1\nx = 2".toList)
  have one : Document.lines first = [header] ++ body :: rest := by decide +kernel
  have two : Document.lines second = [header] ++ junk :: rest := by decide +kernel
  have plain : ¬IsHeader body := by decide +kernel
  have free : ¬IsHeader junk := by decide +kernel
  have passes : root.PassesOver [header] :=
    ⟨[], header, [], rfl, by decide +kernel, List.forall_mem_nil _, by decide +kernel⟩
  have alike := alike_of_exchange one two plain free passes
  exact ⟨alike, load_of_alike alike⟩

end ConfigTree.Section
