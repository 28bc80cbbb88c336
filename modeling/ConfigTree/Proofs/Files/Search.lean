import ConfigTree.Files.Search
import ConfigTree.Files.Store
import ConfigTree.Proofs.Text.Runs

/-!
What a search for a file finds. Every name is paired with every directory, and a pair is a hit if it
leads to a regular file. The pairs are tried by their names first and by their directories second,
and the search gives the path of the first hit, if there is any.

Main statement: `Search.locate?_first_hit`.
-/

namespace ConfigTree.Search

/-- What a directory without leading white space stands for. A tilde is the home directory, and what
follows the tilde and its separators is taken from there. -/
inductive Expands (home : Option String) : List Char → List Char → Prop where
  | plain {directory : List Char} (other : directory.head? ≠ some '~') :
      Expands home directory directory
  | home {place : String} (known : home = some place) (slashes : Nat) :
      Expands home ('~' :: List.replicate slashes '/') place.toList
  | below {place : String} (known : home = some place) (slashes : Nat) {rest : List Char}
      (nonempty : rest ≠ []) (apart : rest.head? ≠ some '/') :
      Expands home ('~' :: (List.replicate slashes '/' ++ rest)) (join place.toList rest)

/-- The name at one place and the directory at another lead to a regular file. The name is not
blank, and the path is that of the name in what the directory stands for. -/
def Hit (isFile : String → Bool) (home : Option String) (directories names : List String)
    (pair : Nat × Nat) (path : String) : Prop :=
  ∃ name directory place, names[pair.1]? = some name ∧ directories[pair.2]? = some directory ∧
    Text.trimStart name.toList ≠ [] ∧ Expands home (Text.trimStart directory.toList) place ∧
    path = String.ofList (join place (Text.trimStart name.toList)) ∧ isFile path = true

/-- The path of a name in a directory. A blank name has none, and without a home directory neither
has a directory that begins with a tilde. -/
def candidate? (home : Option String) (name directory : String) : Option String :=
  if Text.trimStart name.toList = [] then none
  else (expandHome home (Text.trimStart directory.toList)).map fun place =>
    String.ofList (join place (Text.trimStart name.toList))

section
variable {home : Option String} {directory place : List Char}

theorem exists_separators (text : List Char) :
    ∃ slashes, text = List.replicate slashes '/' ++ text.dropWhile (· == '/') ∧
      (text.dropWhile (· == '/')).head? ≠ some '/' := by
  refine ⟨(text.takeWhile (· == '/')).length, ?_, ?_⟩
  · have same : text.takeWhile (· == '/') =
        List.replicate (text.takeWhile (· == '/')).length '/' := by
      refine List.eq_replicate_iff.mpr ⟨rfl, fun c member => ?_⟩
      have separates : (c == '/') = true :=
        List.mem_takeWhile_imp (p := fun other => other == '/') member
      exact beq_iff_eq.mp separates
    rw [← same, List.takeWhile_append_dropWhile]
  · intro first
    have stopped := List.head?_dropWhile_not (· == '/') text
    rw [first] at stopped
    cases stopped

theorem dropWhile_separators (slashes : Nat) {rest : List Char} (apart : rest.head? ≠ some '/') :
    (List.replicate slashes '/' ++ rest).dropWhile (· == '/') = rest := by
  have stops : ∀ c ∈ rest.head?, (c == '/') = false := by
    intro c first
    rw [beq_eq_false_iff_ne]
    rintro rfl
    exact apart first
  rw [Text.dropWhile_append_of_stops _ stops, List.dropWhile_replicate]
  rfl

theorem expandHome_tilde (home : Option String) (rest : List Char) :
    expandHome home ('~' :: rest) = home.map fun place =>
      if rest.dropWhile (· == '/') = [] then place.toList
      else join place.toList (rest.dropWhile (· == '/')) := by
  rw [expandHome]
  congr
  funext place
  cases rest.dropWhile (· == '/') <;> rfl

theorem expandHome_of_head?_ne (other : directory.head? ≠ some '~') :
    expandHome home directory = some directory := by
  unfold expandHome
  split
  · exact absurd rfl other
  · rfl

theorem expandHome_eq_some_iff :
    expandHome home directory = some place ↔ Expands home directory place := by
  constructor
  · intro expanded
    by_cases tilde : directory.head? = some '~'
    · obtain ⟨rest, rfl⟩ := List.head?_eq_some_iff.mp tilde
      rw [expandHome_tilde] at expanded
      obtain ⟨root, known, rfl⟩ := Option.map_eq_some_iff.mp expanded
      obtain ⟨slashes, whole, apart⟩ := exists_separators rest
      split_ifs with nothing
      · rw [nothing, List.append_nil] at whole
        rw [whole]
        exact .home known slashes
      · rw [whole, dropWhile_separators slashes apart]
        exact .below known slashes nothing apart
    · rw [expandHome_of_head?_ne tilde, Option.some.injEq] at expanded
      subst expanded
      exact .plain tilde
  · intro expands
    cases expands with
    | plain other => exact expandHome_of_head?_ne other
    | home known slashes =>
      have nothing : (List.replicate slashes '/' ++ []).dropWhile (· == '/') = [] :=
        dropWhile_separators slashes (by simp)
      rw [List.append_nil] at nothing
      rw [expandHome_tilde, known, nothing]
      rfl
    | below known slashes nonempty apart =>
      rw [expandHome_tilde, known, dropWhile_separators slashes apart, Option.map_some,
        if_neg nonempty]

theorem existsUnique_expands (known : home.isSome) (directory : List Char) :
    ∃! place, Expands home directory place := by
  have expanded : (expandHome home directory).isSome := by
    by_cases tilde : directory.head? = some '~'
    · obtain ⟨rest, rfl⟩ := List.head?_eq_some_iff.mp tilde
      rw [expandHome_tilde, Option.isSome_map, known]
    · rw [expandHome_of_head?_ne tilde]
      rfl
  obtain ⟨place, found⟩ := Option.isSome_iff_exists.mp expanded
  refine ⟨place, expandHome_eq_some_iff.mp found, fun other expands => ?_⟩
  have again := expandHome_eq_some_iff.mpr expands
  rw [found] at again
  exact (Option.some.inj again).symm

end

theorem findSome?_eq_some_iff_getElem? {α β : Type} {f : α → Option β} {items : List α} {b : β} :
    items.findSome? f = some b ↔ ∃ (place : Nat) (item : α), items[place]? = some item ∧
      f item = some b ∧ ∀ (earlier : Nat) (other : α), earlier < place →
        items[earlier]? = some other → f other = none := by
  rw [List.findSome?_eq_some_iff]
  constructor
  · rintro ⟨before, item, after, rfl, gives, barren⟩
    refine ⟨before.length, item, by simp, gives, fun earlier other shorter found => ?_⟩
    rw [List.getElem?_append_left shorter] at found
    exact barren other (List.mem_of_getElem? found)
  · rintro ⟨place, item, found, gives, barren⟩
    obtain ⟨inside, rfl⟩ := List.getElem?_eq_some_iff.mp found
    refine ⟨items.take place, items[place], items.drop (place + 1), ?_, gives, ?_⟩
    · rw [List.getElem_cons_drop, List.take_append_drop]
    · intro other member
      obtain ⟨earlier, found⟩ := List.mem_iff_getElem?.mp member
      rw [List.getElem?_take] at found
      split_ifs at found with shorter
      exact barren earlier other shorter found

section
variable {isFile : String → Bool} {home : Option String} {directories names : List String}

theorem candidates_eq (home : Option String) (directories names : List String) :
    candidates home directories names =
      names.flatMap fun name => directories.filterMap (candidate? home name) := by
  induction names with
  | nil => rfl
  | cons name rest ih =>
    rw [List.flatMap_cons, ← ih]
    by_cases blank : Text.trimStart name.toList = []
    · have nothing : directories.filterMap (candidate? home name) = [] := by
        refine List.filterMap_eq_nil_iff.mpr fun directory _ => ?_
        rw [candidate?, if_pos blank]
      rw [nothing, candidates, List.map_cons, List.filter_cons_of_neg (by simp [blank])]
      rfl
    · have places : directories.filterMap (candidate? home name) =
          (directories.filterMap fun directory =>
            expandHome home (Text.trimStart directory.toList)).map fun place =>
              String.ofList (join place (Text.trimStart name.toList)) := by
        rw [List.map_filterMap]
        congr
        funext directory
        rw [candidate?, if_neg blank]
      rw [places, candidates, List.map_cons, List.filter_cons_of_pos (by simp [blank]),
        List.flatMap_cons]
      rfl

theorem find?_filterMap_eq_findSome? {α β : Type} (p : β → Bool) (f : α → Option β)
    (items : List α) :
    (items.filterMap f).find? p = items.findSome? fun item => (f item).filter p := by
  induction items with
  | nil => rfl
  | cons item rest ih =>
    rw [List.findSome?_cons, ← ih]
    cases given : f item with
    | none => rw [List.filterMap_cons_none given, Option.filter_none]
    | some b =>
      rw [List.filterMap_cons_some given, List.find?_cons, Option.filter_some]
      cases p b <;> rfl

theorem locate?_eq_findSome? (isFile : String → Bool) (home : Option String)
    (directories names : List String) :
    locate? isFile home directories names = names.findSome? fun name =>
      directories.findSome? fun directory => (candidate? home name directory).filter isFile := by
  rw [locate?, candidates_eq, List.find?_flatMap]
  congr
  funext name
  exact find?_filterMap_eq_findSome? isFile (candidate? home name) directories

theorem candidate?_eq_some_iff {name directory path : String} :
    candidate? home name directory = some path ↔
      ∃ place, Text.trimStart name.toList ≠ [] ∧
        Expands home (Text.trimStart directory.toList) place ∧
        path = String.ofList (join place (Text.trimStart name.toList)) := by
  unfold candidate?
  split_ifs with blank
  · simp [blank]
  · simp only [Option.map_eq_some_iff, expandHome_eq_some_iff, ne_eq, blank, not_false_eq_true,
      true_and, eq_comm (b := path)]

theorem hit_iff {pair : Nat × Nat} {path : String} :
    Hit isFile home directories names pair path ↔
      ∃ name directory, names[pair.1]? = some name ∧ directories[pair.2]? = some directory ∧
        (candidate? home name directory).filter isFile = some path := by
  simp only [Option.filter_eq_some_iff, candidate?_eq_some_iff, Hit]
  constructor
  · rintro ⟨name, directory, place, named, listed, filled, expands, rfl, regular⟩
    exact ⟨name, directory, named, listed, ⟨place, filled, expands, rfl⟩, regular⟩
  · rintro ⟨name, directory, named, listed, ⟨place, filled, expands, rfl⟩, regular⟩
    exact ⟨name, directory, place, named, listed, filled, expands, rfl, regular⟩

theorem exists_locate?_iff : (∃ path, locate? isFile home directories names = some path) ↔
    ∃ pair path, Hit isFile home directories names pair path := by
  simp only [locate?_eq_findSome?, hit_iff]
  simp only [← Option.isSome_iff_exists, List.findSome?_isSome_iff]
  simp only [Option.isSome_iff_exists]
  constructor
  · rintro ⟨name, member, directory, listed, path, regular⟩
    obtain ⟨i, named⟩ := List.mem_iff_getElem?.mp member
    obtain ⟨j, stands⟩ := List.mem_iff_getElem?.mp listed
    exact ⟨(i, j), path, name, directory, named, stands, regular⟩
  · rintro ⟨pair, path, name, directory, named, stands, regular⟩
    exact ⟨name, List.mem_of_getElem? named, directory, List.mem_of_getElem? stands, path, regular⟩

theorem locate?_eq_some_iff {path : String} :
    locate? isFile home directories names = some path ↔
      ∃ pair, Hit isFile home directories names pair path ∧
        ∀ earlier other, Prod.Lex (· < ·) (· < ·) earlier pair →
          ¬Hit isFile home directories names earlier other := by
  simp only [locate?_eq_findSome?, hit_iff]
  rw [findSome?_eq_some_iff_getElem?]
  constructor
  · rintro ⟨i, name, named, gives, before⟩
    obtain ⟨j, directory, listed, hit, above⟩ := findSome?_eq_some_iff_getElem?.mp gives
    refine ⟨(i, j), ⟨name, directory, named, listed, hit⟩, ?_⟩
    rintro earlier other first ⟨another, place, found, stands, regular⟩
    -- An earlier pair has an earlier name, or the same name and an earlier directory.
    cases first with
    | left _ _ less =>
      have barren := List.findSome?_eq_none_iff.mp (before _ another less found) place
        (List.mem_of_getElem? stands)
      rw [regular] at barren
      cases barren
    | right _ less =>
      cases named.symm.trans found
      have barren := above _ place less stands
      rw [regular] at barren
      cases barren
  · rintro ⟨⟨i, j⟩, ⟨name, directory, named, listed, hit⟩, first⟩
    refine ⟨i, name, named, findSome?_eq_some_iff_getElem?.mpr ⟨j, directory, listed, hit, ?_⟩, ?_⟩
    · intro earlier place less stands
      refine Option.eq_none_iff_forall_ne_some.mpr fun other regular => ?_
      exact first (i, earlier) other (.right i less) ⟨name, place, named, stands, regular⟩
    · intro earlier another less found
      refine List.findSome?_eq_none_iff.mpr fun place member => ?_
      obtain ⟨k, stands⟩ := List.mem_iff_getElem?.mp member
      refine Option.eq_none_iff_forall_ne_some.mpr fun other regular => ?_
      exact first (earlier, k) other (.left k j less) ⟨another, place, found, stands, regular⟩

end

/-- A search finds something if there is a hit, and then it finds the path of the hit with the
earliest name, and for this name with the earliest directory. If the home directory is known, every
directory stands for one place. -/
theorem locate?_first_hit (isFile : String → Bool) (home : Option String)
    (directories names : List String) :
    ((∃ path, locate? isFile home directories names = some path) ↔
      ∃ pair path, Hit isFile home directories names pair path) ∧
      (∀ path, locate? isFile home directories names = some path ↔
        ∃ pair, Hit isFile home directories names pair path ∧
          ∀ earlier other, Prod.Lex (· < ·) (· < ·) earlier pair →
            ¬Hit isFile home directories names earlier other) ∧
      (home.isSome → ∀ directory, ∃! place, Expands home directory place) :=
  ⟨exists_locate?_iff, fun _ => locate?_eq_some_iff, existsUnique_expands⟩

/-- Blank names are passed over, and so are directories where a file is looked for. -/
example :
    let store := (Store.addDirectory {} ["etc", "b"]).addFile ["home", "u", "c", "b"] []
    locate? store.isFile (some "/home/u") ["/etc", " ~//c", "/home/u/c"] [" ", "a", "\tb"] =
      some "/home/u/c/b" := by
  decide +kernel

end ConfigTree.Search
