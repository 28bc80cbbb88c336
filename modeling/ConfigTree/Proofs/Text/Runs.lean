import Mathlib.Data.List.TakeWhile

/-!
Scans over a text that goes on. A scan that stops at what follows a text takes and drops the same as
in the text alone, and one that looks for a mark takes a text without it whole. Texts that are split
at a mark are gone through piece by piece.
-/

namespace ConfigTree.Text

variable {α : Type} {p : α → Bool} {rest : List α}

theorem takeWhile_append_of_stops (text : List α) (stops : ∀ c ∈ rest.head?, p c = false) :
    (text ++ rest).takeWhile p = text.takeWhile p := by
  induction text with
  | nil =>
    cases rest with
    | nil => rfl
    | cons c below => exact List.takeWhile_cons_of_neg (by simp [stops c rfl])
  | cons first tail ih =>
    rw [List.cons_append, List.takeWhile_cons, List.takeWhile_cons]
    split
    · rw [ih]
    · rfl

theorem dropWhile_append_of_stops (text : List α) (stops : ∀ c ∈ rest.head?, p c = false) :
    (text ++ rest).dropWhile p = text.dropWhile p ++ rest := by
  induction text with
  | nil =>
    cases rest with
    | nil => rfl
    | cons c below => exact List.dropWhile_cons_of_neg (by simp [stops c rfl])
  | cons first tail ih =>
    rw [List.cons_append, List.dropWhile_cons, List.dropWhile_cons]
    split
    · exact ih
    · rfl

section
variable [DecidableEq α] {mark : α} {text : List α}

theorem takeWhile_ne_of_not_mem (clean : mark ∉ text) : text.takeWhile (· ≠ mark) = text := by
  rw [List.takeWhile_eq_self_iff]
  intro c member
  have other : c ≠ mark := fun same => clean (same ▸ member)
  exact decide_eq_true other

theorem dropWhile_ne_of_not_mem (clean : mark ∉ text) : text.dropWhile (· ≠ mark) = [] := by
  rw [List.dropWhile_eq_nil_iff]
  intro c member
  have other : c ≠ mark := fun same => clean (same ▸ member)
  exact decide_eq_true other

end

theorem splitOn_induction [DecidableEq α] (mark : α) {motive : List α → Prop}
    (last : ∀ piece, mark ∉ piece → motive piece)
    (step : ∀ piece below, mark ∉ piece → motive below → motive (piece ++ mark :: below))
    (text : List α) : motive text := by
  induction length : text.length using Nat.strongRecOn generalizing text with
  | _ size ih =>
    by_cases several : mark ∈ text
    · obtain ⟨piece, below, rfl, clean⟩ := List.eq_append_cons_of_mem several
      have shorter : below.length < size := by
        rw [← length, List.length_append, List.length_cons]
        omega
      exact step piece below clean (ih below.length shorter below rfl)
    · exact last text several

theorem splitOn_flatMap [DecidableEq α] {mark : α} {pieces : List (List α)}
    (clean : ∀ piece ∈ pieces, mark ∉ piece) :
    (pieces.flatMap (· ++ [mark])).splitOn mark = pieces ++ [[]] := by
  induction pieces with
  | nil => rfl
  | cons piece rest ih =>
    have below := ih fun other member => clean other (List.mem_cons_of_mem piece member)
    rw [List.flatMap_cons, List.append_assoc, List.singleton_append,
      List.splitOn_append_cons_self_of_not_mem (clean piece List.mem_cons_self), below,
      List.cons_append]

end ConfigTree.Text
