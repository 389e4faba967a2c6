import Mathlib.Data.List.Basic
import StepFlow.Text.Basic

/-!
Pieces of a text. No piece holds the separator, and a text is its pieces with a separator in front
of all but the first. What stands before the first separator holds none either.
-/
namespace StepFlow.Text
variable {sep : Char}

theorem pieces_ne_nil (s : List Char) : pieces sep s ≠ [] := by
  cases s with
  | nil => simp [pieces]
  | cons c s =>
    rw [pieces]
    split
    · simp
    · split <;> simp

theorem pieces_append (a b : List Char) :
    pieces sep (a ++ sep :: b) = pieces sep a ++ pieces sep b := by
  induction a with
  | nil => simp [pieces]
  | cons c a ih =>
    rw [List.cons_append, pieces, pieces, ih]
    split
    · rfl
    · cases front : pieces sep a with
      | nil => exact absurd front (pieces_ne_nil a)
      | cons first others => rfl

theorem pieces_last (a : List Char) : pieces sep (a ++ [sep]) = pieces sep a ++ [[]] :=
  pieces_append a []

theorem pieces_head_nil {s : List Char} :
    (pieces sep s).head? = some [] ↔ s = [] ∨ s.head? = some sep := by
  cases s with
  | nil => simp [pieces]
  | cons c s =>
    rw [pieces]
    split
    · simp [*]
    · split <;> simp [*]

theorem pieces_apart {piece : List Char} {s : List Char} (member : piece ∈ pieces sep s) :
    sep ∉ piece := by
  induction s generalizing piece with
  | nil =>
    rw [pieces, List.mem_singleton] at member
    simp [member]
  | cons c s ih =>
    rw [pieces] at member
    split at member
    · rcases List.mem_cons.mp member with rfl | later
      · simp
      · exact ih later
    · rename_i other
      split at member
      · rename_i none
        exact absurd none (pieces_ne_nil s)
      · rename_i first others split
        rcases List.mem_cons.mp member with rfl | later
        · have apart := ih (split ▸ List.mem_cons_self)
          simp [apart, Ne.symm other]
        · exact ih (split ▸ List.mem_cons_of_mem first later)

theorem pieces_whole {s : List Char} (apart : sep ∉ s) : pieces sep s = [s] := by
  induction s with
  | nil => rfl
  | cons c s ih =>
    obtain ⟨other, later⟩ := not_or.mp (List.mem_cons.not.mp apart)
    rw [pieces, if_neg (Ne.symm other), ih later]

theorem pieces_joined {first : List Char} {others : List (List Char)}
    (apart : ∀ piece ∈ first :: others, sep ∉ piece) :
    pieces sep (first ++ others.flatMap (sep :: ·)) = first :: others := by
  induction others generalizing first with
  | nil =>
    rw [List.flatMap_nil, List.append_nil]
    exact pieces_whole (apart first List.mem_cons_self)
  | cons second others ih =>
    obtain ⟨own, later⟩ := List.forall_mem_cons.mp apart
    rw [List.flatMap_cons, List.cons_append, pieces_append, pieces_whole own, ih later,
      List.singleton_append]

theorem joined_pieces {s first : List Char} {others : List (List Char)}
    (split : pieces sep s = first :: others) : s = first ++ others.flatMap (sep :: ·) := by
  induction s generalizing first others with
  | nil =>
    cases split
    rfl
  | cons c s ih =>
    rw [pieces] at split
    split at split
    · rename_i same
      cases later : pieces sep s with
      | nil => exact absurd later (pieces_ne_nil s)
      | cons second rest =>
        rw [later] at split
        cases split
        rw [ih later, same]
        rfl
    · split at split
      · rename_i none
        exact absurd none (pieces_ne_nil s)
      · rename_i front rest later
        cases split
        rw [ih later]
        rfl

theorem splitFirst_eq_some_iff {s before after : List Char} :
    splitFirst sep s = some (before, after) ↔ s = before ++ sep :: after ∧ sep ∉ before := by
  induction s generalizing before with
  | nil => simp [splitFirst]
  | cons c s ih =>
    rw [splitFirst]
    split
    · rename_i same
      subst same
      cases before with
      | nil => simp [eq_comm]
      | cons d before => simp +contextual [eq_comm]
    · rename_i other
      simp only [Option.map_eq_some_iff, Prod.mk.injEq, Prod.exists]
      constructor
      · rintro ⟨before, after, split, rfl, rfl⟩
        obtain ⟨rfl, apart⟩ := ih.mp split
        exact ⟨rfl, by simp [Ne.symm other, apart]⟩
      · rintro ⟨joined, apart⟩
        cases before with
        | nil => cases joined; exact absurd rfl other
        | cons d before =>
          cases joined
          exact ⟨before, after, ih.mpr ⟨rfl, List.not_mem_of_not_mem_cons apart⟩, rfl, rfl⟩

end StepFlow.Text
