import StepFlow.Text.Basic

/-!
Lengths in bytes. A text is as long as its parts together, and as long as the string of its
characters, so where an end of a string begins is a boundary between characters.
-/
namespace StepFlow.Text

theorem utf8Length_append (s t : List Char) :
    utf8Length (s ++ t) = utf8Length s + utf8Length t := by
  induction s with
  | nil => simp [utf8Length]
  | cons c s ih => simp [utf8Length, ih, Nat.add_assoc]

theorem utf8Length_ofList (s : List Char) : utf8Length s = (String.ofList s).utf8ByteSize := by
  induction s with
  | nil => rfl
  | cons c s ih =>
    rw [utf8Length, ih, String.ofList_cons, String.utf8ByteSize_append,
      String.utf8ByteSize_singleton]

theorem suffix_boundary {source : String} {unread : List Char}
    (suffix : unread <:+ source.toList) :
    String.Pos.Raw.IsValid source ⟨utf8Length source.toList - utf8Length unread⟩ := by
  obtain ⟨taken, split⟩ := suffix
  have whole : source = String.ofList taken ++ String.ofList unread := by
    rw [← String.ofList_append, split, String.ofList_toList]
  refine String.Pos.Raw.isValid_iff_exists_append.mpr ⟨_, _, whole, ?_⟩
  rw [← split, utf8Length_append, Nat.add_sub_cancel, utf8Length_ofList]
  rfl

end StepFlow.Text
