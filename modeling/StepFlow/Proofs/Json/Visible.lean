import StepFlow.Proofs.Json.Printed

/-!
A printed value stands on one line. Whatever its texts hold, its own text has no control character:
within quotes they are escaped, and without there are digits, signs and brackets only.
-/
namespace StepFlow.Json
open Text Decimal

def Visible (s : List Char) : Prop := ∀ c ∈ s, ' '.toNat ≤ c.toNat

section
variable {c : Char} {s t : List Char}

@[simp] theorem visible_nil : Visible [] := by simp [Visible]

@[simp] theorem visible_cons : Visible (c :: s) ↔ ' '.toNat ≤ c.toNat ∧ Visible s :=
  List.forall_mem_cons

@[simp] theorem visible_append : Visible (s ++ t) ↔ Visible s ∧ Visible t :=
  List.forall_mem_append

theorem Visible.sublist (visible : Visible t) (part : s.Sublist t) : Visible s :=
  fun c member => visible c (part.subset member)

theorem visible_no_break (visible : Visible s) : '\n' ∉ s ∧ '\r' ∉ s :=
  ⟨fun member => absurd (visible _ member) (by decide),
    fun member => absurd (visible _ member) (by decide)⟩

theorem natDigits_visible (n : Nat) : Visible (natDigits n) := by
  intro c member
  have digit := natDigits_decimal member
  simp only [isDecimalDigit, Bool.and_eq_true, decide_eq_true_eq, Char.le_def,
    UInt32.le_iff_toNat_le, Char.toNat_val] at digit
  have low : ' '.toNat ≤ '0'.toNat := by decide
  exact Nat.le_trans low digit.1

theorem hexDigit_visible {n : Nat} (control : n < 0x20) :
    ' '.toNat ≤ (hexDigit (n / 16)).toNat ∧ ' '.toNat ≤ (hexDigit (n % 16)).toNat := by
  revert n
  decide

theorem escapeChar_visible (c : Char) : Visible (escapeChar c) := by
  have escaped := escapeChar_escaped c
  generalize escapeChar c = text at escaped ⊢
  cases escaped with
  | @short d listed =>
    have each : ∀ p ∈ shortEscapes, ' '.toNat ≤ p.2.toNat := by decide
    simpa using each _ listed
  | coded control => simpa using hexDigit_visible control
  | plain quote backslash visible => simpa using visible

theorem quote_visible (text : String) : Visible (quote text) := by
  have escaped : Visible (escape text.toList) := by
    intro c member
    obtain ⟨d, -, inside⟩ := List.mem_flatMap.mp member
    exact escapeChar_visible d c inside
  simp [quote, escaped]

theorem replicate_visible (n : Nat) : Visible (List.replicate n '0') := by
  intro c member
  rw [List.eq_of_mem_replicate member]
  decide

theorem positional_visible (visible : Visible s) (k : Int) : Visible (positional s k) := by
  unfold positional
  split
  · simp [visible, replicate_visible]
  · dsimp only
    split
    · simp [visible.sublist (List.take_sublist _ s), visible.sublist (List.drop_sublist _ s)]
    · simp [visible, replicate_visible]

theorem scientific_visible (visible : Visible s) (k : Int) : Visible (scientific s k) := by
  have first := visible.sublist (List.take_sublist 1 s)
  have others := visible.sublist (List.drop_sublist 1 s)
  have sign : ' '.toNat ≤ (if k + (s.length : Int) - 1 < 0 then '-' else '+').toNat := by
    split <;> decide
  have power : Visible ('e' :: (if k + (s.length : Int) - 1 < 0 then '-' else '+') ::
      natDigits (k + (s.length : Int) - 1).natAbs) :=
    visible_cons.mpr ⟨by decide, visible_cons.mpr ⟨sign, natDigits_visible _⟩⟩
  unfold scientific
  cases more : s.drop 1 with
  | nil => exact visible_append.mpr ⟨visible_append.mpr ⟨first, visible_nil⟩, power⟩
  | cons c rest =>
    have fraction := visible_cons.mpr ⟨(by decide : ' '.toNat ≤ '.'.toNat), more ▸ others⟩
    exact visible_append.mpr ⟨visible_append.mpr ⟨first, fraction⟩, power⟩

theorem double_visible (x : Double) : Visible (x.print doubleNotation) := by
  have signed : ∀ text, Visible text → Visible (if x.negative then '-' :: text else text) := by
    intro text visible
    split
    · exact visible_cons.mpr ⟨by decide, visible⟩
    · exact visible
  obtain ⟨⟨digits, k⟩, whole⟩ : ∃ parts, shortest x = parts := ⟨_, rfl⟩
  have visible := natDigits_visible digits
  simp only [Double.print, whole]
  refine signed _ ?_
  split
  · simp
  · split
    · exact positional_visible visible k
    · exact scientific_visible visible k

theorem number_visible (n : Number) : Visible n.print := by
  cases n with
  | double x => exact double_visible x
  | int value =>
    rw [Number.print]
    split
    · exact visible_cons.mpr ⟨by decide, natDigits_visible _⟩
    · exact natDigits_visible _

end

mutual

theorem print_visible : ∀ j : Json, Visible j.print
  | .null => by simp [print]
  | .bool true => by simp [print]
  | .bool false => by simp [print]
  | .num n => number_visible n
  | .str text => quote_visible text
  | .arr items => by simp [print, items_visible items]
  | .obj members => by simp [print, members_visible members]

theorem items_visible : ∀ items : List Json, Visible (printItems items)
  | [] => visible_nil
  | item :: items => visible_append.mpr ⟨print_visible item, moreItems_visible items⟩

theorem moreItems_visible : ∀ items : List Json, Visible (printMoreItems items)
  | [] => visible_nil
  | item :: items => by simp [printMoreItems, print_visible item, moreItems_visible items]

theorem members_visible : ∀ members : List (String × Json), Visible (printMembers members)
  | [] => visible_nil
  | (key, value) :: members => by
    simp [printMembers, quote_visible key, print_visible value, moreMembers_visible members]

theorem moreMembers_visible : ∀ members : List (String × Json), Visible (printMoreMembers members)
  | [] => visible_nil
  | (key, value) :: members => by
    simp [printMoreMembers, quote_visible key, print_visible value, moreMembers_visible members]

end

end StepFlow.Json
