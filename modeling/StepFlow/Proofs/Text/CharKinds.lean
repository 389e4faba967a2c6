import StepFlow.Text.Basic
import StepFlow.Text.Quoted

/-!
Kinds of characters that exclude each other. The tables of two properties are apart when no range
of the one meets a range of the other; for a single character the kind is looked up.
-/
namespace StepFlow.Text

theorem inRanges_within {ranges : List (Nat × Nat)} {n : Nat} (inside : inRanges ranges n = true) :
    ∃ r ∈ ranges, r.1 ≤ n ∧ n ≤ r.2 := by
  induction ranges with
  | nil => cases inside
  | cons r ranges ih =>
    obtain ⟨lo, hi⟩ := r
    simp only [inRanges] at inside
    split at inside
    · cases inside
    · rename_i above
      rcases Bool.or_eq_true_iff.mp inside with here | later
      · exact ⟨(lo, hi), List.mem_cons_self, by simpa using above, by simpa using here⟩
      · obtain ⟨r, member, bounds⟩ := ih later
        exact ⟨r, List.mem_cons_of_mem _ member, bounds⟩

def apart (first second : List (Nat × Nat)) : Bool :=
  first.all fun r => second.all fun t => r.2 < t.1 || t.2 < r.1

theorem apart_excludes {first second : List (Nat × Nat)} {n : Nat}
    (tables : apart first second = true) (inside : inRanges first n = true) :
    inRanges second n = false := by
  refine Bool.eq_false_iff.mpr fun both => ?_
  obtain ⟨r, rIn, rLow, rHigh⟩ := inRanges_within inside
  obtain ⟨t, tIn, tLow, tHigh⟩ := inRanges_within both
  have split := List.all_eq_true.mp (List.all_eq_true.mp tables r rIn) t tIn
  simp only [Bool.or_eq_true, decide_eq_true_eq] at split
  omega

theorem ne_of_kind {kind : Char → Bool} {c d : Char} (own : kind c = true)
    (other : kind d = false) : c ≠ d := by
  rintro rfl
  simp [own] at other

theorem control_hex {n : Nat} (control : n < 0x20) :
    hexValue? '0' '0' (hexDigit (n / 16)) (hexDigit (n % 16)) = some n := by
  revert n
  decide

def decimalRanges : List (Nat × Nat) := [('0'.toNat, '9'.toNat)]

section
variable {c : Char}

theorem decimal_inRanges (digit : isDecimalDigit c = true) :
    inRanges decimalRanges c.toNat = true := by
  simp only [isDecimalDigit, Bool.and_eq_true, decide_eq_true_eq, Char.le_def,
    UInt32.le_iff_toNat_le, Char.toNat_val] at digit
  simp only [decimalRanges, inRanges]
  grind

theorem decimal_wordChar (digit : isDecimalDigit c = true) : isWordChar c = true := by
  obtain ⟨r, member, low, high⟩ := inRanges_within (decimal_inRanges digit)
  cases List.mem_singleton.mp member
  have first : numericRanges = ('0'.toNat, '9'.toNat) :: numericRanges.tail := rfl
  have numeric : isNumeric c = true := by
    rw [isNumeric, first, inRanges, if_neg (Nat.not_lt.mpr low)]
    exact Bool.or_eq_true_iff.mpr (Or.inl (decide_eq_true high))
  simp [isWordChar, isAlphanumeric, numeric]

theorem decimal_not_blank (digit : isDecimalDigit c = true) : isBlank c = false :=
  apart_excludes (by decide) (decimal_inRanges digit)

theorem decimal_not_alphabetic (digit : isDecimalDigit c = true) : isAlphabetic c = false :=
  apart_excludes (by decide +kernel) (decimal_inRanges digit)

theorem blank_not_alphabetic (blank : isBlank c = true) : isAlphabetic c = false :=
  apart_excludes (by decide +kernel) blank

theorem blank_not_wordChar (blank : isBlank c = true) : isWordChar c = false := by
  have numeric : isNumeric c = false := apart_excludes (by decide +kernel) blank
  have underscore := ne_of_kind blank (d := '_') (by decide)
  have dollar := ne_of_kind blank (d := '$') (by decide)
  simp [isWordChar, isAlphanumeric, blank_not_alphabetic blank, numeric, underscore, dollar]

theorem wordStart_iff : isWordStart c = true ↔ isAlphabetic c = true ∨ c = '_' ∨ c = '$' := by
  simp [isWordStart, or_assoc]

theorem wordStart_wordChar (start : isWordStart c = true) : isWordChar c = true := by
  rcases wordStart_iff.mp start with letter | rfl | rfl
  · simp [isWordChar, isAlphanumeric, letter]
  · decide
  · decide

theorem wordStart_not_blank (start : isWordStart c = true) : isBlank c = false := by
  rcases wordStart_iff.mp start with letter | rfl | rfl
  · refine Bool.eq_false_iff.mpr fun blank => ?_
    simp [blank_not_alphabetic blank] at letter
  · decide
  · decide

theorem wordStart_not_decimal (start : isWordStart c = true) : isDecimalDigit c = false := by
  rcases wordStart_iff.mp start with letter | rfl | rfl
  · refine Bool.eq_false_iff.mpr fun digit => ?_
    simp [decimal_not_alphabetic digit] at letter
  · decide
  · decide

end

end StepFlow.Text
