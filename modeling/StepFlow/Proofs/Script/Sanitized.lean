import Mathlib.Data.List.Forall2
import StepFlow.Script.Name

/-!
Names made of texts. A name keeps the word characters of its text and blurs all others into
underscores, so two texts are made one name when they differ only in characters that are blurred or
are underscores themselves, position by position behind the underscore that a leading digit is
given. What is made of a text is a word and stays as it is when it is made a name again. It may be a
reserved word, but not with an underscore in it, so the names of modules can all be declared.
-/
namespace StepFlow.Script
open Text

def blur (c : Char) : Char := if isWordChar c then c else '_'

/-- A text with the underscore in front that its name begins with. -/
def led : List Char → List Char
  | [] => ['_']
  | c :: s => if isNumeric c then '_' :: c :: s else c :: s

def Blurred (c : Char) : Prop := isWordChar c = false ∨ c = '_'

def Alike (s t : String) : Prop :=
  List.Forall₂ (fun c d => c = d ∨ Blurred c ∧ Blurred d) (led s.toList) (led t.toList)

section
variable {c d : Char}

theorem numeric_wordChar (numeric : isNumeric c = true) : isWordChar c = true := by
  simp [isWordChar, isAlphanumeric, numeric]

theorem blur_word (word : isWordChar c = true) : blur c = c := if_pos word

theorem blur_numeric : isNumeric (blur c) = isNumeric c := by
  cases word : isWordChar c with
  | true => rw [blur_word word]
  | false =>
    have other : isNumeric c = false := by
      refine Bool.eq_false_iff.mpr fun numeric => ?_
      simp [numeric_wordChar numeric] at word
    rw [blur, word, other]
    rfl

theorem blurred_iff : Blurred c ↔ blur c = '_' := by
  unfold Blurred blur
  cases isWordChar c <;> simp

theorem blur_eq_iff : blur c = blur d ↔ c = d ∨ Blurred c ∧ Blurred d := by
  rw [blurred_iff, blurred_iff]
  constructor
  · intro same
    cases first : isWordChar c with
    | false =>
      have underscore : blur c = '_' := by simp [blur, first]
      exact Or.inr ⟨underscore, same ▸ underscore⟩
    | true =>
      cases second : isWordChar d with
      | false =>
        have underscore : blur d = '_' := by simp [blur, second]
        exact Or.inr ⟨same ▸ underscore, underscore⟩
      | true => exact Or.inl (by rwa [blur_word first, blur_word second] at same)
  · rintro (rfl | ⟨first, second⟩)
    · rfl
    · rw [first, second]

end

theorem sanitizeChars_eq (s : List Char) : sanitizeChars s = (led s).map blur := by
  have kept : (s.map fun c => if isWordChar c then c else '_') = s.map blur := rfl
  unfold sanitizeChars
  rw [kept]
  cases s with
  | nil => rfl
  | cons c s =>
    simp only [List.map_cons, led, blur_numeric]
    split <;> rfl

/-- Which characters a name keeps: its text's word characters, all in their places. -/
theorem sanitize_toList (s : String) : (sanitize s).toList = (led s.toList).map blur := by
  rw [sanitize, String.toList_ofList, sanitizeChars_eq]

theorem sanitize_eq_iff {s t : String} : sanitize s = sanitize t ↔ Alike s t := by
  rw [← String.toList_inj, sanitize_toList, sanitize_toList, Alike, ← List.forall₂_eq_eq_eq,
    List.forall₂_map_left_iff, List.forall₂_map_right_iff]
  simp only [blur_eq_iff]

theorem sanitize_keeps {s : String} {c : Char} (word : isWordChar c = true)
    (member : c ∈ s.toList) : c ∈ (sanitize s).toList := by
  have behind : c ∈ led s.toList := by
    unfold led
    split
    · rename_i nothing
      simp [nothing] at member
    · rename_i same
      rw [same] at member
      split
      · exact List.mem_cons_of_mem _ member
      · exact member
  rw [sanitize_toList]
  exact List.mem_map.mpr ⟨c, behind, blur_word word⟩

theorem blur_wordChar (c : Char) : isWordChar (blur c) = true := by
  unfold blur
  split
  · assumption
  · decide

theorem led_cases (s : List Char) : ∃ c t, led s = c :: t ∧ isNumeric c = false := by
  cases s with
  | nil => exact ⟨'_', [], rfl, by decide⟩
  | cons c s =>
    cases numeric : isNumeric c with
    | true => exact ⟨'_', c :: s, by simp [led, numeric], by decide⟩
    | false => exact ⟨c, s, by simp [led, numeric], numeric⟩

/-- A letter that is numeric as well is led by an underscore, so the first character of a name is
either a letter and nothing else, or a sign that a word may begin with. -/
theorem sanitized_word (s : List Char) : isWord (sanitizeChars s) = true := by
  obtain ⟨c, t, begins, other⟩ := led_cases s
  have kept := blur_wordChar c
  have start : isWordStart (blur c) = true := by
    rw [← blur_numeric] at other
    simpa [isWordChar, isAlphanumeric, isWordStart, other] using kept
  rw [sanitizeChars_eq, begins, List.map_cons, isWord, start]
  simp [blur_wordChar]

theorem sanitizeChars_again (s : List Char) :
    sanitizeChars (sanitizeChars s) = sanitizeChars s := by
  obtain ⟨c, t, begins, other⟩ := led_cases s
  have stays : led ((led s).map blur) = (led s).map blur := by
    rw [begins, List.map_cons, led, blur_numeric, other]
    rfl
  have twice : ∀ d ∈ led s, (blur ∘ blur) d = blur d := fun d _ => blur_word (blur_wordChar d)
  rw [sanitizeChars_eq s, sanitizeChars_eq, stays, List.map_map]
  exact List.map_congr_left twice

theorem identifier_or_reserved (s : String) :
    isIdentifier (sanitize s) = true ∨ isReserved (sanitize s) = true := by
  have word : isWord (sanitize s).toList = true := by
    rw [sanitize, String.toList_ofList]
    exact sanitized_word s.toList
  cases reserved : isReserved (sanitize s) with
  | true => exact Or.inr rfl
  | false => exact Or.inl (by simp [isIdentifier, word, reserved])

theorem underscored_identifier {s : String} (underscore : '_' ∈ s.toList) :
    isIdentifier (sanitize s) = true := by
  refine (identifier_or_reserved s).resolve_right fun reserved => ?_
  have none : ∀ word ∈ reservedWords, '_' ∉ word.toList := by decide
  exact none _ (List.contains_iff_mem.mp reserved) (sanitize_keeps (by decide) underscore)

/-- A sanitized text is an identifier or a reserved word, and stays as it is when sanitized again.
The names of modules are identifiers. -/
theorem sanitized_names_usable :
    (∀ s : String, (isIdentifier (sanitize s) = true ∨ isReserved (sanitize s) = true) ∧
      sanitize (sanitize s) = sanitize s) ∧
    (∀ group version : String, isIdentifier (groupAlias group version) = true) ∧
    ∀ id : String, isIdentifier (codeAlias id) = true := by
  refine ⟨fun s => ⟨identifier_or_reserved s, ?_⟩, fun group version => ?_, fun id => ?_⟩
  · rw [sanitize, sanitize, String.toList_ofList, sanitizeChars_again]
  · apply underscored_identifier
    simp [String.toList_append]
  · apply underscored_identifier
    simp [String.toList_append]

end StepFlow.Script
