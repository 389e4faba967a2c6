import StepFlow.Compile.Resolve
import StepFlow.Proofs.Script.Grammar

/-!
The integer that a text begins with. A text is cut in one way into the blanks at its front, at most
one sign, as many digits as there are, and the rest. A number typed in by the user is the integer
that the sign and the digits write, in its canonical spelling, whatever its magnitude, and without
digits it is none. A canonical spelling is cut into itself, so that it is resolved to itself.
-/
namespace StepFlow.Compile
open StepFlow.Flow Script Text
open Literal (Blanks Decimal Ends ends_nil ends_cons run_ends takeOne takeOne_cases takeOne_none
  takeOne_one decimal_takeWhile skipBlanks_split)

def isSign (c : Char) : Bool := c == '+' || c == '-'

/-- A text cut at its integer: all blanks at the front, then a sign if there is one, then all digits
that follow. -/
structure IntegerCut (text : List Char) where
  blanks : List Char
  sign : List Char
  digits : List Char
  rest : List Char
  whole : text = blanks ++ (sign ++ (digits ++ rest))
  blank : Blanks blanks
  trimmed : Ends isBlank (sign ++ (digits ++ rest))
  sign_ok : sign = [] ∨ sign = ['+'] ∨ sign = ['-']
  unsigned : sign = [] → Ends isSign (digits ++ rest)
  decimal : Decimal digits
  maximal : Ends isDecimalDigit rest

namespace IntegerCut
variable {text : List Char}

def value (cut : IntegerCut text) : Int :=
  if cut.sign = ['-'] then -Nat.ofDigitChars 10 cut.digits 0 else Nat.ofDigitChars 10 cut.digits 0

def spelling (cut : IntegerCut text) : String :=
  if cut.digits = [] then "NaN" else toString cut.value

def minus (cut : IntegerCut text) : List Char := if cut.sign = ['-'] then ['-'] else []

end IntegerCut

/-- Zero, or digits of which the first is not zero, with no sign but a minus. -/
inductive Canonical : List Char → Prop where
  | zero : Canonical ['0']
  | digits {sign : List Char} {d : Char} {ds : List Char} (sign_ok : sign = [] ∨ sign = ['-'])
      (decimal : Decimal (d :: ds)) (leading : d ≠ '0') : Canonical (sign ++ d :: ds)

section
variable {c d : Char} {ds : List Char}

theorem digitChar_decimal (digit : isDecimalDigit c = true) :
    c.toNat - '0'.toNat < 10 ∧ (c.toNat - '0'.toNat).digitChar = c := by
  have back : ∀ n, n < 10 → n.digitChar = Char.ofNat (48 + n) := by decide
  simp only [isDecimalDigit, Bool.and_eq_true, decide_eq_true_eq, Char.le_def,
    UInt32.le_iff_toNat_le, Char.toNat_val] at digit
  have low : 48 ≤ c.toNat := digit.1
  have high : c.toNat ≤ 57 := digit.2
  have zero : '0'.toNat = 48 := rfl
  refine ⟨by omega, ?_⟩
  rw [back _ (by omega), zero, Nat.add_sub_cancel' low, Char.ofNat_toNat]

theorem toDigits_continue (decimal : Decimal ds) {n : Nat} (positive : 0 < n) :
    Nat.toDigits 10 n ++ ds = Nat.toDigits 10 (Nat.ofDigitChars 10 ds n) := by
  induction ds generalizing n with
  | nil => simp
  | cons d ds ih =>
    obtain ⟨small, back⟩ := digitChar_decimal (decimal d List.mem_cons_self)
    have step := Nat.toDigits_append_toDigits (b := 10) (by decide) positive small
    rw [Nat.toDigits_of_lt_base small, back] at step
    rw [Nat.ofDigitChars_cons, ← ih (fun e member => decimal e (List.mem_cons_of_mem _ member))
      (by omega), ← step, List.append_assoc, List.singleton_append]

theorem toDigits_value (decimal : Decimal (d :: ds)) (leading : d ≠ '0') :
    Nat.toDigits 10 (Nat.ofDigitChars 10 (d :: ds) 0) = d :: ds := by
  obtain ⟨small, back⟩ := digitChar_decimal (decimal d List.mem_cons_self)
  have positive : 0 < d.toNat - '0'.toNat := by
    refine Nat.pos_of_ne_zero fun zero => leading ?_
    rw [← back, zero]
    rfl
  rw [Nat.ofDigitChars_cons, Nat.mul_zero, Nat.zero_add, ← toDigits_continue
    (fun e member => decimal e (List.mem_cons_of_mem _ member)) positive,
    Nat.toDigits_of_lt_base small, back, List.singleton_append]

theorem value_zeros (digits : List Char) :
    Nat.ofDigitChars 10 (digits.dropWhile (· == '0')) 0 = Nat.ofDigitChars 10 digits 0 := by
  induction digits with
  | nil => rfl
  | cons d ds ih =>
    by_cases zero : d = '0'
    · subst zero
      rw [List.dropWhile_cons_of_pos (by rfl), ih, Nat.ofDigitChars_cons]
      rfl
    · rw [List.dropWhile_cons_of_neg (by simpa using zero)]

end

theorem toString_natural (n : Nat) : (toString (n : Int)).toList = Nat.toDigits 10 n := by
  simp [Int.toString_eq_repr, Int.repr]

theorem toString_negative {n : Nat} (positive : 0 < n) :
    (toString (-(n : Int))).toList = '-' :: Nat.toDigits 10 n := by
  obtain ⟨n, rfl⟩ : ∃ m, n = m + 1 := ⟨n - 1, by omega⟩
  have shown : toString (-((n + 1 : Nat) : Int)) = "-" ++ (n + 1).repr := rfl
  rw [shown, String.toList_append, Nat.toList_repr]
  rfl

section
variable {text : List Char} (cut : IntegerCut text) {d : Char} {ds : List Char}

theorem spelling_zero (some : cut.digits ≠ []) (zeros : cut.digits.dropWhile (· == '0') = []) :
    cut.spelling.toList = ['0'] := by
  have none : Nat.ofDigitChars 10 cut.digits 0 = 0 := by
    rw [← value_zeros, zeros]
    rfl
  have zero : cut.value = 0 := by simp [IntegerCut.value, none]
  rw [IntegerCut.spelling, if_neg some, zero]
  rfl

theorem spelling_significant (significant : cut.digits.dropWhile (· == '0') = d :: ds) :
    Decimal (d :: ds) ∧ d ≠ '0' ∧ cut.spelling.toList = cut.minus ++ d :: ds := by
  have some : cut.digits ≠ [] := by
    rintro none
    simp [none] at significant
  have decimal' : Decimal (d :: ds) := fun c member =>
    cut.decimal c (List.dropWhile_subset _ (significant ▸ member))
  have leading : d ≠ '0' := by
    have head := List.head?_dropWhile_not (· == '0') cut.digits
    simpa [significant] using head
  have digits := toDigits_value decimal' leading
  rw [← significant, value_zeros, significant] at digits
  have positive : 0 < Nat.ofDigitChars 10 cut.digits 0 := by
    refine Nat.pos_of_ne_zero fun zero => leading ?_
    rw [zero] at digits
    exact (List.cons.inj digits).1.symm
  refine ⟨decimal', leading, ?_⟩
  rw [IntegerCut.spelling, if_neg some, IntegerCut.value, IntegerCut.minus]
  split
  · rw [toString_negative positive, digits, List.singleton_append]
  · rw [toString_natural, digits, List.nil_append]

def spellDigits (sign digits : List Char) : List Char :=
  match digits, digits.dropWhile (· == '0') with
  | [], _ => "NaN".toList
  | _ :: _, [] => ['0']
  | _ :: _, significant => sign ++ significant

theorem spellDigits_cut : spellDigits cut.minus cut.digits = cut.spelling.toList := by
  cases digits : cut.digits with
  | nil =>
    rw [IntegerCut.spelling, if_pos digits]
    rfl
  | cons e es =>
    have some : cut.digits ≠ [] := by simp [digits]
    cases significant : cut.digits.dropWhile (· == '0') with
    | nil =>
      have spelled := spelling_zero cut some significant
      rw [spelled, spellDigits.eq_def, ← digits, significant, digits]
    | cons d ds =>
      have spelled := (spelling_significant cut significant).2.2
      rw [spelled, spellDigits.eq_def, ← digits, significant, digits]

theorem integerPrefix_minus {s : List Char} (front : skipBlanks text = '-' :: s) :
    integerPrefix text = spellDigits ['-'] (s.takeWhile isDecimalDigit) := by
  rw [integerPrefix, front]
  rfl

theorem integerPrefix_plus {s : List Char} (front : skipBlanks text = '+' :: s) :
    integerPrefix text = spellDigits [] (s.takeWhile isDecimalDigit) := by
  rw [integerPrefix, front]
  rfl

theorem integerPrefix_unsigned (unsigned : Ends isSign (skipBlanks text)) :
    integerPrefix text = spellDigits [] ((skipBlanks text).takeWhile isDecimalDigit) := by
  cases front : skipBlanks text with
  | nil =>
    rw [integerPrefix, front]
    rfl
  | cons c s =>
    have other := unsigned c s front
    simp only [isSign, Bool.or_eq_false_iff, beq_eq_false_iff_ne] at other
    simp only [integerPrefix, front, List.cons.injEq, other, false_and, imp_self, implies_true]
    rfl

theorem skipBlanks_cut : skipBlanks text = cut.sign ++ (cut.digits ++ cut.rest) := by
  conv => lhs; rw [cut.whole]
  exact (run_ends cut.blank cut.trimmed).2

/-- The prefix is spelled as the cut is. -/
theorem integerPrefix_cut : integerPrefix text = cut.spelling.toList := by
  have front := skipBlanks_cut cut
  have digits := (run_ends cut.decimal cut.maximal).1
  rw [← spellDigits_cut, IntegerCut.minus]
  rcases cut.sign_ok with sign | sign | sign
  · have unsigned := cut.unsigned sign
    rw [sign, List.nil_append] at front
    rw [integerPrefix_unsigned (front ▸ unsigned), front, digits, sign, if_neg (by simp)]
  · rw [sign, List.singleton_append] at front
    rw [integerPrefix_plus front, digits, sign, if_neg (by simp)]
  · rw [sign, List.singleton_append] at front
    rw [integerPrefix_minus front, digits, sign, if_pos rfl]

theorem ends_dropWhile (kind : Char → Bool) (s : List Char) : Ends kind (s.dropWhile kind) := by
  intro c rest same
  have head := List.head?_dropWhile_not kind s
  simpa [same] using head

theorem isSign_iff {c : Char} : isSign c = true ↔ c = '+' ∨ c = '-' := by
  simp [isSign]

theorem cut_exists (text : List Char) : Nonempty (IntegerCut text) := by
  obtain ⟨blanks, whole, blank⟩ := skipBlanks_split text
  have trimmed : Ends isBlank (skipBlanks text) := ends_dropWhile isBlank text
  have signed : ∃ sign after, skipBlanks text = sign ++ after ∧
      (sign = [] ∨ sign = ['+'] ∨ sign = ['-']) ∧ (sign = [] → Ends isSign after) := by
    rcases takeOne_cases isSign (skipBlanks text) with ⟨_, none⟩ | ⟨c, after, one, is, _⟩
    · exact ⟨[], skipBlanks text, rfl, .inl rfl, fun _ => none⟩
    · rcases isSign_iff.mp is with rfl | rfl
      · exact ⟨['+'], after, one, .inr (.inl rfl), fun none => by cases none⟩
      · exact ⟨['-'], after, one, .inr (.inr rfl), fun none => by cases none⟩
  obtain ⟨sign, after, front, sign_ok, unsigned⟩ := signed
  have run : after.takeWhile isDecimalDigit ++ after.dropWhile isDecimalDigit = after :=
    List.takeWhile_append_dropWhile
  rw [front, ← run] at whole trimmed
  rw [← run] at unsigned
  exact ⟨⟨blanks, sign, after.takeWhile isDecimalDigit, after.dropWhile isDecimalDigit, whole,
    blank, trimmed, sign_ok, unsigned, decimal_takeWhile after,
    ends_dropWhile isDecimalDigit after⟩⟩

theorem takeOne_cut :
    takeOne isSign (skipBlanks text) = (cut.sign, cut.digits ++ cut.rest) := by
  rw [skipBlanks_cut cut]
  rcases cut.sign_ok with sign | sign | sign
  · rw [sign, List.nil_append, takeOne_none (cut.unsigned sign)]
  · rw [sign, List.singleton_append, takeOne_one rfl]
  · rw [sign, List.singleton_append, takeOne_one rfl]

theorem takeWhile_cut : text.takeWhile isBlank = cut.blanks := by
  conv => lhs; rw [cut.whole]
  exact (run_ends cut.blank cut.trimmed).1

/-- A text is cut in one way only. -/
theorem cut_unique (other : IntegerCut text) : other = cut := by
  have blanks : other.blanks = cut.blanks := (takeWhile_cut other).symm.trans (takeWhile_cut cut)
  obtain ⟨sign, after⟩ := Prod.mk.inj ((takeOne_cut other).symm.trans (takeOne_cut cut))
  obtain ⟨digits, rest⟩ := run_ends cut.decimal cut.maximal
  obtain ⟨digits', rest'⟩ := run_ends other.decimal other.maximal
  rw [after, digits] at digits'
  rw [after, rest] at rest'
  cases cut
  cases other
  simp_all

theorem number_cut {raw : String} (cut : IntegerCut raw.toList) (node : Option String) :
    resolve .literal .number raw node = .ok (.num cut.spelling) := by
  rw [resolve, resolveLiteral, integerPrefix_cut cut, String.ofList_toList]

theorem spelling_canonical (some : cut.digits ≠ []) : Canonical cut.spelling.toList := by
  cases significant : cut.digits.dropWhile (· == '0') with
  | nil =>
    rw [spelling_zero cut some significant]
    exact .zero
  | cons d ds =>
    obtain ⟨decimal, leading, spelled⟩ := spelling_significant cut significant
    have minus : cut.minus = [] ∨ cut.minus = ['-'] := by
      rw [IntegerCut.minus]
      split
      · exact .inr rfl
      · exact .inl rfl
    rw [spelled]
    exact .digits minus decimal leading

theorem canonical_cut (canonical : Canonical text) :
    ∃ cut : IntegerCut text, cut.spelling.toList = text := by
  have none : Blanks [] := fun _ member => by cases member
  cases canonical with
  | zero =>
    exact ⟨⟨[], [], ['0'], [], rfl, none, ends_cons (by decide), .inl rfl,
      fun _ => ends_cons (by decide), by decide, ends_nil⟩, spelling_zero _ (by simp) rfl⟩
  | @digits sign d ds sign_ok decimal leading =>
    have digit := decimal d List.mem_cons_self
    have unsigned : isSign d = false := by
      refine Bool.eq_false_iff.mpr fun is => ?_
      rcases isSign_iff.mp is with rfl | rfl <;> cases digit
    have trimmed : Ends isBlank (sign ++ (d :: ds ++ [])) := by
      rcases sign_ok with rfl | rfl
      · exact ends_cons (decimal_not_blank digit)
      · exact ends_cons (by decide)
    have significant : (d :: ds).dropWhile (· == '0') = d :: ds :=
      List.dropWhile_cons_of_neg (by simpa using leading)
    let cut : IntegerCut (sign ++ d :: ds) := ⟨[], sign, d :: ds, [], by simp, none, trimmed,
      sign_ok.imp_right .inr, fun _ => ends_cons unsigned, decimal, ends_nil⟩
    refine ⟨cut, ?_⟩
    rw [(spelling_significant cut significant).2.2, IntegerCut.minus]
    rcases sign_ok with rfl | rfl <;> rfl

/-- A number is resolved to the integer that its text begins with, whose spelling is canonical and
is resolved to itself. -/
theorem number_resolves (raw : String) (node : Option String) :
    ∃ cut : IntegerCut raw.toList, (∀ other : IntegerCut raw.toList, other = cut) ∧
      resolve .literal .number raw node = .ok (.num cut.spelling) ∧
      (cut.digits ≠ [] → Canonical cut.spelling.toList) ∧
      resolve .literal .number (String.ofList (printExpr 0 (.num cut.spelling))) node =
        .ok (.num cut.spelling) := by
  obtain ⟨cut⟩ := cut_exists raw.toList
  refine ⟨cut, cut_unique cut, number_cut cut node, spelling_canonical cut, ?_⟩
  have printed : printExpr 0 (.num cut.spelling) = cut.spelling.toList := rfl
  rw [printed, String.ofList_toList]
  by_cases none : cut.digits = []
  · have unchanged : integerPrefix "NaN".toList = "NaN".toList := by decide
    rw [IntegerCut.spelling, if_pos none, resolve, resolveLiteral, unchanged, String.ofList_toList]
  · obtain ⟨own, spelled⟩ := canonical_cut (spelling_canonical cut none)
    rw [number_cut own, String.toList_inj.mp spelled]

example : [" +007px", "-000", "- 7", "-12345678901234567890.5"].map
    (resolve .literal .number · none) =
      [.ok (.num "7"), .ok (.num "0"), .ok (.num "NaN"), .ok (.num "-12345678901234567890")] := rfl

end

end StepFlow.Compile
