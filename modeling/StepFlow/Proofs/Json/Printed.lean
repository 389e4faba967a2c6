import Mathlib.Algebra.Ring.Int.Defs
import Mathlib.Algebra.Ring.Nat
import StepFlow.Json.Reader
import StepFlow.Json.Writer
import StepFlow.Proofs.Text.CharKinds
import StepFlow.Proofs.Text.Quoted

/-!
Printed values read back. The text of a value is read as that value, up to where it ends, whatever
follows it in an array, an object or at the end of the text. Doubles are left out: what a double
is read as depends on its digits. Every law has the same form: a reader, on what a printer writes
and some text behind it, gives what was printed and that text.
-/
namespace StepFlow.Json
open Text

def Follows (s : List Char) : Prop := ∀ c ∈ s.head?, c = ',' ∨ c = ']' ∨ c = '}'

def Number.Exact : Number → Prop
  | int value => -(2 ^ 63 : Int) ≤ value ∧ value < 2 ^ 64
  | double _ => False

mutual

def Exact : Json → Prop
  | .null => True
  | .bool _ => True
  | .num value => value.Exact
  | .str _ => True
  | .arr items => ExactItems items
  | .obj members => ExactMembers members

def ExactItems : List Json → Prop
  | [] => True
  | item :: items => item.Exact ∧ ExactItems items

def ExactMembers : List (String × Json) → Prop
  | [] => True
  | (_, value) :: members => value.Exact ∧ ExactMembers members

end

theorem exactItems_iff {js : List Json} : ExactItems js ↔ ∀ j ∈ js, j.Exact := by
  induction js with
  | nil => simp [ExactItems]
  | cons j js ih => simp [ExactItems, ih]

theorem exactMembers_iff {ms : List (String × Json)} :
    ExactMembers ms ↔ ∀ m ∈ ms, m.2.Exact := by
  induction ms with
  | nil => simp [ExactMembers]
  | cons m ms ih =>
    simp only [ExactMembers, ih, List.forall_mem_cons]

theorem depthItems_le {js : List Json} {room : Nat} :
    depthItems js ≤ room ↔ ∀ j ∈ js, j.depth ≤ room := by
  induction js with
  | nil => simp [depthItems]
  | cons j js ih => rw [depthItems, Nat.max_le, ih, List.forall_mem_cons]

theorem depthMembers_le {ms : List (String × Json)} {room : Nat} :
    depthMembers ms ≤ room ↔ ∀ m ∈ ms, m.2.depth ≤ room := by
  induction ms with
  | nil => simp [depthMembers]
  | cons m ms ih => rw [depthMembers, Nat.max_le, ih, List.forall_mem_cons]

section
variable {c : Char} {s rest : List Char}

theorem skipSpace_other (other : isSpace c = false) : skipSpace (c :: s) = c :: s := by
  simp [skipSpace, other]

theorem follows_nil : Follows [] := by simp [Follows]

theorem follows_comma : Follows (',' :: s) := by simp [Follows]

theorem follows_bracket : Follows (']' :: s) := by simp [Follows]

theorem follows_brace : Follows ('}' :: s) := by simp [Follows]

theorem follows_no_digit (follows : Follows s) : startsWithDigit s = false := by
  cases s with
  | nil => rfl
  | cons c s => rcases follows c rfl with rfl | rfl | rfl <;> rfl

theorem stringBody_escapeChar (c : Char) (rest : List Char) :
    stringBody (escapeChar c ++ rest) = withChar c (stringBody rest) := by
  have escaped := escapeChar_escaped c
  generalize escapeChar c = text at escaped ⊢
  cases escaped with
  | @short d listed =>
    have each : ∀ p ∈ shortEscapes, p.2 ≠ 'u' ∧ simpleEscape? p.2 = some p.1 := by decide
    obtain ⟨unicode, back⟩ := each _ listed
    rw [List.cons_append, stringBody.eq_def]
    simp [unicode, back]
  | coded control =>
    have hex := control_hex control
    have low : isLowSurrogate c.toNat = false := by simp [isLowSurrogate]; omega
    have high : isHighSurrogate c.toNat = false := by simp [isHighSurrogate]; omega
    rw [List.cons_append, stringBody.eq_def]
    simp [hex, low, high, Char.ofNat_toNat]
  | plain quote backslash visible =>
    rw [List.cons_append, stringBody.eq_def]
    simp [quote, backslash, Nat.not_lt.mpr visible]

theorem stringBody_escape (s rest : List Char) :
    stringBody (escape s ++ '"' :: rest) = .ok (s, rest) := by
  induction s with
  | nil =>
    rw [stringBody.eq_def]
    simp [escape]
  | cons c s ih =>
    rw [escape, List.flatMap_cons, List.append_assoc, ← escape, stringBody_escapeChar, ih]
    rfl

theorem isDecimalDigit_of_isDigit (digit : c.isDigit = true) : isDecimalDigit c = true := by
  simpa [Char.isDigit, isDecimalDigit, Char.le_def] using digit

theorem natDigits_decimal {n : Nat} (member : c ∈ natDigits n) : isDecimalDigit c = true :=
  isDecimalDigit_of_isDigit (Nat.isDigit_of_mem_toDigits (by decide) (by decide) member)

theorem natDigits_leading (n : Nat) (positive : 0 < n) : (natDigits n).head? ≠ some '0' := by
  induction n using Nat.strongRecOn with
  | ind n ih =>
    by_cases small : n < 10
    · have digits : ∀ n < 10, 0 < n → [n.digitChar].head? ≠ some '0' := by decide
      rw [natDigits, Nat.toDigits_of_lt_base small]
      exact digits n small positive
    · have before := ih (n / 10) (by omega) (by omega)
      rw [natDigits, Nat.toDigits_eq_if (by decide), if_neg small, List.head?_append]
      cases first : (Nat.toDigits 10 (n / 10)).head? with
      | none => simp [List.head?_eq_none_iff] at first
      | some d =>
        rw [natDigits, first] at before
        simpa using before

theorem natDigits_cons (n : Nat) : ∃ c ds, natDigits n = c :: ds ∧ isDecimalDigit c = true ∧
    (∀ d ∈ ds, isDecimalDigit d = true) ∧ (c = '0' → ds = []) := by
  cases written : natDigits n with
  | nil => exact absurd (Nat.length_toDigits_pos (b := 10) (n := n)) (by
      rw [← natDigits, written]; simp)
  | cons c ds =>
    have decimal : ∀ d ∈ c :: ds, isDecimalDigit d = true := fun d member =>
      natDigits_decimal (written ▸ member)
    refine ⟨c, ds, rfl, decimal c List.mem_cons_self,
      fun d member => decimal d (List.mem_cons_of_mem _ member), ?_⟩
    rintro rfl
    rcases Nat.eq_zero_or_pos n with rfl | positive
    · exact (List.cons.inj written).2.symm
    · exact absurd (by rw [written]; rfl) (natDigits_leading n positive)

theorem absorbed_ge (ds : List Char) (n : Nat) : n ≤ Nat.ofDigitChars 10 ds n := by
  induction ds generalizing n with
  | nil => exact Nat.le_refl n
  | cons d ds ih =>
    rw [Nat.ofDigitChars_cons]
    exact Nat.le_trans (by omega) (ih _)

theorem absorbDigits_append {ds : List Char} {n : Nat} (decimal : ∀ d ∈ ds, isDecimalDigit d = true)
    (fits : Nat.ofDigitChars 10 ds n < 2 ^ 64) (stops : startsWithDigit rest = false) :
    absorbDigits n (ds ++ rest) = (Nat.ofDigitChars 10 ds n, rest) := by
  induction ds generalizing n with
  | nil =>
    cases rest with
    | nil => rfl
    | cons c rest =>
      have other : isDecimalDigit c = false := stops
      simp [absorbDigits, other]
  | cons d ds ih =>
    rw [Nat.ofDigitChars_cons] at fits ⊢
    have same : n * 10 + digitValue d = 10 * n + (d.toNat - '0'.toNat) := by
      rw [digitValue, Nat.mul_comm]
    have small : n * 10 + digitValue d < 1 <<< 64 := by
      have := absorbed_ge ds (10 * n + (d.toNat - '0'.toNat))
      omega
    rw [List.cons_append, absorbDigits,
      if_pos (by simp only [decimal d List.mem_cons_self, small, Bool.true_and, decide_true]), same]
    exact ih (fun e member => decimal e (List.mem_cons_of_mem _ member)) fits

theorem numberBody_natDigits (negative : Bool) {n : Nat} (fits : n < 2 ^ 64)
    (signed : negative = true → 0 < n ∧ n ≤ 2 ^ 63) (follows : Follows rest) :
    numberBody negative (natDigits n ++ rest) =
      .ok (.int (if negative then -(n : Int) else n), rest) := by
  obtain ⟨c, ds, written, digit, decimal, zero⟩ := natDigits_cons n
  have stops := follows_no_digit follows
  have value : Nat.ofDigitChars 10 ds (digitValue c) = n := by
    have back := Nat.ofDigitChars_toDigits (b := 10) (n := n) (by decide) (by decide)
    rw [← natDigits, written, Nat.ofDigitChars_cons] at back
    simpa [digitValue] using back
  have leading : (c = '0' && startsWithDigit (ds ++ rest)) = false := by
    by_cases first : c = '0'
    · simp [zero first, stops]
    · simp [first]
  have absorbed := absorbDigits_append decimal (n := digitValue c) (by rwa [value]) stops
  rw [value] at absorbed
  have read : (if !negative then .ok (.int n, rest)
      else if 0 < n && n ≤ 1 <<< 63 then .ok (.int (-(n : Int)), rest)
      else finish ⟨negative, n, 0⟩ rest) =
      (.ok (.int (if negative then -(n : Int) else n), rest) : Reading Number) := by
    cases negative with
    | false => rfl
    | true =>
      have small : (0 < n && n ≤ 1 <<< 63) = true := by simpa using signed rfl
      rw [Bool.not_true, if_neg Bool.false_ne_true, if_pos small, if_pos rfl]
  rw [written, List.cons_append, numberBody]
  simp only [digit, leading, absorbed, stops, Bool.not_true, Bool.false_eq_true, if_false]
  cases rest with
  | nil => exact read
  | cons c rest => rcases follows c rfl with rfl | rfl | rfl <;> exact read

theorem quote_append (key : String) (rest : List Char) :
    quote key ++ rest = '"' :: (escape key.toList ++ '"' :: rest) := by
  simp [quote]

theorem stringValue_escape (key : String) (rest : List Char) :
    stringValue (escape key.toList ++ '"' :: rest) = .ok (key, rest) := by
  rw [stringValue, stringBody_escape]
  simp

theorem expectColon_colon (rest : List Char) : expectColon (':' :: rest) = .ok ((), rest) := rfl

theorem nextItem_end (first : Bool) (rest : List Char) :
    nextItem first (']' :: rest) = .ok (false, rest) := rfl

theorem nextItem_first (other : isSpace c = false) (goesOn : c ≠ ']') :
    nextItem true (c :: rest) = .ok (true, c :: rest) := by
  simp [nextItem, skipSpace_other other, goesOn]

theorem nextItem_more (other : isSpace c = false) (goesOn : c ≠ ']') :
    nextItem false (',' :: c :: rest) = .ok (true, c :: rest) := by
  simp [nextItem, skipSpace_other (c := ',') rfl, skipSpace_other other, goesOn]

theorem nextKey_end (first : Bool) (rest : List Char) :
    nextKey first ('}' :: rest) = .ok (none, rest) := rfl

theorem nextKey_first (key : String) (rest : List Char) :
    nextKey true (quote key ++ rest) = .ok (some key, rest) := by
  rw [quote_append]
  simp [nextKey, skipSpace_other (c := '"') rfl, keyBody, stringValue_escape]

theorem nextKey_more (key : String) (rest : List Char) :
    nextKey false (',' :: (quote key ++ rest)) = .ok (some key, rest) := by
  rw [quote_append]
  simp [nextKey, skipSpace_other (c := ',') rfl, skipSpace_other (c := '"') rfl, keyBody,
    stringValue_escape]

theorem natDigits_starts (n : Nat) : ∃ c t, natDigits n = c :: t ∧ isDecimalDigit c = true := by
  obtain ⟨c, ds, written, digit, _⟩ := natDigits_cons n
  exact ⟨c, ds, written, digit⟩

theorem digit_begins (digit : isDecimalDigit c = true) : isSpace c = false ∧ c ≠ ']' := by
  constructor
  · refine Bool.eq_false_iff.mpr fun space => ?_
    simp only [isSpace, Bool.or_eq_true, beq_iff_eq] at space
    rcases space with ((rfl | rfl) | rfl) | rfl <;> cases digit
  · rintro rfl
    cases digit

theorem print_starts (j : Json) (exact : j.Exact) :
    ∃ c t, j.print = c :: t ∧ isSpace c = false ∧ c ≠ ']' := by
  cases j with
  | null => exact ⟨'n', "ull".toList, rfl, rfl, by decide⟩
  | bool value =>
    cases value with
    | true => exact ⟨'t', "rue".toList, rfl, rfl, by decide⟩
    | false => exact ⟨'f', "alse".toList, rfl, rfl, by decide⟩
  | num value =>
    cases value with
    | double x => exact exact.elim
    | int n =>
      obtain ⟨c, t, written, digit⟩ := natDigits_starts n.natAbs
      simp only [print, Number.print]
      split
      · exact ⟨'-', _, rfl, rfl, by decide⟩
      · exact ⟨c, t, written, digit_begins digit⟩
  | str value => exact ⟨'"', _, rfl, rfl, by decide⟩
  | arr items => exact ⟨'[', _, rfl, rfl, by decide⟩
  | obj members => exact ⟨'{', _, rfl, rfl, by decide⟩

theorem number_read {number : Number} (exact : number.Exact) (follows : Follows rest)
    (fuel room : Nat) :
    value (fuel + 1) room (number.print ++ rest) = .ok (.num number, rest) := by
  cases number with
  | double x => exact exact.elim
  | int n =>
    obtain ⟨least, most⟩ := exact
    rw [Number.print]
    split
    · rename_i negative
      have read := numberBody_natDigits true (n := n.natAbs) (by omega)
        (fun _ => by omega) follows
      have same : -(n.natAbs : Int) = n := by omega
      rw [if_pos rfl, same] at read
      simp [value, skipSpace_other (c := '-') rfl, read]
    · rename_i positive
      have read := numberBody_natDigits false (n := n.natAbs) (by omega)
        (fun negative => by cases negative) follows
      have same : (n.natAbs : Int) = n := by omega
      rw [if_neg Bool.false_ne_true, same] at read
      obtain ⟨c, t, written, digit⟩ := natDigits_starts n.natAbs
      obtain ⟨blank, _⟩ := digit_begins digit
      rw [written, List.cons_append] at read ⊢
      have others : c ≠ '"' ∧ c ≠ '[' ∧ c ≠ '{' ∧ c ≠ '-' := by
        refine ⟨?_, ?_, ?_, ?_⟩ <;> rintro rfl <;> cases digit
      simp [value, skipSpace_other blank, others, digit, read]

theorem follows_items (js : List Json) (rest : List Char) :
    Follows (printMoreItems js ++ ']' :: rest) := by
  cases js with
  | nil => exact follows_bracket
  | cons j js => exact follows_comma

theorem follows_members (ms : List (String × Json)) (rest : List Char) :
    Follows (printMoreMembers ms ++ '}' :: rest) := by
  cases ms with
  | nil => exact follows_brace
  | cons m ms => exact follows_comma

-- a value takes one unit of fuel and another as an item, and its text has a character at least
mutual

/-- A printed value is read back, whatever may stand behind it. -/
theorem value_print (j : Json) (exact : j.Exact) {fuel room : Nat} (fits : j.depth ≤ room)
    (enough : 2 * j.print.length ≤ fuel) {rest : List Char} (follows : Follows rest) :
    value fuel room (j.print ++ rest) = .ok (j, rest) := by
  obtain ⟨fuel, rfl⟩ : ∃ more, fuel = more + 1 := by
    obtain ⟨c, t, starts, _⟩ := print_starts j exact
    rw [starts, List.length_cons] at enough
    exact ⟨fuel - 1, by omega⟩
  cases j with
  | null => rfl
  | bool b => cases b <;> rfl
  | num n => exact number_read exact follows fuel room
  | str text =>
    rw [print, quote_append]
    simp [value, skipSpace_other (c := '"') rfl, stringValue_escape]
  | arr js =>
    simp only [depth] at fits
    obtain ⟨room, rfl⟩ : ∃ less, room = less + 1 := ⟨room - 1, by omega⟩
    simp only [print, List.length_append, List.length_cons, List.length_nil] at enough
    have inner : 2 * (printItems js).length + 1 ≤ fuel := by omega
    have read := items_print js exact (Nat.le_of_succ_le_succ fits) inner rest
    simp only [print, List.cons_append, List.append_assoc, List.nil_append]
    simp [value, skipSpace_other (c := '[') rfl, read]
  | obj ms =>
    simp only [depth] at fits
    obtain ⟨room, rfl⟩ : ∃ less, room = less + 1 := ⟨room - 1, by omega⟩
    simp only [print, List.length_append, List.length_cons, List.length_nil] at enough
    have inner : 2 * (printMembers ms).length + 1 ≤ fuel := by omega
    have read := members_print ms exact (Nat.le_of_succ_le_succ fits) inner rest
    simp only [print, List.cons_append, List.append_assoc, List.nil_append]
    simp [value, skipSpace_other (c := '{') rfl, read]

theorem items_print (js : List Json) (exact : ExactItems js) {fuel room : Nat}
    (fits : depthItems js ≤ room) (enough : 2 * (printItems js).length + 1 ≤ fuel)
    (rest : List Char) :
    items fuel room true (printItems js ++ ']' :: rest) = .ok (js, rest) := by
  obtain ⟨fuel, rfl⟩ : ∃ more, fuel = more + 1 := ⟨fuel - 1, by omega⟩
  cases js with
  | nil => simp [printItems, items, nextItem_end]
  | cons j js =>
    obtain ⟨exact, exactMore⟩ := exact
    obtain ⟨fits, fitMore⟩ := Nat.max_le.mp fits
    simp only [printItems, List.length_append] at enough
    obtain ⟨c, t, starts, blank, goesOn⟩ := print_starts j exact
    have long : 0 < j.print.length := by simp [starts]
    have inner : 2 * j.print.length ≤ fuel := by omega
    have innerMore : 2 * (printMoreItems js).length + 1 ≤ fuel := by omega
    have first := value_print j exact fits inner (follows_items js rest)
    have more := moreItems_print js exactMore fitMore innerMore rest
    simp only [printItems, List.append_assoc, items]
    rw [starts, List.cons_append, nextItem_first blank goesOn, ← List.cons_append, ← starts]
    simp [first, more]

theorem moreItems_print (js : List Json) (exact : ExactItems js) {fuel room : Nat}
    (fits : depthItems js ≤ room) (enough : 2 * (printMoreItems js).length + 1 ≤ fuel)
    (rest : List Char) :
    items fuel room false (printMoreItems js ++ ']' :: rest) = .ok (js, rest) := by
  obtain ⟨fuel, rfl⟩ : ∃ more, fuel = more + 1 := ⟨fuel - 1, by omega⟩
  cases js with
  | nil => simp [printMoreItems, items, nextItem_end]
  | cons j js =>
    obtain ⟨exact, exactMore⟩ := exact
    obtain ⟨fits, fitMore⟩ := Nat.max_le.mp fits
    simp only [printMoreItems, List.length_append, List.length_cons] at enough
    obtain ⟨c, t, starts, blank, goesOn⟩ := print_starts j exact
    have inner : 2 * j.print.length ≤ fuel := by omega
    have innerMore : 2 * (printMoreItems js).length + 1 ≤ fuel := by omega
    have first := value_print j exact fits inner (follows_items js rest)
    have more := moreItems_print js exactMore fitMore innerMore rest
    simp only [printMoreItems, List.cons_append, List.append_assoc, items]
    rw [starts, List.cons_append, nextItem_more blank goesOn, ← List.cons_append, ← starts]
    simp [first, more]

theorem members_print (ms : List (String × Json)) (exact : ExactMembers ms) {fuel room : Nat}
    (fits : depthMembers ms ≤ room) (enough : 2 * (printMembers ms).length + 1 ≤ fuel)
    (rest : List Char) :
    members fuel room true (printMembers ms ++ '}' :: rest) = .ok (ms, rest) := by
  obtain ⟨fuel, rfl⟩ : ∃ more, fuel = more + 1 := ⟨fuel - 1, by omega⟩
  cases ms with
  | nil => simp [printMembers, members, nextKey_end]
  | cons m ms =>
    obtain ⟨key, j⟩ := m
    obtain ⟨exact, exactMore⟩ := exact
    obtain ⟨fits, fitMore⟩ := Nat.max_le.mp fits
    simp only [printMembers, List.length_append, List.length_cons] at enough
    have inner : 2 * j.print.length ≤ fuel := by omega
    have innerMore : 2 * (printMoreMembers ms).length + 1 ≤ fuel := by omega
    have first := value_print j exact fits inner (follows_members ms rest)
    have more := moreMembers_print ms exactMore fitMore innerMore rest
    simp only [printMembers, List.cons_append, List.append_assoc, members]
    rw [nextKey_first]
    simp [expectColon_colon, first, more]

theorem moreMembers_print (ms : List (String × Json)) (exact : ExactMembers ms) {fuel room : Nat}
    (fits : depthMembers ms ≤ room) (enough : 2 * (printMoreMembers ms).length + 1 ≤ fuel)
    (rest : List Char) :
    members fuel room false (printMoreMembers ms ++ '}' :: rest) = .ok (ms, rest) := by
  obtain ⟨fuel, rfl⟩ : ∃ more, fuel = more + 1 := ⟨fuel - 1, by omega⟩
  cases ms with
  | nil => simp [printMoreMembers, members, nextKey_end]
  | cons m ms =>
    obtain ⟨key, j⟩ := m
    obtain ⟨exact, exactMore⟩ := exact
    obtain ⟨fits, fitMore⟩ := Nat.max_le.mp fits
    simp only [printMoreMembers, List.length_append, List.length_cons] at enough
    have inner : 2 * j.print.length ≤ fuel := by omega
    have innerMore : 2 * (printMoreMembers ms).length + 1 ≤ fuel := by omega
    have first := value_print j exact fits inner (follows_members ms rest)
    have more := moreMembers_print ms exactMore fitMore innerMore rest
    simp only [printMoreMembers, List.cons_append, List.append_assoc, members]
    rw [nextKey_more]
    simp [expectColon_colon, first, more]

end

theorem nextValue_print {j : Json} {room : Nat} (exact : j.Exact) (fits : j.depth ≤ room)
    (follows : Follows rest) : nextValue room (j.print ++ rest) = .ok (j, rest) :=
  value_print j exact fits (by simp [fuelFor]; omega) follows

end

end StepFlow.Json
