import StepFlow.Proofs.Text.CharKinds
import StepFlow.Script.Literal

/-!
What the readers of literals give and leave. The literal language is made of the names with their
fields, the constants, strings, numerals, and the lists and objects of these. Whatever a reader of
values gives belongs to it, and what it has not read, whether it gives a value or fails, is an end
of the text it was given.
-/
namespace StepFlow.Script.Literal
open Text

def Decimal (s : List Char) : Prop := ∀ c ∈ s, isDecimalDigit c = true

instance (s : List Char) : Decidable (Decimal s) :=
  decidable_of_iff (s.all isDecimalDigit = true) List.all_eq_true

inductive IsMantissa : List Char → Prop where
  | whole {before : List Char} (digits : Decimal before) (some : before ≠ []) : IsMantissa before
  | pointed {before after : List Char} (digits : Decimal before) (more : Decimal after)
      (some : before ≠ [] ∨ after ≠ []) : IsMantissa (before ++ '.' :: after)

inductive IsExponent : List Char → Prop where
  | none : IsExponent []
  | marked {mark : Char} {sign digits : List Char} (mark_ok : mark = 'e' ∨ mark = 'E')
      (sign_ok : sign = [] ∨ sign = ['+'] ∨ sign = ['-']) (decimal : Decimal digits)
      (some : digits ≠ []) : IsExponent (mark :: (sign ++ digits))

inductive IsNumeral : List Char → Prop where
  | mk {sign mantissa exponent : List Char} (sign_ok : sign = [] ∨ sign = ['-'])
      (base : IsMantissa mantissa) (scale : IsExponent exponent) :
      IsNumeral (sign ++ mantissa ++ exponent)

inductive IsReference : Expr → Prop where
  | name {name : String} (identifier : isIdentifier name = true) : IsReference (.ident name)
  | field {object : Expr} {property : String} (of : IsReference object) (some : property ≠ "")
      (word : property.toList.all isWordChar = true) : IsReference (.member object property)

inductive IsKey : PropKey → Prop where
  | bare {name : String} (word : isWord name.toList = true) : IsKey (.bare name)
  | quoted (text : String) : IsKey (.quoted text)

inductive IsLiteral : Expr → Prop where
  | reference {e : Expr} (reference : IsReference e) : IsLiteral e
  | str (value : String) : IsLiteral (.str value)
  | num {spelling : String} (numeral : IsNumeral spelling.toList) : IsLiteral (.num spelling)
  | bool (value : Bool) : IsLiteral (.bool value)
  | null : IsLiteral .null
  | array {items : List Expr} (each : ∀ e ∈ items, IsLiteral e) : IsLiteral (.array items)
  | object {props : List (PropKey × Expr)} (keys : ∀ prop ∈ props, IsKey prop.1)
      (values : ∀ prop ∈ props, IsLiteral prop.2) : IsLiteral (.object props)

def IsProperty (prop : PropKey × Expr) : Prop := IsKey prop.1 ∧ IsLiteral prop.2

/-- A reading of `s` that gives only what satisfies `P`, and leaves an end of `s`. -/
def Reads {α : Type} (P : α → Prop) (s : List Char) : Reading α → Prop
  | .ok (a, rest) => P a ∧ rest <:+ s
  | .error fault => fault.unread <:+ s

section
variable {α : Type} {P : α → Prop} {s t : List Char} {r : Reading α}

theorem reads_longer (reads : Reads P s r) (suffix : s <:+ t) : Reads P t r := by
  cases r with
  | ok result => exact ⟨reads.1, reads.2.trans suffix⟩
  | error fault => exact List.IsSuffix.trans reads suffix

theorem reads_ok {a : α} {rest : List Char} (reads : Reads P s r) (ok : r = .ok (a, rest)) :
    P a ∧ rest <:+ s := by
  subst ok
  exact reads

theorem reads_error {fault : Fault} (reads : Reads P s r) (failed : r = .error fault) :
    fault.unread <:+ s := by
  subst failed
  exact reads

theorem skipBlanks_suffix (s : List Char) : skipBlanks s <:+ s := List.dropWhile_suffix _

theorem behind_suffix {c : Char} {rest : List Char} (skipped : skipBlanks s = c :: rest) :
    rest <:+ s :=
  (List.suffix_cons c rest).trans (skipped ▸ skipBlanks_suffix s)

end

theorem afterHex_suffix (n : Nat) (s : List Char) : afterHex n s <:+ s := by
  induction n generalizing s with
  | zero => exact List.suffix_refl s
  | succ n ih =>
    cases s with
    | nil => exact List.suffix_refl []
    | cons c s =>
      rw [afterHex]
      split
      · exact (ih s).trans (List.suffix_cons c s)
      · exact List.suffix_cons c s

theorem withItem_reads {α : Type} {item : α} {s : List Char} {r : Reading (List α)}
    (reads : Reads (fun _ => True) s r) : Reads (fun _ => True) s (withItem item r) := by
  cases r with
  | ok result => exact ⟨trivial, reads.2⟩
  | error fault => exact reads

theorem stringPieces_reads (close : Char) (s : List Char) :
    Reads (fun _ => True) s (stringPieces close s) := by
  fun_induction stringPieces close s with
  | case1 => exact List.suffix_refl []
  | case2 rest => exact ⟨trivial, List.suffix_cons _ _⟩
  | case3 => exact List.nil_suffix
  | case4 h₁ h₂ h₃ h₄ after code _ _ ih =>
    exact reads_longer (withItem_reads ih) ⟨['\\', 'u', h₁, h₂, h₃, h₄], rfl⟩
  | case5 h₁ h₂ h₃ h₄ after =>
    exact (afterHex_suffix 4 (h₁ :: h₂ :: h₃ :: h₄ :: after)).trans ⟨['\\', 'u'], rfl⟩
  | case6 rest => exact (afterHex_suffix 4 rest).trans ⟨['\\', 'u'], rfl⟩
  | case7 e rest _ _ ih => exact reads_longer (withItem_reads ih) ⟨['\\', e], rfl⟩
  | case8 c rest _ _ ih => exact reads_longer (withItem_reads ih) (List.suffix_cons c rest)

theorem stringBody_reads (close : Char) (s : List Char) :
    Reads (fun _ => True) s (stringBody close s) := by
  have pieces := stringPieces_reads close s
  unfold stringBody
  split
  · rename_i read
    exact ⟨trivial, (reads_ok pieces read).2⟩
  · rename_i failed
    exact reads_error pieces failed

theorem takeOne_cases (wanted : Char → Bool) (s : List Char) :
    (takeOne wanted s = ([], s) ∧ ∀ c rest, s = c :: rest → wanted c = false) ∨
      ∃ c rest, s = c :: rest ∧ wanted c = true ∧ takeOne wanted s = ([c], rest) := by
  cases s with
  | nil => exact Or.inl ⟨rfl, fun c rest same => by cases same⟩
  | cons c rest =>
    cases taken : wanted c with
    | true => exact Or.inr ⟨c, rest, rfl, taken, by simp [takeOne, taken]⟩
    | false =>
      refine Or.inl ⟨by simp [takeOne, taken], ?_⟩
      intro d rest' same
      cases same
      exact taken

theorem decimal_takeWhile (s : List Char) : Decimal (s.takeWhile isDecimalDigit) :=
  List.all_eq_true.mp List.all_takeWhile

theorem takeOne_taken (wanted : Char → Bool) (s : List Char) : ∃ taken rest,
    takeOne wanted s = (taken, rest) ∧ rest <:+ s ∧
      (taken = [] ∨ ∃ c, wanted c = true ∧ taken = [c]) := by
  rcases takeOne_cases wanted s with ⟨none, _⟩ | ⟨c, rest, rfl, is, one⟩
  · exact ⟨[], s, none, List.suffix_refl s, Or.inl rfl⟩
  · exact ⟨[c], rest, one, List.suffix_cons c rest, Or.inr ⟨c, is, rfl⟩⟩

theorem exponent_reads (s : List Char) : Reads IsExponent s (exponent s) := by
  unfold exponent
  rcases takeOne_cases (fun c => c == 'e' || c == 'E') s with ⟨none, _⟩ | ⟨mark, rest, rfl, is, one⟩
  · rw [none]
    exact ⟨.none, List.suffix_refl s⟩
  · have mark_ok : mark = 'e' ∨ mark = 'E' := by simpa using is
    obtain ⟨sign, after, signed, left, sign_ok⟩ :=
      takeOne_taken (fun c => c == '+' || c == '-') rest
    have sign_ok : sign = [] ∨ sign = ['+'] ∨ sign = ['-'] := by
      rcases sign_ok with rfl | ⟨c, is, rfl⟩
      · exact Or.inl rfl
      · exact Or.inr (by simpa using is)
    have behind : after <:+ mark :: rest := left.trans (List.suffix_cons mark rest)
    rw [one]
    dsimp only
    rw [signed]
    dsimp only
    split
    · exact behind
    · rename_i some
      exact ⟨.marked mark_ok sign_ok (decimal_takeWhile after) (by simpa using some),
        (List.dropWhile_suffix _).trans behind⟩

theorem mantissa_reads (s : List Char) : Reads IsMantissa s (mantissa s) := by
  have behind : s.dropWhile isDecimalDigit <:+ s := List.dropWhile_suffix _
  unfold mantissa
  dsimp only
  rcases takeOne_cases (· == '.') (s.dropWhile isDecimalDigit) with
    ⟨none, _⟩ | ⟨point, rest, dropped, is, one⟩
  · rw [none]
    dsimp only
    split
    · exact behind
    · rename_i some
      exact ⟨.whole (decimal_takeWhile s) (by simpa using some), behind⟩
  · obtain rfl : point = '.' := by simpa using is
    have behind : rest.dropWhile isDecimalDigit <:+ s :=
      (List.dropWhile_suffix _).trans ((List.suffix_cons '.' rest).trans (dropped ▸ behind))
    rw [one]
    dsimp only
    split
    · exact behind
    · rename_i some
      refine ⟨?_, behind⟩
      rw [List.append_assoc]
      exact .pointed (decimal_takeWhile s) (decimal_takeWhile rest)
        (Decidable.not_or_of_imp (by simpa using some))

theorem number_reads (s : List Char) : Reads IsNumeral s (number s) := by
  obtain ⟨sign, after, signed, behind, sign_ok⟩ := takeOne_taken (· == '-') s
  have sign_ok : sign = [] ∨ sign = ['-'] := by
    rcases sign_ok with rfl | ⟨c, is, rfl⟩
    · exact Or.inl rfl
    · exact Or.inr (by simpa using is)
  have base := mantissa_reads after
  unfold number
  rw [signed]
  dsimp only
  split
  · rename_i failed
    exact (reads_error base failed).trans behind
  · rename_i digits rest read
    obtain ⟨mantissa_ok, left⟩ := reads_ok base read
    have scale := exponent_reads rest
    split
    · rename_i read
      obtain ⟨exponent_ok, left'⟩ := reads_ok scale read
      exact ⟨.mk sign_ok mantissa_ok exponent_ok, left'.trans (left.trans behind)⟩
    · rename_i failed
      exact (reads_error scale failed).trans (left.trans behind)

theorem fields_reads (e : Expr) (s : List Char) (reference : IsReference e) :
    Reads IsReference s (fields e s) := by
  fun_induction fields e s with
  | case1 e rest property none => exact List.suffix_cons '.' rest
  | case2 e rest property some ih =>
    have word : IsReference (.member e (String.ofList property)) := by
      refine .field reference ?_ ?_
      · simpa [← String.toList_inj] using some
      · simp [property]
    exact reads_longer (ih word) ((List.dropWhile_suffix _).trans (List.suffix_cons '.' rest))
  | case3 e s => exact ⟨reference, List.suffix_refl s⟩

theorem word_reads (s : List Char) : Reads IsLiteral s (word s) := by
  have behind : s.dropWhile isWordChar <:+ s := List.dropWhile_suffix _
  unfold word
  dsimp only
  split
  · exact ⟨.bool true, behind⟩
  · split
    · exact ⟨.bool false, behind⟩
    · split
      · exact ⟨.null, behind⟩
      · split
        · rename_i identifier
          have reads := reads_longer (fields_reads _ _ (.name identifier)) behind
          cases result : fields (.ident (String.ofList (s.takeWhile isWordChar)))
              (s.dropWhile isWordChar) with
          | ok pair =>
            obtain ⟨e, rest⟩ := pair
            obtain ⟨reference, left⟩ := reads_ok reads result
            exact ⟨.reference reference, left⟩
          | error fault => exact reads_error reads result
        · exact List.suffix_refl s

theorem expect_reads (wanted : Char) (s : List Char) :
    Reads (fun _ => True) s (expect wanted s) := by
  unfold expect
  split
  · exact List.nil_suffix
  · rename_i c rest skipped
    split
    · exact ⟨trivial, behind_suffix skipped⟩
    · exact skipped ▸ skipBlanks_suffix s

theorem key_reads (s : List Char) : Reads (fun k => IsKey k.1) s (key s) := by
  unfold key
  split
  · exact List.suffix_refl []
  · rename_i c rest
    split
    · have body := stringBody_reads c rest
      split
      · rename_i read
        exact ⟨.quoted _, (reads_ok body read).2.trans (List.suffix_cons c rest)⟩
      · rename_i failed
        exact (reads_error body failed).trans (List.suffix_cons c rest)
    · split
      · have numeral := number_reads (c :: rest)
        split
        · rename_i read
          exact ⟨.quoted _, (reads_ok numeral read).2⟩
        · rename_i failed
          exact reads_error numeral failed
      · split
        · rename_i start
          refine ⟨.bare ?_, List.dropWhile_suffix _⟩
          rw [String.toList_ofList, List.takeWhile_cons_of_pos (wordStart_wordChar start)]
          simp [isWord, start]
        · exact List.suffix_refl _

/-- What stands between brackets, behind the opening one: items with commas between them and perhaps
one at the end. Lists and objects are read alike, but for their items and for what is reported. -/
def enclosed {α : Type} (close : Char) (unterminated : Cause) (stray : Char → Cause)
    (item : List Char → Reading α) (others : List Char → Reading (List α)) (s : List Char) :
    Reading (List α) :=
  if (skipBlanks s).head? = some close then .ok ([], (skipBlanks s).tail)
  else
    match item (skipBlanks s) with
    | .error fault => .error fault
    | .ok (a, after) =>
      match skipBlanks after with
      | [] => fail unterminated []
      | c :: rest =>
        if c = ',' then
          match others rest with
          | .ok (items, after) => .ok (a :: items, after)
          | .error fault => .error fault
        else if c = close then .ok ([a], rest)
        else fail (stray c) (c :: rest)

theorem items_enclosed (fuel : Nat) (s : List Char) : items (fuel + 1) s =
    enclosed ']' .unterminatedList .expectedInList (value fuel) (items fuel) s := by
  rw [items, enclosed]
  split
  · rename_i rest skipped
    simp [skipped]
  · rename_i more
    rw [if_neg]
    · cases value fuel (skipBlanks s) with
      | error fault => rfl
      | ok pair =>
        dsimp only
        cases skipBlanks pair.2 with
        | nil => rfl
        | cons c rest => cases others : items fuel rest <;> simp [others]
    · intro closes
      obtain ⟨rest, skipped⟩ := List.head?_eq_some_iff.mp closes
      exact more rest skipped

theorem properties_enclosed (fuel : Nat) (s : List Char) : properties (fuel + 1) s =
    enclosed '}' .unterminatedObject .expectedInObject (property fuel) (properties fuel) s := by
  rw [properties, enclosed]
  split
  · rename_i rest skipped
    simp [skipped]
  · rename_i more
    rw [if_neg]
    · cases property fuel (skipBlanks s) with
      | error fault => rfl
      | ok pair =>
        dsimp only
        cases skipBlanks pair.2 with
        | nil => rfl
        | cons c rest => cases others : properties fuel rest <;> simp [others]
    · intro closes
      obtain ⟨rest, skipped⟩ := List.head?_eq_some_iff.mp closes
      exact more rest skipped

theorem enclosed_reads {α : Type} {P : α → Prop} {close : Char} {unterminated : Cause}
    {stray : Char → Cause} {item : List Char → Reading α} {others : List Char → Reading (List α)}
    (item_reads : ∀ s, Reads P s (item s))
    (others_read : ∀ s, Reads (fun items => ∀ a ∈ items, P a) s (others s)) (s : List Char) :
    Reads (fun items => ∀ a ∈ items, P a) s (enclosed close unterminated stray item others s) := by
  have here : skipBlanks s <:+ s := skipBlanks_suffix s
  unfold enclosed
  split
  · exact ⟨by simp, (List.tail_suffix _).trans here⟩
  · have first := reads_longer (item_reads (skipBlanks s)) here
    split
    · rename_i failed
      exact reads_error first failed
    · rename_i a after read
      obtain ⟨valid, left⟩ := reads_ok first read
      split
      · exact List.nil_suffix
      · rename_i c rest skipped
        have behind := (behind_suffix skipped).trans left
        split
        · have more := others_read rest
          split
          · rename_i read
            obtain ⟨each, left⟩ := reads_ok more read
            exact ⟨List.forall_mem_cons.mpr ⟨valid, each⟩, left.trans behind⟩
          · rename_i failed
            exact (reads_error more failed).trans behind
        · split
          · exact ⟨by simpa using valid, behind⟩
          · exact (skipped ▸ skipBlanks_suffix after : c :: rest <:+ after).trans left

structure Sound (fuel : Nat) : Prop where
  value : ∀ s, Reads IsLiteral s (value fuel s)
  items : ∀ s, Reads (fun es => ∀ e ∈ es, IsLiteral e) s (items fuel s)
  properties : ∀ s, Reads (fun props => ∀ prop ∈ props, IsProperty prop) s (properties fuel s)
  property : ∀ s, Reads IsProperty s (property fuel s)

section
variable {fuel : Nat} (below : Sound fuel) (s : List Char)
include below

theorem value_reads : Reads IsLiteral s (value (fuel + 1) s) := by
  rw [value]
  split
  · exact List.nil_suffix
  · rename_i c rest skipped
    have behind := behind_suffix skipped
    have here : c :: rest <:+ s := skipped ▸ skipBlanks_suffix s
    split
    · have props := below.properties rest
      split
      · rename_i read
        obtain ⟨each, left⟩ := reads_ok props read
        exact ⟨.object (fun prop member => (each prop member).1)
          (fun prop member => (each prop member).2), left.trans behind⟩
      · rename_i failed
        exact (reads_error props failed).trans behind
    · split
      · have es := below.items rest
        split
        · rename_i read
          obtain ⟨each, left⟩ := reads_ok es read
          exact ⟨.array each, left.trans behind⟩
        · rename_i failed
          exact (reads_error es failed).trans behind
      · split
        · have inner := below.value rest
          split
          · rename_i e after read
            obtain ⟨literal, left⟩ := reads_ok inner read
            have closing := expect_reads ')' after
            split
            · rename_i read
              exact ⟨literal, (reads_ok closing read).2.trans (left.trans behind)⟩
            · rename_i failed
              exact (reads_error closing failed).trans (left.trans behind)
          · rename_i failed
            exact (reads_error inner failed).trans behind
        · split
          · have body := stringBody_reads c rest
            split
            · rename_i read
              exact ⟨.str _, (reads_ok body read).2.trans behind⟩
            · rename_i failed
              exact (reads_error body failed).trans behind
          · split
            · have numeral := number_reads (c :: rest)
              split
              · rename_i read
                obtain ⟨spelled, left⟩ := reads_ok numeral read
                exact ⟨.num (by simpa using spelled), left.trans here⟩
              · rename_i failed
                exact (reads_error numeral failed).trans here
            · split
              · exact reads_longer (word_reads (c :: rest)) here
              · exact here

theorem property_reads : Reads IsProperty s (property (fuel + 1) s) := by
  have named := key_reads s
  rw [property]
  split
  · rename_i failed
    exact reads_error named failed
  · rename_i k shorthand after read
    obtain ⟨valid, left⟩ := reads_ok named read
    have left := (skipBlanks_suffix after).trans left
    dsimp only
    split
    · split
      · rename_i identifier
        exact ⟨⟨valid, .reference (.name identifier)⟩, left⟩
      · exact left
    · have colon := reads_longer (expect_reads ':' (skipBlanks after)) left
      split
      · rename_i failed
        exact reads_error colon failed
      · rename_i after read
        have inner := reads_longer (below.value after) (reads_ok colon read).2
        split
        · rename_i read
          obtain ⟨literal, left⟩ := reads_ok inner read
          exact ⟨⟨valid, literal⟩, left⟩
        · rename_i failed
          exact reads_error inner failed

end

/-- Whatever a reader gives is a literal, and it leaves an end of its text. -/
theorem sound (fuel : Nat) : Sound fuel := by
  induction fuel with
  | zero =>
    constructor <;> intro s <;> simp only [value, items, properties, property] <;>
      exact List.suffix_refl s
  | succ fuel below =>
    refine ⟨value_reads below, ?_, ?_, property_reads below⟩
    · intro s
      rw [items_enclosed]
      exact enclosed_reads below.value below.items s
    · intro s
      rw [properties_enclosed]
      exact enclosed_reads below.property below.properties s

theorem parse_literal {source : String} {e : Expr} (parsed : parse source = .ok e) :
    IsLiteral e := by
  unfold parse whole at parsed
  have reads := (sound (fuelFor source.toList)).value source.toList
  cases result : value (fuelFor source.toList) source.toList with
  | error fault => simp [result] at parsed
  | ok pair =>
    obtain ⟨e', after⟩ := pair
    rw [result] at parsed
    dsimp only at parsed
    split at parsed
    · rename_i whole
      split at whole
      · cases whole
        cases parsed
        exact (reads_ok reads result).1
      · cases whole
    · cases parsed

end StepFlow.Script.Literal
