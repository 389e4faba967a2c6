import StepFlow.Proofs.Script.Reading
import StepFlow.Proofs.Text.Quoted
import StepFlow.Script.Printer

/-!
Numerals, quoted texts and names at the front of a text. A numeral or a name is read as far as it
goes, so it is read back when what stands behind it stops, that is, begins with a character that
can go on neither. A quoted text ends by itself.
-/
namespace StepFlow.Script.Literal
open Text

def Ends (kind : Char → Bool) (s : List Char) : Prop := ∀ c rest, s = c :: rest → kind c = false

def Stops (s : List Char) : Prop := Ends (fun c => isWordChar c || c == '.') s

section
variable {kind other : Char → Bool} {s rest : List Char} {c : Char}

theorem ends_nil : Ends kind [] := fun _ _ same => by cases same

theorem ends_cons (different : kind c = false) : Ends kind (c :: rest) := by
  rintro d rest same
  cases same
  exact different

theorem ends_weaken (ends : Ends kind s) (weaker : ∀ c, other c = true → kind c = true) :
    Ends other s := by
  intro c rest same
  refine Bool.eq_false_iff.mpr fun is => ?_
  have different := ends c rest same
  simp [weaker c is] at different

theorem run_ends {run : List Char} (each : ∀ c ∈ run, kind c = true) (ends : Ends kind rest) :
    (run ++ rest).takeWhile kind = run ∧ (run ++ rest).dropWhile kind = rest := by
  rw [List.takeWhile_append_of_pos each, List.dropWhile_append_of_pos each]
  cases rest with
  | nil => simp
  | cons c rest =>
    have no : ¬ kind c = true := by simp [ends c rest rfl]
    simp [List.takeWhile_cons_of_neg no, List.dropWhile_cons_of_neg no]

theorem stops_word (stops : Stops s) : Ends isWordChar s :=
  ends_weaken stops fun c is => by simp [is]

theorem stops_point (stops : Stops s) : Ends (· == '.') s :=
  ends_weaken stops fun c is => by simp [is]

theorem stops_decimal (stops : Stops s) : Ends isDecimalDigit s :=
  ends_weaken (stops_word stops) fun _ => decimal_wordChar

theorem skipBlanks_blank (blank : isBlank c = true) : skipBlanks (c :: s) = skipBlanks s := by
  simp [skipBlanks, blank]

theorem skipBlanks_other (other : isBlank c = false) : skipBlanks (c :: s) = c :: s := by
  simp [skipBlanks, other]

end

section
variable {s rest : List Char}

theorem takeOne_none {wanted : Char → Bool} (ends : Ends wanted s) :
    takeOne wanted s = ([], s) := by
  cases s with
  | nil => rfl
  | cons c rest => simp [takeOne, ends c rest rfl]

theorem takeOne_one {wanted : Char → Bool} {c : Char} (is : wanted c = true) :
    takeOne wanted (c :: rest) = ([c], rest) := by
  simp [takeOne, is]

theorem exponent_append (scale : IsExponent s) (stops : Stops rest) :
    exponent (s ++ rest) = .ok (s, rest) := by
  cases scale with
  | none =>
    have ends : Ends (fun c => c == 'e' || c == 'E') rest :=
      ends_weaken (stops_word stops) fun c is => by
        rcases (by simpa using is : c = 'e' ∨ c = 'E') with rfl | rfl <;> decide
    rw [List.nil_append, exponent, takeOne_none ends]
  | @marked mark sign digits mark_ok sign_ok decimal some =>
    have is : (mark == 'e' || mark == 'E') = true := by simpa using mark_ok
    have signed : takeOne (fun c => c == '+' || c == '-') (sign ++ (digits ++ rest)) =
        (sign, digits ++ rest) := by
      rcases sign_ok with rfl | rfl | rfl
      · refine takeOne_none ?_
        obtain ⟨d, digits, rfl⟩ := List.exists_cons_of_ne_nil some
        have digit := decimal d List.mem_cons_self
        have plus := ne_of_kind digit (d := '+') (by decide)
        have minus := ne_of_kind digit (d := '-') (by decide)
        exact ends_cons (by simp [plus, minus])
      · rfl
      · rfl
    obtain ⟨taken, dropped⟩ := run_ends decimal (stops_decimal stops)
    rw [List.cons_append, exponent, takeOne_one is, List.append_assoc]
    dsimp only
    rw [signed]
    simp [taken, dropped, some]

theorem exponent_ends (scale : IsExponent s) (stops : Stops rest) :
    Ends (fun c => isDecimalDigit c || c == '.') (s ++ rest) := by
  cases scale with
  | none =>
    refine ends_weaken stops fun c is => ?_
    simp only [Bool.or_eq_true] at is ⊢
    exact is.imp_left decimal_wordChar
  | marked mark_ok => exact ends_cons (by rcases mark_ok with rfl | rfl <;> decide)

theorem mantissa_append (base : IsMantissa s)
    (ends : Ends (fun c => isDecimalDigit c || c == '.') rest) :
    mantissa (s ++ rest) = .ok (s, rest) := by
  have digits_end : Ends isDecimalDigit rest := ends_weaken ends fun c is => by simp [is]
  have no_point : Ends (· == '.') rest := ends_weaken ends fun c is => by simp [is]
  cases base with
  | whole digits some =>
    obtain ⟨taken, dropped⟩ := run_ends digits digits_end
    rw [mantissa, taken, dropped, takeOne_none no_point]
    simp [some]
  | @pointed before after digits more some =>
    have point : Ends isDecimalDigit ('.' :: after ++ rest) := ends_cons (by decide)
    obtain ⟨taken, dropped⟩ := run_ends digits point
    obtain ⟨taken', dropped'⟩ := run_ends more digits_end
    have digit : ¬ (before.isEmpty && after.isEmpty) = true := by
      simpa [Decidable.or_iff_not_imp_left] using some
    rw [List.append_assoc, mantissa, taken, dropped, List.cons_append, takeOne_one (by decide)]
    dsimp only
    rw [taken', dropped', if_neg digit, List.append_assoc]
    rfl

theorem mantissa_starts (base : IsMantissa s) :
    ∃ c t, s = c :: t ∧ (isDecimalDigit c || c == '.') = true := by
  cases base with
  | whole digits some =>
    obtain ⟨c, t, rfl⟩ := List.exists_cons_of_ne_nil some
    exact ⟨c, t, rfl, by simp [digits c List.mem_cons_self]⟩
  | @pointed before after digits =>
    cases before with
    | nil => exact ⟨'.', after, rfl, by decide⟩
    | cons c before => exact ⟨c, _, rfl, by simp [digits c List.mem_cons_self]⟩

theorem numeral_starts (numeral : IsNumeral s) : ∃ c t, s = c :: t ∧ startsNumber c = true := by
  obtain ⟨sign_ok, base, scale⟩ := numeral
  rcases sign_ok with rfl | rfl
  · obtain ⟨c, t, rfl, starts⟩ := mantissa_starts base
    refine ⟨c, _, rfl, ?_⟩
    simp only [startsNumber, Bool.or_eq_true] at starts ⊢
    exact starts.imp_left Or.inl
  · exact ⟨'-', _, rfl, by decide⟩

theorem number_append (numeral : IsNumeral s) (stops : Stops rest) :
    number (s ++ rest) = .ok (s, rest) := by
  obtain @⟨sign, base, scale, sign_ok, base_ok, scale_ok⟩ := numeral
  have signed : takeOne (· == '-') (sign ++ (base ++ (scale ++ rest))) =
      (sign, base ++ (scale ++ rest)) := by
    rcases sign_ok with rfl | rfl
    · refine takeOne_none ?_
      obtain ⟨c, t, rfl, starts⟩ := mantissa_starts base_ok
      have minus : c ≠ '-' := by
        rintro rfl
        cases starts
      exact ends_cons (by simpa using minus)
    · rfl
  have read := mantissa_append base_ok (exponent_ends scale_ok stops)
  rw [List.append_assoc, List.append_assoc, number, signed]
  dsimp only
  rw [read]
  dsimp only
  rw [exponent_append scale_ok stops]

end

section
variable {pieces : List Piece} {rest : List Char}

theorem decodePieces_unit {code : Nat} (single : isHighSurrogate code = false) :
    decodePieces (.unit code :: pieces) = loneUnit code :: decodePieces pieces := by
  cases pieces with
  | nil => rfl
  | cons piece pieces => cases piece <;> simp [decodePieces, single]

theorem control_escape {n : Nat} (control : n < 0x20) :
    hexValue? '0' '0' (hexDigit (n / 16)) (hexDigit (n % 16)) = some n ∧
      isHighSurrogate n = false ∧ loneUnit n = Char.ofNat n := by
  refine ⟨control_hex control, ?_⟩
  revert n
  decide

section
variable {close c : Char}

theorem stringPieces_close : stringPieces c (c :: rest) = .ok ([], rest) := by
  rw [stringPieces.eq_def]
  exact if_pos rfl

theorem stringPieces_plain (quote : c ≠ close) (backslash : c ≠ '\\') :
    stringPieces close (c :: rest) = withItem (.char c) (stringPieces close rest) := by
  rw [stringPieces.eq_def]
  simp [quote, backslash]

theorem stringPieces_escaped (plain : close ≠ '\\') (unicode : c ≠ 'u') :
    stringPieces close ('\\' :: c :: rest) =
      withItem (.char (unescape c)) (stringPieces close rest) := by
  rw [stringPieces.eq_def]
  simp [plain.symm, unicode]

theorem stringPieces_unit {h₁ h₂ h₃ h₄ : Char} {code : Nat} (plain : close ≠ '\\')
    (value : hexValue? h₁ h₂ h₃ h₄ = some code) :
    stringPieces close ('\\' :: 'u' :: h₁ :: h₂ :: h₃ :: h₄ :: rest) =
      withItem (.unit code) (stringPieces close rest) := by
  rw [stringPieces.eq_def]
  simp [plain.symm, value]

end

theorem stringPieces_escape (rest : List Char) (c : Char) : ∃ piece,
    stringPieces '"' (escapeChar c ++ rest) = withItem piece (stringPieces '"' rest) ∧
      ∀ pieces, decodePieces (piece :: pieces) = c :: decodePieces pieces := by
  have escaped := escapeChar_escaped c
  generalize escapeChar c = text at escaped ⊢
  cases escaped with
  | @short d listed =>
    have each : ∀ p ∈ shortEscapes, p.2 ≠ 'u' ∧ unescape p.2 = p.1 := by decide
    obtain ⟨unicode, back⟩ := each _ listed
    exact ⟨.char (unescape d), stringPieces_escaped (by decide) unicode,
      fun pieces => by rw [decodePieces, back]⟩
  | coded control =>
    obtain ⟨value, single, lone⟩ := control_escape control
    exact ⟨.unit c.toNat, stringPieces_unit (by decide) value,
      fun pieces => by rw [decodePieces_unit single, lone, Char.ofNat_toNat]⟩
  | plain quote backslash visible =>
    exact ⟨.char c, stringPieces_plain quote backslash, fun pieces => by rw [decodePieces]⟩

theorem stringBody_escape (s rest : List Char) :
    stringBody '"' (escape s ++ '"' :: rest) = .ok (s, rest) := by
  have pieces : ∃ pieces, stringPieces '"' (escape s ++ '"' :: rest) = .ok (pieces, rest) ∧
      decodePieces pieces = s := by
    induction s with
    | nil => exact ⟨[], stringPieces_close, rfl⟩
    | cons c s ih =>
      obtain ⟨pieces, read, decoded⟩ := ih
      obtain ⟨piece, first, back⟩ := stringPieces_escape (escape s ++ '"' :: rest) c
      refine ⟨piece :: pieces, ?_, by rw [back, decoded]⟩
      rw [escape, List.flatMap_cons, List.append_assoc, ← escape, first, read]
      rfl
  obtain ⟨pieces, read, decoded⟩ := pieces
  rw [stringBody, read]
  simp [decoded]

end

section
variable {e : Expr} {s rest : List Char}

theorem fields_stop (ends : Ends (· == '.') rest) : fields e rest = .ok (e, rest) := by
  rw [fields]
  intro rest' same
  have different := ends _ _ same
  simp at different

theorem fields_more {property : String} (some : property ≠ "")
    (word : property.toList.all isWordChar = true) (ends : Ends isWordChar rest) :
    fields e ('.' :: property.toList ++ rest) = fields (.member e property) rest := by
  obtain ⟨taken, dropped⟩ := run_ends (List.all_eq_true.mp word) ends
  have some : property.toList.isEmpty = false := by simpa using some
  rw [List.cons_append, fields]
  simp [taken, dropped, some]

theorem isWord_cases (word : isWord s = true) :
    ∃ c t, s = c :: t ∧ isWordStart c = true ∧ ∀ d ∈ s, isWordChar d = true := by
  cases s with
  | nil => cases word
  | cons c t =>
    simp only [isWord, Bool.and_eq_true, List.all_eq_true] at word
    exact ⟨c, t, rfl, word.1, List.forall_mem_cons.mpr ⟨wordStart_wordChar word.1, word.2⟩⟩

theorem identifier_isWord {name : String} (identifier : isIdentifier name = true) :
    isWord name.toList = true :=
  (Bool.and_eq_true_iff.mp identifier).1

theorem identifier_not_reserved {name : String} (reserved : String)
    (identifier : isIdentifier name = true) (kept : isReserved reserved = true) :
    name ≠ reserved := by
  rintro rfl
  simp [isIdentifier, kept] at identifier

theorem word_name {name : String} (identifier : isIdentifier name = true)
    (ends : Ends isWordChar rest) : word (name.toList ++ rest) = fields (.ident name) rest := by
  obtain ⟨_, _, _, _, each⟩ := isWord_cases (identifier_isWord identifier)
  obtain ⟨taken, dropped⟩ := run_ends each ends
  have not_true := identifier_not_reserved "true" identifier (by decide)
  have not_false := identifier_not_reserved "false" identifier (by decide)
  have not_null := identifier_not_reserved "null" identifier (by decide)
  rw [word, taken, dropped, String.ofList_toList, if_neg not_true, if_neg not_false,
    if_neg not_null, if_pos identifier]

theorem print_name (depth : Nat) (name : String) : printExpr depth (.ident name) = name.toList :=
  rfl

theorem reference_tight (text : List Char) (reference : IsReference e) :
    asOperand e text = text := by
  cases reference <;> simp [asOperand, Expr.isLoose]

theorem print_field (depth : Nat) (object : IsReference e) (property : String) :
    printExpr depth (.member e property) = printExpr depth e ++ '.' :: property.toList := by
  rw [← reference_tight (printExpr depth e) object]
  rfl

theorem word_reference (depth : Nat) (reference : IsReference e) (ends : Ends isWordChar rest) :
    word (printExpr depth e ++ rest) = fields e rest := by
  induction reference generalizing rest with
  | name identifier =>
    rw [print_name]
    exact word_name identifier ends
  | @field object property of some word ih =>
    rw [print_field depth of, List.append_assoc, List.cons_append,
      ih (ends_cons (c := '.') (by decide))]
    exact fields_more some word ends

theorem reference_starts (depth : Nat) (reference : IsReference e) :
    ∃ c t, printExpr depth e = c :: t ∧ isWordStart c = true := by
  induction reference with
  | name identifier =>
    obtain ⟨c, t, same, start, _⟩ := isWord_cases (identifier_isWord identifier)
    exact ⟨c, t, by rw [print_name, same], start⟩
  | @field object property of some word ih =>
    obtain ⟨c, t, same, start⟩ := ih
    exact ⟨c, _, by rw [print_field depth of, same]; rfl, start⟩

theorem word_constant {name : String} {e : Expr} (ends : Ends isWordChar rest)
    (constant : (name, e) ∈ [("true", .bool true), ("false", .bool false), ("null", Expr.null)]) :
    word (name.toList ++ rest) = .ok (e, rest) := by
  simp only [List.mem_cons, Prod.mk.injEq, List.not_mem_nil, or_false] at constant
  have each : name.toList.all isWordChar = true := by
    rcases constant with ⟨rfl, _⟩ | ⟨rfl, _⟩ | ⟨rfl, _⟩ <;> decide
  obtain ⟨taken, dropped⟩ := run_ends (List.all_eq_true.mp each) ends
  rw [word, taken, dropped, String.ofList_toList]
  rcases constant with ⟨rfl, rfl⟩ | ⟨rfl, rfl⟩ | ⟨rfl, rfl⟩
  · rw [if_pos rfl]
  · rw [if_neg (by decide), if_pos rfl]
  · rw [if_neg (by decide), if_neg (by decide), if_pos rfl]

end

end StepFlow.Script.Literal
