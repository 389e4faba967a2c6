import StepFlow.Proofs.Script.Grammar
import StepFlow.Proofs.Script.RoundTrip

/-!
The reader accepts every text of the grammar. What stands behind a part of a text stops the part,
and stops it where the grammar ends it, however else the text could be split; so the reader, which
takes each run as far as it goes, takes just the part. With what it is known to take, the texts that
are read as a value are the texts of that value, with blanks behind them.
-/
namespace StepFlow.Script.Literal
open Text

section
variable {c close : Char} {s rest : List Char}

theorem skipBlanks_blanks {blanks : List Char} (all : Blanks blanks) (s : List Char) :
    skipBlanks (blanks ++ s) = skipBlanks s := by
  induction blanks with
  | nil => rfl
  | cons c blanks ih =>
    obtain ⟨first, others⟩ := List.forall_mem_cons.mp all
    rw [List.cons_append, skipBlanks_blank first, ih others]

theorem skipBlanks_skipped (s : List Char) : skipBlanks (skipBlanks s) = skipBlanks s := by
  obtain ⟨blanks, split, all⟩ := skipBlanks_split s
  conv => rhs; rw [split, skipBlanks_blanks all]

theorem skipBlanks_upto {blanks : List Char} (all : Blanks blanks) (other : isBlank c = false) :
    skipBlanks (blanks ++ c :: s) = c :: s := by
  rw [skipBlanks_blanks all, skipBlanks_other other]

def Behind (close : Char) (s : List Char) : Prop :=
  ∃ c rest, skipBlanks s = c :: rest ∧ (c = ',' ∨ c = close)

theorem blanks_stop {blanks : List Char} (all : Blanks blanks) (stops : Stops s) :
    Stops (blanks ++ s) := by
  cases blanks with
  | nil => exact stops
  | cons c blanks =>
    have blank := all c List.mem_cons_self
    have point := ne_of_kind blank (d := '.') (by decide)
    exact ends_cons (by simp [blank_not_wordChar blank, point])

theorem behind_stops (behind : Behind close s)
    (bracket : (isWordChar close || close == '.') = false) : Stops s := by
  obtain ⟨c, rest, skipped, is⟩ := behind
  obtain ⟨blanks, split, all⟩ := skipBlanks_split s
  rw [split, skipped]
  refine blanks_stop all (ends_cons ?_)
  rcases is with rfl | rfl
  · decide
  · exact bracket

end

section
variable {close : Char} {rest : List Char}

theorem bodyText_read {pieces : List Piece} {text : List Char} (plain : close ≠ '\\')
    (body : BodyText close pieces text) :
    stringPieces close (text ++ close :: rest) = .ok (pieces, rest) := by
  induction body with
  | done => exact stringPieces_close
  | plain quote backslash _ ih =>
    rw [List.cons_append, stringPieces_plain quote backslash, ih]
    rfl
  | escaped unicode _ ih =>
    rw [List.cons_append, List.cons_append, stringPieces_escaped plain unicode, ih]
    rfl
  | unit digits _ ih =>
    simp only [List.cons_append]
    rw [stringPieces_unit plain digits, ih]
    rfl

theorem stringText_read {value : String} {text : List Char} (written : StringText value text)
    (rest : List Char) : ∃ quote inner chars, text = quote :: inner ∧ isQuote quote = true ∧
      stringBody quote (inner ++ rest) = .ok (chars, rest) ∧ String.ofList chars = value := by
  obtain @⟨quote, pieces, inner, is, body⟩ := written
  have plain : quote ≠ '\\' := by rcases is with rfl | rfl <;> decide
  have read : stringPieces quote (inner ++ quote :: rest) = .ok (pieces, rest) :=
    bodyText_read plain body
  refine ⟨quote, inner ++ [quote], decodePieces pieces, rfl, by simpa [isQuote] using is, ?_, rfl⟩
  rw [List.append_assoc, List.singleton_append, stringBody, read]

theorem referenceText_printed {e : Expr} {text : List Char} (written : ReferenceText e text) :
    IsReference e ∧ text = printExpr 0 e := by
  induction written with
  | name word free => exact ⟨.name (by simp [isIdentifier, word, free]), (print_name 0 _).symm⟩
  | field of some each ih =>
    obtain ⟨reference, rfl⟩ := ih
    exact ⟨.field reference some (List.all_eq_true.mpr each), (print_field 0 reference _).symm⟩

theorem nameKey_read {name : String} (word : isWord name.toList = true) (stops : Stops rest) :
    key (name.toList ++ rest) = .ok ((.bare name, some name), rest) := by
  obtain ⟨c, t, begins, start, each⟩ := isWord_cases word
  obtain ⟨taken, dropped⟩ := run_ends each (stops_word stops)
  obtain ⟨_, _, _, quote⟩ := ne_bracket start (by decide)
  rw [begins, List.cons_append] at taken dropped ⊢
  rw [key, if_neg (by simp [quote]), if_neg (by simp [wordStart_not_decimal start]),
    if_pos start, taken, dropped, ← begins, String.ofList_toList]

theorem keyText_read {k : PropKey} {text : List Char} (written : KeyText k text)
    (stops : Stops rest) : ∃ shorthand, key (text ++ rest) = .ok ((k, shorthand), rest) := by
  cases written with
  | string written =>
    obtain ⟨quote, inner, chars, rfl, is, read, rfl⟩ := stringText_read written rest
    exact ⟨none, by rw [List.cons_append, key, if_pos is, read]⟩
  | @numeral c text digit numeral =>
    have read := number_append numeral stops
    have quote : isQuote c = false := by
      simp [isQuote, ne_of_kind digit (d := '"') (by decide),
        ne_of_kind digit (d := '\'') (by decide)]
    refine ⟨none, ?_⟩
    rw [List.cons_append] at read ⊢
    rw [key, if_neg (by simp [quote]), if_pos digit, read]
  | name word => exact ⟨_, nameKey_read word stops⟩

end

/-- Where an item ends, a reader gives `a` for this text, and leaves what is behind it, but for
blanks. -/
def Gives {α : Type} (item : List Char → Reading α) (close : Char) (text : List Char) (a : α) :
    Prop :=
  ∀ rest, Behind close rest → ∃ left, item (skipBlanks (text ++ rest)) = .ok (a, left) ∧
    skipBlanks left = skipBlanks rest

section
variable {α : Type} {close : Char} {unterminated : Cause} {stray : Char → Cause}
  {item : List Char → Reading α} {others : List Char → Reading (List α)}
  (rule : ∀ s, others s = enclosed close unterminated stray item others s) (comma : close ≠ ',')
  (refuses : ∀ {s a left}, item s = .ok (a, left) → s.head? ≠ some close)
  {a : α} {text tail rest : List Char}
include rule

theorem enclosed_ends (closes : skipBlanks tail = close :: rest) :
    others tail = .ok ([], rest) := by
  rw [rule, enclosed, closes]
  exact if_pos rfl

include refuses

theorem enclosed_goes_on (gives : Gives item close text a) {as : List α} {more : List Char}
    (next : skipBlanks tail = ',' :: more) (later : others more = .ok (as, rest)) :
    others (text ++ tail) = .ok (a :: as, rest) := by
  obtain ⟨left, read, same⟩ := gives tail ⟨',', more, next, Or.inl rfl⟩
  rw [rule, enclosed, if_neg (refuses read), read]
  simp [same, next, later]

include comma

theorem enclosed_closes (gives : Gives item close text a)
    (closes : skipBlanks tail = close :: rest) : others (text ++ tail) = .ok ([a], rest) := by
  obtain ⟨left, read, same⟩ := gives tail ⟨close, rest, closes, Or.inr rfl⟩
  rw [rule, enclosed, if_neg (refuses read), read]
  simp [same, closes, comma]

theorem separated_read {texts : List (List Char)} (inner : Separated texts text)
    (last : skipBlanks tail = close :: rest ∨
      ∃ more, skipBlanks tail = ',' :: more ∧ others more = .ok ([], rest)) :
    ∀ items : List (α × List Char), texts = items.map Prod.snd →
      (∀ i ∈ items, Gives item close i.2 i.1) →
      others (text ++ tail) = .ok (items.map Prod.fst, rest) := by
  induction inner with
  | one text =>
    intro items same each
    cases items with
    | nil => cases same
    | cons i items =>
      obtain ⟨rfl, none⟩ := List.cons.inj same
      obtain rfl := List.map_eq_nil_iff.mp none.symm
      have gives := each i List.mem_cons_self
      rcases last with closes | ⟨more, next, ends⟩
      · exact enclosed_closes rule comma refuses gives closes
      · exact enclosed_goes_on rule refuses gives next ends
  | @more text blanks inner texts blank _ ih =>
    intro items same each
    cases items with
    | nil => cases same
    | cons i items =>
      obtain ⟨rfl, others_same⟩ := List.cons.inj same
      obtain ⟨gives, each⟩ := List.forall_mem_cons.mp each
      have later := ih items others_same each
      have next : skipBlanks (blanks ++ ',' :: (inner ++ tail)) = ',' :: (inner ++ tail) :=
        skipBlanks_upto blank (by decide)
      simpa using enclosed_goes_on rule refuses gives next later

theorem enclosed_read (bracket : isBlank close = false) {items : List (α × List Char)}
    (each : ∀ i ∈ items, Gives item close i.2 i.1)
    (written : EnclosedText close (items.map Prod.snd) text) :
    others (text ++ rest) = .ok (items.map Prod.fst, rest) := by
  generalize whole : items.map Prod.snd = texts at written
  cases written with
  | empty blank =>
    obtain rfl := List.map_eq_nil_iff.mp whole
    refine enclosed_ends rule ?_
    simp [skipBlanks_upto blank bracket]
  | @filled _ text blanks inner blank =>
    have closes : skipBlanks (blanks ++ close :: rest) = close :: rest :=
      skipBlanks_upto blank bracket
    simpa using separated_read rule comma refuses inner (Or.inl closes) items whole.symm each
  | @trailing _ text before behind inner blank blank' =>
    have closes : skipBlanks (behind ++ close :: rest) = close :: rest :=
      skipBlanks_upto blank' bracket
    have next : skipBlanks (before ++ ',' :: (behind ++ close :: rest)) =
        ',' :: (behind ++ close :: rest) := skipBlanks_upto blank (by decide)
    simpa using separated_read rule comma refuses inner
      (Or.inr ⟨_, next, enclosed_ends rule closes⟩) items whole.symm each

end

theorem readValue_skip (s : List Char) : readValue (skipBlanks s) = readValue s := by
  rw [readValue_eq, readValue_eq s, skipBlanks_skipped]

theorem readValue_refuses {s left : List Char} {e : Expr} (read : readValue s = .ok (e, left)) :
    s.head? ≠ some ']' := by
  intro closes
  obtain ⟨rest, rfl⟩ := List.head?_eq_some_iff.mp closes
  rw [readValue_eq, skipBlanks_other (by decide)] at read
  cases read

theorem readProperty_refuses {s left : List Char} {prop : PropKey × Expr}
    (read : readProperty s = .ok (prop, left)) : s.head? ≠ some '}' := by
  intro closes
  obtain ⟨rest, rfl⟩ := List.head?_eq_some_iff.mp closes
  rw [readProperty_eq] at read
  cases read

section
variable {e : Expr} {text : List Char}

theorem gives_of_back {close : Char} (bracket : (isWordChar close || close == '.') = false)
    (back : GivesBack readValue text e) : Gives readValue close text e := by
  intro rest behind
  exact ⟨rest, (readValue_skip _).trans (back rest (behind_stops behind bracket)), rfl⟩

theorem blank_read {c : Char} (blank : isBlank c = true) (back : GivesBack readValue text e) :
    GivesBack readValue (c :: text) e := by
  intro rest stops
  rw [List.cons_append, readValue_blank blank]
  exact back rest stops

theorem braces_read {props : List ((PropKey × Expr) × List Char)}
    (each : ∀ prop ∈ props, Gives readProperty '}' prop.2 prop.1)
    (written : EnclosedText '}' (props.map Prod.snd) text) :
    GivesBack readValue ('{' :: text) (.object (props.map Prod.fst)) := by
  intro rest _
  have inside : readProperties (text ++ rest) = .ok (props.map Prod.fst, rest) :=
    enclosed_read readProperties_eq (by decide) readProperty_refuses (by decide) each written
  rw [List.cons_append, readValue_eq, skipBlanks_other (by decide)]
  simp [inside]

theorem brackets_read {items : List (Expr × List Char)}
    (each : ∀ item ∈ items, GivesBack readValue item.2 item.1)
    (written : EnclosedText ']' (items.map Prod.snd) text) :
    GivesBack readValue ('[' :: text) (.array (items.map Prod.fst)) := by
  intro rest _
  have inside : readItems (text ++ rest) = .ok (items.map Prod.fst, rest) :=
    enclosed_read readItems_eq (by decide) readValue_refuses (by decide)
      (fun item member => gives_of_back (by decide) (each item member)) written
  rw [List.cons_append, readValue_eq, skipBlanks_other (by decide)]
  simp [inside]

theorem parens_read {blanks : List Char} (back : GivesBack readValue text e)
    (blank : Blanks blanks) : GivesBack readValue ('(' :: text ++ blanks ++ [')']) e := by
  intro rest _
  have stops : Stops (blanks ++ ')' :: rest) := blanks_stop blank (ends_cons (by decide))
  have inside := back _ stops
  have closing : skipBlanks (blanks ++ ')' :: rest) = ')' :: rest :=
    skipBlanks_upto blank (by decide)
  have whole : '(' :: text ++ blanks ++ [')'] ++ rest =
      '(' :: (text ++ (blanks ++ ')' :: rest)) := by
    simp
  rw [whole, readValue_eq, skipBlanks_other (by decide)]
  simp [inside, expect, closing]

theorem string_read {value : String} (written : StringText value text) :
    GivesBack readValue text (.str value) := by
  intro rest _
  obtain ⟨quote, inner, chars, rfl, is, read, rfl⟩ := stringText_read written rest
  have kind : quote = '"' ∨ quote = '\'' := by simpa [isQuote] using is
  rw [List.cons_append, readValue_eq]
  rcases kind with rfl | rfl <;> rw [skipBlanks_other (by decide)] <;> simp [isQuote, read]

theorem numeral_read (numeral : IsNumeral text) :
    GivesBack readValue text (.num (String.ofList text)) := by
  have same : (String.ofList text).toList = text := String.toList_ofList
  have spelled : IsNumeral (String.ofList text).toList := same.symm ▸ numeral
  have back := numeral_back spelled
  rwa [same] at back

theorem reference_read (written : ReferenceText e text) : GivesBack readValue text e := by
  obtain ⟨reference, rfl⟩ := referenceText_printed written
  exact reference_back reference

end

section
variable {k : PropKey} {e : Expr} {text : List Char}

theorem spaced_read {prop : PropKey × Expr} {c : Char} (blank : isBlank c = true)
    (gives : Gives readProperty '}' text prop) : Gives readProperty '}' (c :: text) prop := by
  intro rest behind
  rw [List.cons_append, skipBlanks_blank blank]
  exact gives rest behind

theorem keyText_begins (written : KeyText k text) : ∃ c t, text = c :: t ∧ isBlank c = false := by
  cases written with
  | string written =>
    obtain ⟨is, _⟩ := written
    exact ⟨_, _, rfl, by rcases is with rfl | rfl <;> decide⟩
  | numeral digit => exact ⟨_, _, rfl, decimal_not_blank digit⟩
  | name word =>
    obtain ⟨c, t, begins, start, _⟩ := isWord_cases word
    exact ⟨c, t, begins, wordStart_not_blank start⟩

theorem pair_read {keyText blanks : List Char} (written : KeyText k keyText)
    (blank : Blanks blanks) (back : GivesBack readValue text e) :
    Gives readProperty '}' (keyText ++ blanks ++ ':' :: text) (k, e) := by
  intro rest behind
  have stops : Stops (blanks ++ ':' :: (text ++ rest)) := blanks_stop blank (ends_cons (by decide))
  obtain ⟨shorthand, read⟩ := keyText_read written stops
  obtain ⟨c, t, rfl, other⟩ := keyText_begins written
  have colon : skipBlanks (blanks ++ ':' :: (text ++ rest)) = ':' :: (text ++ rest) :=
    skipBlanks_upto blank (by decide)
  have again : skipBlanks (':' :: (text ++ rest)) = ':' :: (text ++ rest) :=
    skipBlanks_other (by decide)
  have value := back rest (behind_stops behind (by decide))
  have whole : c :: t ++ blanks ++ ':' :: text ++ rest =
      c :: (t ++ (blanks ++ ':' :: (text ++ rest))) := by simp
  refine ⟨rest, ?_, rfl⟩
  rw [whole, skipBlanks_other other, readProperty_eq, ← List.cons_append, read]
  dsimp only
  rw [colon]
  simp only [atPropertyEnd, expect, again, if_true, value]
  cases shorthand <;> rfl

theorem shorthand_read {name : String} (word : isWord name.toList = true)
    (free : isReserved name = false) :
    Gives readProperty '}' name.toList (.bare name, .ident name) := by
  intro rest behind
  have read := nameKey_read word (behind_stops behind (by decide))
  have identifier : isIdentifier name = true := by simp [isIdentifier, word, free]
  obtain ⟨c, t, begins, start, _⟩ := isWord_cases word
  obtain ⟨d, after, next, is⟩ := behind
  have ends : atPropertyEnd (skipBlanks rest) = true := by
    rw [next]
    rcases is with rfl | rfl <;> rfl
  refine ⟨skipBlanks rest, ?_, skipBlanks_skipped rest⟩
  rw [begins, List.cons_append] at read ⊢
  rw [skipBlanks_other (wordStart_not_blank start), readProperty_eq, read]
  dsimp only
  rw [ends]
  simp [identifier]

end

/-- Every text of a value is read as that value. -/
theorem valueText_read {e : Expr} {text : List Char} (written : ValueText e text) :
    GivesBack readValue text e := by
  refine @ValueText.rec (fun e text _ => GivesBack readValue text e)
    (fun prop text _ => Gives readProperty '}' text prop) ?blank ?object ?array ?parens ?string
    ?numeral ?yes ?no ?null ?reference ?spaced ?pair ?shorthand e text written
  case blank => exact fun blank _ back => blank_read blank back
  case object => exact fun _ enclosed each => braces_read each enclosed
  case array => exact fun _ enclosed each => brackets_read each enclosed
  case parens => exact fun _ blank back => parens_read back blank
  case string => exact fun written => string_read written
  case numeral => exact fun numeral => numeral_read numeral
  case yes => exact constant_back "true" (by simp)
  case no => exact constant_back "false" (by simp)
  case null => exact constant_back "null" (by simp)
  case reference => exact fun written => reference_read written
  case spaced => exact fun blank _ gives => spaced_read blank gives
  case pair => exact fun key blank _ back => pair_read key blank back
  case shorthand => exact fun word free => shorthand_read word free

theorem skipBlanks_nil_iff {s : List Char} : skipBlanks s = [] ↔ Blanks s := by
  constructor
  · intro none
    obtain ⟨blanks, split, all⟩ := skipBlanks_split s
    rw [none, List.append_nil] at split
    exact split ▸ all
  · intro all
    have skipped := skipBlanks_blanks all []
    rwa [List.append_nil] at skipped

theorem parse_ok_iff {source : String} {e : Expr} : parse source = .ok e ↔
    ∃ after, readValue source.toList = .ok (e, after) ∧ Blanks after := by
  rw [parse, whole_eq]
  cases readValue source.toList with
  | error fault => simp
  | ok pair =>
    obtain ⟨e', after⟩ := pair
    have blank : skipBlanks after = [] ↔ Blanks after := skipBlanks_nil_iff
    simp only [Except.ok.injEq, Prod.mk.injEq, and_assoc, exists_eq_left', exists_and_left]
    cases left : skipBlanks after with
    | nil => simp [blank.mp left]
    | cons c rest => simp [← blank, left]

/-- A source is read as an expression just when it is a text of that expression with blanks behind
it. -/
theorem parse_iff_written (source : String) (e : Expr) :
    parse source = .ok e ↔
      ∃ text blanks, source.toList = text ++ blanks ∧ ValueText e text ∧ Blanks blanks := by
  constructor
  · intro parsed
    unfold parse at parsed
    split at parsed
    · rename_i read
      cases parsed
      rw [whole_eq] at read
      split at read
      · cases read
      · rename_i e' after value
        obtain ⟨blanks, split, all⟩ := skipBlanks_split after
        split at read
        · rename_i ends
          cases read
          obtain ⟨text, whole, written⟩ := (grammatical _).value _ _ _ value
          rw [ends, List.append_nil] at split
          exact ⟨text, after, whole, written, split ▸ all⟩
        · cases read
    · cases parsed
  · rintro ⟨text, blanks, whole, written, all⟩
    have ends : skipBlanks blanks = [] := by
      rw [← List.append_nil blanks, skipBlanks_blanks all]
      rfl
    have stops : Stops blanks := by
      rw [← List.append_nil blanks]
      exact blanks_stop all ends_nil
    have read := valueText_read written blanks stops
    rw [parse, whole, whole_eq, read]
    dsimp only
    rw [ends]

end StepFlow.Script.Literal
