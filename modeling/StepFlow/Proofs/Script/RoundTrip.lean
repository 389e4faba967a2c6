import StepFlow.Proofs.Script.Fuel
import StepFlow.Proofs.Script.Lexeme

/-!
Printing and reading of literals. What the printer writes for an expression of the literal language
is read as that expression, wherever it stands: at the end of a text, or before the comma, the blank
or the bracket that the printer puts behind it. So the language is what the reader accepts, and the
printer picks one text for each of its expressions.
-/
namespace StepFlow.Script.Literal
open Text

/-- A reader takes `a` from the text, whatever stops it there. -/
def GivesBack {α : Type} (read : List Char → Reading α) (text : List Char) (a : α) : Prop :=
  ∀ rest, Stops rest → read (text ++ rest) = .ok (a, rest)

/-- What can stand first in a list or an object: it begins with no blank and does not close. -/
def Begins (close : Char) (text : List Char) : Prop :=
  ∃ c t, text = c :: t ∧ isBlank c = false ∧ c ≠ close

section
variable {c : Char} {s : List Char}

theorem startsNumber_not_blank (starts : startsNumber c = true) : isBlank c = false := by
  have cases : (isDecimalDigit c = true ∨ c = '-') ∨ c = '.' := by simpa [startsNumber] using starts
  rcases cases with (digit | rfl) | rfl
  · exact decimal_not_blank digit
  · decide
  · decide

theorem wordStart_not_number (start : isWordStart c = true) : startsNumber c = false := by
  have minus := ne_of_kind start (d := '-') (by decide)
  have point := ne_of_kind start (d := '.') (by decide)
  simp [startsNumber, wordStart_not_decimal start, minus, point]

theorem ne_bracket {kind : Char → Bool} (own : kind c = true)
    (others : [kind '{', kind '[', kind '(', kind '"', kind '\''] = List.replicate 5 false) :
    c ≠ '{' ∧ c ≠ '[' ∧ c ≠ '(' ∧ isQuote c = false := by
  simp only [List.replicate, List.cons.injEq] at others
  obtain ⟨brace, bracket, paren, double, single, _⟩ := others
  refine ⟨ne_of_kind own brace, ne_of_kind own bracket, ne_of_kind own paren, ?_⟩
  simp [isQuote, ne_of_kind own double, ne_of_kind own single]

theorem readValue_word (start : isWordStart c = true) : readValue (c :: s) = word (c :: s) := by
  obtain ⟨brace, bracket, paren, quote⟩ := ne_bracket start (by decide)
  rw [readValue_eq, skipBlanks_other (wordStart_not_blank start)]
  dsimp only
  rw [if_neg brace, if_neg bracket, if_neg paren, if_neg (by simp [quote]),
    if_neg (by simp [wordStart_not_number start]), if_pos start]

theorem readValue_number {spelling after : List Char} (starts : startsNumber c = true)
    (read : number (c :: s) = .ok (spelling, after)) :
    readValue (c :: s) = .ok (.num (String.ofList spelling), after) := by
  obtain ⟨brace, bracket, paren, quote⟩ := ne_bracket starts (by decide)
  rw [readValue_eq, skipBlanks_other (startsNumber_not_blank starts)]
  dsimp only
  rw [if_neg brace, if_neg bracket, if_neg paren, if_neg (by simp [quote]), if_pos starts, read]

theorem readValue_blank (blank : isBlank c = true) : readValue (c :: s) = readValue s := by
  rw [readValue_eq, readValue_eq s, skipBlanks_blank blank]

end

section
variable {α : Type} {close : Char} {unterminated : Cause} {stray : Char → Cause}
  {item : List Char → Reading α} {others : List Char → Reading (List α)}

theorem enclosed_blank {c : Char} {s : List Char} (blank : isBlank c = true) :
    enclosed close unterminated stray item others (c :: s) =
      enclosed close unterminated stray item others s := by
  rw [enclosed, enclosed, skipBlanks_blank blank]

def followers (text : α → List Char) (items : List α) : List Char :=
  items.flatMap fun a => ',' :: ' ' :: text a

theorem stops_followers {ending : List Char} (text : α → List Char) (items : List α)
    (stops : Stops ending) : Stops (followers text items ++ ending) := by
  cases items with
  | nil => exact stops
  | cons a items => exact ends_cons (by decide)

theorem enclosed_joined
    (rule : ∀ s, others s = enclosed close unterminated stray item others s)
    (text : α → List Char) {ending rest : List Char} (stops : Stops ending)
    (closes : skipBlanks ending = close :: rest) (comma : close ≠ ',') (items : List α) :
    ∀ a, (∀ b ∈ a :: items, Begins close (text b) ∧ GivesBack item (text b) b) →
      others (text a ++ followers text items ++ ending) = .ok (a :: items, rest) := by
  induction items with
  | nil =>
    intro a each
    obtain ⟨⟨c, t, begins, other, more⟩, back⟩ := each a List.mem_cons_self
    have read := back ending stops
    rw [begins, List.cons_append] at read
    rw [followers, List.flatMap_nil, List.append_nil, rule, begins, List.cons_append, enclosed,
      skipBlanks_other other, if_neg (by simpa using more), read]
    simp [closes, comma]
  | cons b items ih =>
    intro a each
    obtain ⟨⟨c, t, begins, other, more⟩, back⟩ := each a List.mem_cons_self
    have later := ih b fun b member => each b (List.mem_cons_of_mem a member)
    have read := back _ (stops_followers text (b :: items) stops)
    rw [begins, List.cons_append] at read
    rw [List.append_assoc, rule, begins, List.cons_append, enclosed, skipBlanks_other other,
      if_neg (by simpa using more), read]
    have comma_next : skipBlanks (followers text (b :: items) ++ ending) =
        ',' :: ' ' :: (text b ++ followers text items ++ ending) := by
      simp [followers, skipBlanks_other (c := ',') (by decide)]
    have blank : others (' ' :: (text b ++ followers text items ++ ending)) =
        others (text b ++ followers text items ++ ending) := by
      rw [rule, enclosed_blank (by decide), ← rule]
    simp only [comma_next, if_true, blank, later]

end

section
variable {e : Expr} {k : PropKey} {depth : Nat} {rest : List Char}

theorem printItems_joined (depth : Nat) (e : Expr) (es : List Expr) :
    printItems depth (e :: es) = printExpr depth e ++ followers (printExpr depth) es := by
  have more : printMoreItems depth es = followers (printExpr depth) es := by
    induction es with
    | nil => rw [printMoreItems, followers, List.flatMap_nil]
    | cons e es ih => rw [printMoreItems, ih]; rfl
  rw [printItems, more]

theorem printMoreProps_followers (depth : Nat) (props : List (PropKey × Expr)) :
    printMoreProps depth props = followers (printProp depth) props := by
  induction props with
  | nil => rw [printMoreProps, followers, List.flatMap_nil]
  | cons prop props ih => rw [printMoreProps, ih]; rfl

theorem quote_back (text : String) :
    readValue (quote text ++ rest) = .ok (.str text, rest) := by
  have body := stringBody_escape text.toList rest
  rw [readValue_eq, quote, List.append_assoc, List.cons_append,
    skipBlanks_other (c := '"') (by decide)]
  simp [isQuote, body]

theorem reference_back (reference : IsReference e) : GivesBack readValue (printExpr depth e) e := by
  intro rest stops
  obtain ⟨c, t, begins, start⟩ := reference_starts depth reference
  have read := word_reference depth reference (stops_word stops)
  rw [begins, List.cons_append] at read ⊢
  rw [readValue_word start, read, fields_stop (stops_point stops)]

theorem constant_back (name : String)
    (constant : (name, e) ∈ [("true", .bool true), ("false", .bool false), ("null", Expr.null)]) :
    GivesBack readValue name.toList e := by
  intro rest stops
  have read := word_constant (stops_word stops) constant
  obtain ⟨c, t, begins, start⟩ : ∃ c t, name.toList = c :: t ∧ isWordStart c = true := by
    simp only [List.mem_cons, Prod.mk.injEq, List.not_mem_nil, or_false] at constant
    rcases constant with ⟨rfl, _⟩ | ⟨rfl, _⟩ | ⟨rfl, _⟩ <;> exact ⟨_, _, rfl, by decide⟩
  rw [begins, List.cons_append] at read ⊢
  rw [readValue_word start, read]

theorem numeral_back {spelling : String} (numeral : IsNumeral spelling.toList) :
    GivesBack readValue spelling.toList (.num spelling) := by
  intro rest stops
  obtain ⟨c, t, begins, starts⟩ := numeral_starts numeral
  have read := number_append numeral stops
  rw [begins, List.cons_append] at read
  have value := readValue_number starts read
  rwa [← List.cons_append, ← begins, String.ofList_toList] at value

theorem key_back (rest : List Char) (valid : IsKey k) :
    ∃ shorthand, key (printKey k ++ ':' :: rest) = .ok ((k, shorthand), ':' :: rest) := by
  cases valid with
  | @bare name word =>
    obtain ⟨c, t, begins, start, each⟩ := isWord_cases word
    have stops : Ends isWordChar (':' :: rest) := ends_cons (by decide)
    obtain ⟨taken, dropped⟩ := run_ends each stops
    obtain ⟨_, _, _, quote⟩ := ne_bracket start (by decide)
    refine ⟨some name, ?_⟩
    rw [printKey, begins, List.cons_append, key, if_neg (by simp [quote]),
      if_neg (by simp [wordStart_not_decimal start]), if_pos start, ← List.cons_append, ← begins,
      taken, dropped, String.ofList_toList]
  | quoted text =>
    have body := stringBody_escape text.toList (':' :: rest)
    refine ⟨none, ?_⟩
    rw [printKey, quote, List.append_assoc, List.cons_append, key, if_pos (by decide)]
    simp [body]

theorem property_back {v : Expr} (valid : IsKey k)
    (back : GivesBack readValue (printExpr depth v) v) :
    GivesBack readProperty (printProp depth (k, v)) (k, v) := by
  intro rest stops
  obtain ⟨shorthand, read⟩ := key_back (' ' :: (printExpr depth v ++ rest)) valid
  have text : printProp depth (k, v) ++ rest =
      printKey k ++ ':' :: ' ' :: (printExpr depth v ++ rest) := by
    rw [printProp]
    simp
  have colon : ∀ s, skipBlanks (':' :: s) = ':' :: s := fun _ => skipBlanks_other (by decide)
  have value := back rest stops
  rw [← readValue_blank (c := ' ') (by decide)] at value
  rw [text, readProperty_eq, read]
  dsimp only
  rw [colon]
  simp only [atPropertyEnd, expect, colon, if_true, value]
  cases shorthand <;> rfl

theorem reference_begins {close : Char} (reference : IsReference e)
    (other : isWordStart close = false) : Begins close (printExpr depth e) := by
  obtain ⟨c, t, begins, start⟩ := reference_starts depth reference
  exact ⟨c, t, begins, wordStart_not_blank start, ne_of_kind start other⟩

theorem literal_begins (depth : Nat) (literal : IsLiteral e) : Begins ']' (printExpr depth e) := by
  cases literal with
  | reference reference => exact reference_begins reference (by decide)
  | str value => exact ⟨'"', _, rfl, by decide, by decide⟩
  | num numeral =>
    obtain ⟨c, t, begins, starts⟩ := numeral_starts numeral
    exact ⟨c, t, begins, startsNumber_not_blank starts, ne_of_kind starts (by decide)⟩
  | bool value => cases value <;> exact ⟨_, _, rfl, by decide, by decide⟩
  | null => exact ⟨_, _, rfl, by decide, by decide⟩
  | array each => exact ⟨'[', _, rfl, by decide, by decide⟩
  | @object props keys values => cases props <;> exact ⟨'{', _, rfl, by decide, by decide⟩

theorem property_begins (depth : Nat) (v : Expr) (valid : IsKey k) :
    Begins '}' (printProp depth (k, v)) := by
  rw [printProp, List.append_assoc]
  cases valid with
  | bare word =>
    obtain ⟨c, t, begins, start, _⟩ := isWord_cases word
    rw [printKey, begins]
    exact ⟨c, _, rfl, wordStart_not_blank start, ne_of_kind start (by decide)⟩
  | quoted text => exact ⟨'"', _, rfl, by decide, by decide⟩

theorem array_back {es : List Expr} (begins : ∀ e ∈ es, Begins ']' (printExpr depth e))
    (back : ∀ e ∈ es, GivesBack readValue (printExpr depth e) e) :
    GivesBack readValue (printExpr depth (.array es)) (.array es) := by
  intro rest stops
  have text : printExpr depth (.array es) = '[' :: printItems depth es ++ [']'] := rfl
  have inside : readItems (printItems depth es ++ ']' :: rest) = .ok (es, rest) := by
    cases es with
    | nil =>
      rw [printItems, readItems_eq, enclosed]
      simp [skipBlanks_other (c := ']') (by decide)]
    | cons e es =>
      rw [printItems_joined]
      exact enclosed_joined readItems_eq (printExpr depth) (ends_cons (by decide))
        (skipBlanks_other (by decide)) (by decide) es e
        fun e member => ⟨begins e member, back e member⟩
  rw [text, readValue_eq, List.append_assoc, List.cons_append,
    skipBlanks_other (c := '[') (by decide)]
  simp [inside]

theorem object_back {props : List (PropKey × Expr)} (keys : ∀ prop ∈ props, IsKey prop.1)
    (back : ∀ prop ∈ props, GivesBack readValue (printExpr depth prop.2) prop.2) :
    GivesBack readValue (printExpr depth (.object props)) (.object props) := by
  intro rest stops
  have inside : ∀ s, printExpr depth (.object props) ++ rest = '{' :: s →
      readProperties s = .ok (props, rest) := by
    intro s text
    cases props with
    | nil =>
      obtain rfl : s = '}' :: rest := (List.cons.inj text).2.symm
      rw [readProperties_eq, enclosed]
      simp [skipBlanks_other (c := '}') (by decide)]
    | cons prop props =>
      have written : s = ' ' :: (printProp depth prop ++ followers (printProp depth) props ++
          ' ' :: '}' :: rest) := by
        rw [← printMoreProps_followers]
        simpa using (List.cons.inj text).2.symm
      have closes : skipBlanks (' ' :: '}' :: rest) = '}' :: rest := by
        rw [skipBlanks_blank (by decide), skipBlanks_other (by decide)]
      rw [written, readProperties_eq, enclosed_blank (by decide), ← readProperties_eq]
      refine enclosed_joined readProperties_eq (printProp depth) (ends_cons (by decide)) closes
        (by decide) props prop fun each member => ?_
      obtain ⟨k, v⟩ := each
      exact ⟨property_begins depth v (keys _ member), property_back (keys _ member) (back _ member)⟩
  obtain ⟨s, text⟩ : ∃ s, printExpr depth (.object props) ++ rest = '{' :: s := by
    cases props <;> exact ⟨_, rfl⟩
  rw [text, readValue_eq, skipBlanks_other (c := '{') (by decide)]
  simp [inside s text]

/-- A printed literal is read back, at any depth. -/
theorem literal_back (depth : Nat) (literal : IsLiteral e) :
    GivesBack readValue (printExpr depth e) e := by
  induction literal with
  | reference reference => exact reference_back reference
  | str value => exact fun rest _ => quote_back value
  | num numeral => exact numeral_back numeral
  | bool value =>
    cases value
    · exact constant_back "false" (by simp)
    · exact constant_back "true" (by simp)
  | null => exact constant_back "null" (by simp)
  | array each ih => exact array_back (fun e member => literal_begins depth (each e member)) ih
  | object keys values ih => exact object_back keys ih

theorem parse_print (literal : IsLiteral e) : parse e.print = .ok e := by
  have back := literal_back 0 literal [] ends_nil
  rw [List.append_nil] at back
  rw [parse, Expr.print, String.toList_ofList, whole_eq, back]
  rfl

end

/-- The literal language is what the reader accepts, and there the printer is inverse to it. -/
theorem parse_print_inverse :
    (∀ source e, parse source = .ok e → IsLiteral e) ∧
      (∀ e, IsLiteral e → parse e.print = .ok e) ∧
      ∀ source e, parse source = .ok e → parse e.print = .ok e :=
  ⟨fun _ _ => parse_literal, fun _ => parse_print,
    fun _ _ parsed => parse_print (parse_literal parsed)⟩

def nested : Expr :=
  .object [
    (.bare "if", .array [.num "-1.5e3", .str "\"\n", .member (.ident "input") "default"]),
    (.quoted "two words", .object [])]

theorem nested_literal : IsLiteral nested := by
  have numeral : IsNumeral "-1.5e3".toList :=
    @IsNumeral.mk ['-'] ['1', '.', '5'] ['e', '3'] (Or.inr rfl)
      (@IsMantissa.pointed ['1'] ['5'] (by decide) (by decide) (Or.inl (by decide)))
      (@IsExponent.marked 'e' [] ['3'] (Or.inl rfl) (Or.inl rfl) (by decide) (by decide))
  have reference : IsReference (.member (.ident "input") "default") :=
    .field (.name (by decide)) (by decide) (by decide)
  have items : ∀ e ∈ [.num "-1.5e3", .str "\"\n", .member (.ident "input") "default"],
      IsLiteral e := by
    simp only [List.forall_mem_cons]
    exact ⟨.num numeral, .str _, .reference reference, fun _ none => by cases none⟩
  refine .object ?_ ?_ <;> simp only [List.forall_mem_cons]
  · exact ⟨.bare (by decide), .quoted _, fun _ none => by cases none⟩
  · exact ⟨.array items, .object (fun _ none => by cases none) (fun _ none => by cases none),
      fun _ none => by cases none⟩

theorem nested_read_back :
    parse nested.print = .ok nested ∧ IsLiteral nested ∧ parse nested.print = .ok nested :=
  have read := parse_print_inverse.2.1 nested nested_literal
  ⟨read, parse_print_inverse.1 _ _ read, parse_print_inverse.2.2 _ _ read⟩

end StepFlow.Script.Literal
