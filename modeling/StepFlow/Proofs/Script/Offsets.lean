import StepFlow.Proofs.Script.Tracked

/-!
Errors point into their source. Each reader of literals agrees with a walk of the cursor, so such a
walk never takes a place behind the end of the text, and never steps back or cuts out of range; and
the text that a fault leaves unread begins where a character does.
-/
namespace StepFlow.Script.Literal
open Text

namespace Cursor

section
variable {text s rest : List Char} {c c' : Cursor}

theorem hexDigits_agrees (n code : Nat) (before : Before text s c) :
    Agrees text (hexDigits text n code) c (.ok (hexCode n code s, afterHex n s)) := by
  induction n generalizing s code c with
  | zero => exact agrees_pure before
  | succ n ih =>
    refine goes_bind (bump_agrees before) fun c before => ?_
    cases s with
    | nil => exact agrees_pure before
    | cons ch rest =>
      simp only [List.head?_cons, Option.bind_some, hexCode, afterHex]
      cases hexDigitValue? ch with
      | none => exact agrees_pure before
      | some digit => exact ih (code * 16 + digit) before

/-- Where there is no low surrogate the cursor is left wherever it was seen that there is none. -/
theorem lowUnit_agrees (before : Before text s c) : ∃ rest,
    Agrees text (lowUnit? text) c (.ok (lowAhead s, rest)) ∧
      ∀ low, lowAhead s = some low → rest = afterHex 4 (s.drop 2) := by
  by_cases escape : ∃ t, s = '\\' :: 'u' :: t
  · obtain ⟨t, rfl⟩ := escape
    refine ⟨afterHex 4 t, ?_, fun _ _ => rfl⟩
    refine goes_bind (bump_agrees before) fun c before => ?_
    refine goes_bind (bump_agrees before) fun c before => ?_
    exact goes_bind (hexDigits_agrees 4 0 before) fun c before => agrees_pure before
  · rw [lowAhead_none escape]
    by_cases backslash : s.head? = some '\\'
    · refine ⟨s.tail.tail, goes_bind (bump_agrees before) fun c before => ?_, by simp⟩
      rw [if_pos backslash]
      refine goes_bind (bump_agrees before) fun c before => ?_
      have other : s.tail.head? ≠ some 'u' := by
        intro unicode
        obtain ⟨after, rfl⟩ := List.head?_eq_some_iff.mp backslash
        obtain ⟨t, rfl⟩ := List.head?_eq_some_iff.mp unicode
        exact escape ⟨t, rfl⟩
      rw [if_neg other]
      exact agrees_pure before
    · refine ⟨s.tail, goes_bind (bump_agrees before) fun c before => ?_, by simp⟩
      rw [if_neg backslash]
      exact agrees_pure before

theorem unicodeEscape_agrees (before : Before text s c) :
    Agrees text (unicodeEscape text) c (escapedChar s) := by
  refine goes_bind (hexDigits_agrees 4 0 before) fun c before => ?_
  rw [escapedChar]
  cases read : hexCode 4 0 s with
  | none => exact error_agrees before
  | some code =>
    dsimp only
    cases high : isHighSurrogate code with
    | true =>
      rw [if_pos rfl, if_pos rfl]
      refine goes_bind (here_agrees before) fun c' looking => ?_
      obtain ⟨rest, looked, behind⟩ := lowUnit_agrees looking
      refine goes_bind looked fun c' ended => ?_
      cases ahead : lowAhead (afterHex 4 s) with
      | some low => exact agrees_pure (behind low ahead ▸ ended)
      | none => exact goes_bind (goTo_agrees ended before) fun c before => agrees_pure before
    | false =>
      rw [if_neg Bool.false_ne_true, if_neg Bool.false_ne_true]
      cases low : isLowSurrogate code with
      | true =>
        have replaced : loneUnit code = replacement := by simp [loneUnit, low]
        rw [if_pos rfl, replaced]
        exact agrees_pure before
      | false =>
        have plain : loneUnit code = Char.ofNat code := by simp [loneUnit, high, low]
        rw [if_neg Bool.false_ne_true, if_pos (valid_unit (hexCode_unit read) high low), plain]
        exact agrees_pure before

section
variable {quote : Char} (plain : quote ≠ '\\')
include plain

theorem escaped_agrees {e : Char} {k : Char → Walk (List Char)} (before : Before text s c)
    (next : ∀ d rest c, rest.length ≤ s.length → Before text rest c →
      Agrees text (k d) c (withItem d (stringBody quote rest))) :
    Agrees text (escaped text e >>= k) c (stringBody quote ('\\' :: e :: s)) := by
  rw [escaped]
  by_cases unicode : e = 'u'
  · subst unicode
    rw [body_escape plain, if_pos rfl]
    refine agrees_bind (unicodeEscape_agrees before) fun d rest c read before => ?_
    rw [read]
    exact next d rest c (reads_ok (escapedChar_reads s) read).2.length_le before
  · rw [body_char (stringPieces_escaped plain unicode), if_neg unicode]
    exact goes_bind (agrees_pure before) fun c before => next _ s c (Nat.le_refl _) before

theorem stringLoop_agrees {n : Nat} (enough : s.length < n) (before : Before text s c) :
    Agrees text (stringLoop text quote n) c (stringBody quote s) := by
  induction n generalizing s c with
  | zero => omega
  | succ n ih =>
    refine goes_bind (bump_agrees before) fun c behind => ?_
    cases s with
    | nil => exact error_agrees behind
    | cons ch rest =>
      rw [List.length_cons] at enough
      dsimp only [List.head?_cons]
      by_cases closes : ch = quote
      · have read : stringBody quote (ch :: rest) = .ok ([], rest) := by
          rw [closes, stringBody, stringPieces_close]
          rfl
        rw [if_pos closes, read]
        exact agrees_pure behind
      rw [if_neg closes]
      by_cases backslash : ch = '\\'
      · subst backslash
        rw [if_pos rfl]
        refine goes_bind (bump_agrees behind) fun c behind => ?_
        cases rest with
        | nil =>
          have read : stringBody quote ['\\'] = fail .unterminatedString [] := by
            rw [stringBody, stringPieces.eq_def]
            simp [closes, fail]
          rw [read]
          exact error_agrees behind
        | cons e rest =>
          rw [List.length_cons] at enough
          exact escaped_agrees (s := rest) plain behind fun d rest c shorter before =>
            agrees_withItem (ih (by omega) before)
      · rw [if_neg backslash, body_char (stringPieces_plain closes backslash)]
        exact agrees_withItem (ih (by omega) behind)

end

theorem string_agrees {quote : Char} (is : isQuote quote = true)
    (before : Before text (quote :: rest) c) :
    Agrees text (string text) c (stringBody quote rest) := by
  have plain : quote ≠ '\\' := by
    rintro rfl
    cases is
  refine goes_bind (bump_agrees before) fun c before => ?_
  exact stringLoop_agrees plain (turns_enough before) before

def passed {α : Type} : Reading α → Reading Unit
  | .ok (_, rest) => .ok ((), rest)
  | .error fault => .error fault

theorem fraction_none (before : Before text s c) (none : takeOne (· == '.') s = ([], s)) :
    Agrees text (fraction text) c (.ok ([], s)) := by
  have stays := stepIf_agrees (· == '.') before
  rw [none] at stays
  exact goes_bind stays fun c before => agrees_pure before

theorem fraction_some (before : Before text ('.' :: rest) c) :
    Agrees text (fraction text) c
      (.ok (rest.takeWhile isDecimalDigit, rest.dropWhile isDecimalDigit)) :=
  goes_bind (stepIf_agrees (· == '.') before) fun _ before => run_agrees isDecimalDigit before

theorem mantissa_agrees (before : Before text s c) :
    Agrees text (mantissa text) c (passed (Literal.mantissa s)) := by
  rw [Literal.mantissa]
  dsimp only
  refine goes_bind (run_agrees isDecimalDigit before) fun c before => ?_
  rcases takeOne_cases (· == '.') (s.dropWhile isDecimalDigit) with
    ⟨none, _⟩ | ⟨point, rest, dropped, is, one⟩
  · refine goes_bind (fraction_none before none) fun c before => ?_
    rw [none]
    dsimp only
    by_cases empty : (s.takeWhile isDecimalDigit).isEmpty
    · rw [if_pos empty, if_pos (by simpa using empty)]
      exact error_agrees before
    · rw [if_neg empty, if_neg (by simpa using empty)]
      exact agrees_pure before
  · obtain rfl : point = '.' := by simpa using is
    refine goes_bind (fraction_some (dropped ▸ before)) fun c before => ?_
    rw [one]
    dsimp only
    by_cases empty :
        (s.takeWhile isDecimalDigit).isEmpty && (rest.takeWhile isDecimalDigit).isEmpty
    · rw [if_pos empty, if_pos (by simpa using empty)]
      exact error_agrees before
    · rw [if_neg empty, if_neg (by simpa using empty)]
      exact agrees_pure before

theorem exponent_agrees (before : Before text s c) :
    Agrees text (exponent text) c (passed (Literal.exponent s)) := by
  have marked := stepIf_agrees (fun c => c == 'e' || c == 'E') before
  rw [Literal.exponent]
  rcases takeOne_cases (fun c => c == 'e' || c == 'E') s with ⟨none, _⟩ | ⟨mark, rest, rfl, is, one⟩
  · rw [none] at marked ⊢
    exact goes_bind marked fun c before => agrees_pure before
  · rw [one] at marked ⊢
    refine goes_bind marked fun c before => ?_
    refine goes_bind (stepIf_agrees (fun c => c == '+' || c == '-') before) fun c before => ?_
    refine goes_bind (here_agrees before) fun c' before' => ?_
    refine goes_bind (run_agrees isDecimalDigit before') fun c' behind => ?_
    refine goes_bind (here_agrees behind) fun c'' behind' => ?_
    dsimp only at before behind behind' ⊢
    generalize takeOne (fun c => c == '+' || c == '-') rest = signed at before behind behind' ⊢
    have stays := run_stays before behind
    by_cases empty : (signed.2.takeWhile isDecimalDigit).isEmpty
    · rw [if_pos empty, if_pos (stays.mpr empty)]
      exact error_agrees (empty_run empty ▸ behind')
    · rw [if_neg empty, if_neg (mt stays.mp empty)]
      exact agrees_pure behind'

theorem number_eq (s : List Char) : Literal.number s =
    match Literal.mantissa (takeOne (· == '-') s).2 with
    | .error fault => .error fault
    | .ok (digits, after) =>
      match Literal.exponent after with
      | .ok (mark, rest) => .ok ((takeOne (· == '-') s).1 ++ digits ++ mark, rest)
      | .error fault => .error fault := rfl

theorem number_agrees (before : Before text s c) :
    Agrees text (number text) c (Literal.number s) := by
  refine goes_bind (here_agrees before) fun c' before' => ?_
  refine goes_bind (stepIf_agrees (· == '-') before') fun c' signed => ?_
  have base := mantissa_agrees signed
  rw [number_eq]
  cases read : Literal.mantissa (takeOne (· == '-') s).2 with
  | error fault =>
    rw [read] at base
    exact stops_bind base
  | ok pair =>
    rw [read] at base
    refine goes_bind base fun c' behind => ?_
    have scale := exponent_agrees behind
    dsimp only
    cases read' : Literal.exponent pair.2 with
    | error fault =>
      rw [read'] at scale
      exact stops_bind scale
    | ok pair' =>
      rw [read'] at scale
      refine goes_bind scale fun c' behind => ?_
      have all : Literal.number s =
          .ok ((takeOne (· == '-') s).1 ++ pair.1 ++ pair'.1, pair'.2) := by
        rw [number_eq, read]
        dsimp only
        rw [read']
      exact cut_agrees (number_split all ▸ before) behind

theorem fieldsLoop_agrees {n : Nat} {e : Expr} (enough : s.length < n) (before : Before text s c) :
    Agrees text (fieldsLoop text n e) c (fields e s) := by
  induction n generalizing s e c with
  | zero => omega
  | succ n ih =>
    refine goes_bind (peek_agrees before) fun c before => ?_
    by_cases point : s.head? = some '.'
    · obtain ⟨rest, rfl⟩ := List.head?_eq_some_iff.mp point
      rw [List.length_cons] at enough
      rw [if_pos point, fields]
      refine goes_bind (step_agrees before) fun c before => ?_
      refine goes_bind (run_agrees isWordChar before) fun c behind => ?_
      by_cases empty : (rest.takeWhile isWordChar).isEmpty
      · rw [if_pos empty, if_pos empty]
        exact error_agrees (empty_run empty ▸ behind)
      · have shorter := (List.dropWhile_suffix isWordChar (l := rest)).length_le
        rw [if_neg empty, if_neg empty]
        exact ih (by omega) behind
    · rw [if_neg point, fields_stop]
      · exact agrees_pure before
      · rintro ch rest rfl
        simpa using point

theorem word_agrees (before : Before text s c) : Agrees text (word text) c (Literal.word s) := by
  rw [Literal.word]
  refine goes_bind (here_agrees before) fun c' before' => ?_
  refine goes_bind (run_agrees isWordChar before') fun c' behind => ?_
  rw [named]
  by_cases yes : String.ofList (s.takeWhile isWordChar) = "true"
  · rw [if_pos yes, if_pos yes]
    exact agrees_pure behind
  rw [if_neg yes, if_neg yes]
  by_cases no : String.ofList (s.takeWhile isWordChar) = "false"
  · rw [if_pos no, if_pos no]
    exact agrees_pure behind
  rw [if_neg no, if_neg no]
  by_cases null : String.ofList (s.takeWhile isWordChar) = "null"
  · rw [if_pos null, if_pos null]
    exact agrees_pure behind
  rw [if_neg null, if_neg null]
  by_cases free : isIdentifier (String.ofList (s.takeWhile isWordChar))
  · rw [if_pos free, if_pos free]
    exact fieldsLoop_agrees (turns_enough behind) behind
  · rw [if_neg free, if_neg free]
    exact goes_bind (goTo_agrees behind before) fun c before => error_agrees before

theorem key_agrees (before : Before text s c) : Agrees text (key text) c (Literal.key s) := by
  refine goes_bind (peek_agrees before) fun c before => ?_
  cases s with
  | nil => exact error_agrees before
  | cons ch rest =>
    rw [Literal.key]
    dsimp only [List.head?_cons]
    by_cases quote : isQuote ch
    · rw [if_pos quote, if_pos quote]
      exact agrees_map (string_agrees quote before)
    rw [if_neg quote, if_neg quote]
    by_cases digit : isDecimalDigit ch
    · rw [if_pos digit, if_pos digit]
      exact agrees_map (number_agrees before)
    rw [if_neg digit, if_neg digit]
    by_cases start : isWordStart ch
    · rw [if_pos start, if_pos start]
      exact goes_bind (run_agrees isWordChar before) fun c before => agrees_pure before
    · rw [if_neg start, if_neg start]
      exact error_agrees before

theorem property_end (s : List Char) :
    (s.head? == some ',' || s.head? == some '}') = atPropertyEnd s := by
  cases s <;> rfl

section
variable {value : Walk Expr}
  (values_agree : ∀ t c, t.length < s.length → Before text t c → Agrees text value c (readValue t))
include values_agree

theorem valued_agrees {k : PropKey} {after : List Char} (le : after.length ≤ s.length)
    (before : Before text after c) :
    Agrees text (expect text ':' >>= fun _ => value >>= fun e => pure (k, e)) c
      (match Literal.expect ':' after with
        | .error fault => .error fault
        | .ok (_, after) =>
          match readValue after with
          | .ok (e, after) => .ok ((k, e), after)
          | .error fault => .error fault) := by
  refine agrees_bind (expect_agrees ':' before) fun _ rest c took before => ?_
  have shorter := expect_shorter took
  rw [took]
  dsimp only
  exact agrees_map (values_agree rest c (by omega) before)

theorem property_agrees (before : Before text s c) :
    Agrees text (property text value) c (readProperty s) := by
  rw [readProperty_eq]
  refine agrees_bind (key_agrees before) fun named after c read before => ?_
  obtain ⟨k, shorthand⟩ := named
  have left := (reads_ok (key_reads s) read).2.length_le
  have le := (skipBlanks_suffix after).length_le
  rw [read]
  refine goes_bind (skip_agrees before) fun c before => ?_
  refine goes_bind (peek_agrees before) fun c before => ?_
  rw [property_end]
  dsimp only
  have valued := valued_agrees (k := k) values_agree (by omega) before
  cases shorthand with
  | none => exact valued
  | some name =>
    cases atPropertyEnd (skipBlanks after) with
    | false => exact valued
    | true =>
      dsimp only
      by_cases free : isIdentifier name
      · rw [if_pos free, if_pos free]
        exact agrees_pure before
      · rw [if_neg free, if_neg free]
        exact error_agrees before

end

section
variable {α : Type} {close opening : Char} {unterminated : Cause} {stray : Char → Cause}
  {item : Walk α} {read : List Char → Reading α} {others : List Char → Reading (List α)}
  (rule : ∀ t, others t = Literal.enclosed close unterminated stray read others t)
  (shortens : ∀ t a rest, read t = .ok (a, rest) → rest.length ≤ t.length)
include rule shortens

theorem enclosedLoop_agrees {n : Nat} (enough : s.length < n)
    (items_agree : ∀ t c, t.length ≤ s.length → Before text t c → Agrees text item c (read t))
    (before : Before text s c) :
    Agrees text (enclosedLoop text close unterminated stray item n) c (others s) := by
  induction n generalizing s c with
  | zero => omega
  | succ n ih =>
    have le := (skipBlanks_suffix s).length_le
    rw [rule, Literal.enclosed]
    refine goes_bind (skip_agrees before) fun c before => ?_
    refine goes_bind (peek_agrees before) fun c before => ?_
    by_cases closes : (skipBlanks s).head? = some close
    · obtain ⟨rest, skipped⟩ := List.head?_eq_some_iff.mp closes
      rw [if_pos closes, if_pos closes, skipped]
      exact goes_bind (step_agrees (skipped ▸ before)) fun c before => agrees_pure before
    · rw [if_neg closes, if_neg closes]
      refine agrees_bind (items_agree _ c le before) fun a after c first before => ?_
      have left := shortens _ _ _ first
      rw [first]
      dsimp only
      refine goes_bind (skip_agrees before) fun c before => ?_
      refine goes_bind (bump_agrees before) fun c behind => ?_
      cases skipped : skipBlanks after with
      | nil =>
        rw [skipped] at behind
        exact error_agrees behind
      | cons ch rest =>
        have shorter := behind_shorter skipped
        rw [skipped] at before behind
        dsimp only [List.head?_cons, List.tail_cons] at behind ⊢
        by_cases comma : ch = ','
        · rw [if_pos comma, if_pos comma]
          exact agrees_map (ih (by omega) (fun t c le => items_agree t c (by omega)) behind)
        rw [if_neg comma, if_neg comma]
        by_cases last : ch = close
        · rw [if_pos last, if_pos last]
          exact agrees_pure behind
        · rw [if_neg last, if_neg last]
          exact goes_bind (stepBack_agrees behind before) fun c before => error_agrees before

theorem enclosed_agrees (solid : isBlank opening = false)
    (items_agree : ∀ t c, t.length ≤ rest.length → Before text t c → Agrees text item c (read t))
    (before : Before text (opening :: rest) c) :
    Agrees text (enclosed text close unterminated stray item opening) c (others rest) :=
  goes_bind (expect_here solid before) fun _ before =>
    enclosedLoop_agrees rule shortens (turns_enough before) items_agree before

end

theorem readValue_shortens (t : List Char) (e : Expr) (rest : List Char)
    (read : readValue t = .ok (e, rest)) : rest.length ≤ t.length :=
  (reads_ok ((sound _).value t) read).2.length_le

theorem readProperty_shortens (t : List Char) (prop : PropKey × Expr) (rest : List Char)
    (read : readProperty t = .ok (prop, rest)) : rest.length ≤ t.length :=
  (reads_ok ((sound _).property t) read).2.length_le

section
variable {n : Nat}
  (below : ∀ t c, t.length < n → Before text t c → Agrees text (value text n) c (readValue t))
include below

theorem braces_agree (enough : rest.length < n) (before : Before text ('{' :: rest) c) :
    Agrees text (enclosed text '}' .unterminatedObject .expectedInObject
      (property text (value text n)) '{') c (readProperties rest) := by
  have props_agree : ∀ t c, t.length ≤ rest.length → Before text t c →
      Agrees text (property text (value text n)) c (readProperty t) := fun t c le before =>
    property_agrees (fun u c lt => below u c (by omega)) before
  exact enclosed_agrees readProperties_eq readProperty_shortens (by decide) props_agree before

theorem brackets_agree (enough : rest.length < n) (before : Before text ('[' :: rest) c) :
    Agrees text (enclosed text ']' .unterminatedList .expectedInList (value text n) '[') c
      (readItems rest) :=
  enclosed_agrees readItems_eq readValue_shortens (by decide)
    (fun t c le => below t c (by omega)) before

theorem parens_agree {ch : Char} (enough : rest.length < n) (before : Before text (ch :: rest) c) :
    Agrees text
      (step >>= fun _ => value text n >>= fun e => expect text ')' >>= fun _ => pure e) c
      (match readValue rest with
        | .ok (e, after) =>
          match Literal.expect ')' after with
          | .ok (_, after) => .ok (e, after)
          | .error fault => .error fault
        | .error fault => .error fault) := by
  refine goes_bind (step_agrees before) fun c before => ?_
  refine agrees_bind (below rest c enough before) fun e after c read before => ?_
  rw [read]
  dsimp only
  exact agrees_map (expect_agrees ')' before)

end

/-- The cursor walks through a value as the reader reads it. -/
theorem value_agrees {n : Nat} (enough : s.length < n) (before : Before text s c) :
    Agrees text (value text n) c (readValue s) := by
  -- on the turns: what is nested in a value is shorter than its text
  induction n generalizing s c with
  | zero => omega
  | succ n ih =>
    have below : ∀ t c, t.length < n → Before text t c →
        Agrees text (value text n) c (readValue t) := fun _ _ => ih
    rw [readValue_eq]
    refine goes_bind (skip_agrees before) fun c before => ?_
    refine goes_bind (peek_agrees before) fun c before => ?_
    cases skipped : skipBlanks s with
    | nil => exact error_agrees (skipped ▸ before)
    | cons ch rest =>
      have shorter : rest.length < n := Nat.lt_of_lt_of_le (behind_shorter skipped) (by omega)
      rw [skipped] at before
      dsimp only [List.head?_cons]
      by_cases brace : ch = '{'
      · subst brace
        rw [if_pos rfl, if_pos rfl]
        exact agrees_map (braces_agree below shorter before)
      rw [if_neg brace, if_neg brace]
      by_cases bracket : ch = '['
      · subst bracket
        rw [if_pos rfl, if_pos rfl]
        exact agrees_map (brackets_agree below shorter before)
      rw [if_neg bracket, if_neg bracket]
      by_cases paren : ch = '('
      · rw [if_pos paren, if_pos paren]
        exact parens_agree below shorter before
      rw [if_neg paren, if_neg paren]
      by_cases quote : isQuote ch
      · rw [if_pos quote, if_pos quote]
        exact agrees_map (string_agrees quote before)
      rw [if_neg quote, if_neg quote]
      by_cases numeral : startsNumber ch
      · rw [if_pos numeral, if_pos numeral]
        exact agrees_map (number_agrees before)
      rw [if_neg numeral, if_neg numeral]
      by_cases start : isWordStart ch
      · rw [if_pos start, if_pos start]
        exact word_agrees before
      · rw [if_neg start, if_neg start]
        exact error_agrees before

end

theorem whole_agrees (text : List Char) :
    Agrees text (whole text) ⟨0, []⟩ ((Literal.whole text).map fun e => (e, [])) := by
  have begun : Before text text ⟨0, []⟩ := ⟨rfl, by simp [places]⟩
  rw [whole_eq]
  refine agrees_bind (value_agrees (turns_enough begun) begun)
    (fun e after c read before => ?_) fun fault failed => ?_
  · rw [read]
    dsimp only
    refine goes_bind (skip_agrees before) fun c before => ?_
    refine goes_bind (peek_agrees before) fun c before => ?_
    cases skipped : skipBlanks after with
    | nil => exact agrees_pure (skipped ▸ before)
    | cons ch rest => exact error_agrees (skipped ▸ before)
  · rw [failed]
    rfl

theorem scan_agrees (source : String) :
    (scan source).1 = (parse source).mapError .fault ∧
      ∀ place ∈ (scan source).2, place ≤ source.toList.length := by
  have agrees := whole_agrees source.toList
  rw [scan, parse]
  cases read : Literal.whole source.toList with
  | ok e =>
    rw [read] at agrees
    cases agrees with
    | ok ended before =>
      rw [EStateM.run] at ended
      rw [ended]
      exact ⟨rfl, before.inside⟩
  | error fault =>
    rw [read] at agrees
    cases agrees with
    | error ended before =>
      rw [EStateM.run] at ended
      rw [ended]
      exact ⟨rfl, before.inside⟩

end Cursor

theorem parse_fault {source : String} {e : Error} (failed : parse source = .error e) :
    ∃ unread, unread <:+ source.toList ∧
      e.offset = utf8Length source.toList - utf8Length unread := by
  have agrees := Cursor.whole_agrees source.toList
  unfold parse at failed
  split at failed
  · cases failed
  · rename_i fault read
    cases failed
    rw [read] at agrees
    cases agrees with
    | error _ before => exact ⟨fault.unread, before.unread ▸ List.drop_suffix _ _, rfl⟩

/-- An error is reported at a boundary between characters of its source. And the cursor that walks
through the source never takes a place behind its last character; its walk gives what the source is
read as, or the error of that, so it does not end with a step back or a cut out of range. -/
theorem errors_point_inside (source : String) :
    (∀ e, parse source = .error e →
      e.offset ≤ source.utf8ByteSize ∧ String.Pos.Raw.IsValid source ⟨e.offset⟩) ∧
    (Cursor.scan source).1 = (parse source).mapError .fault ∧
    ∀ place ∈ (Cursor.scan source).2, place ≤ source.length := by
  refine ⟨fun e failed => ?_, ?_⟩
  · obtain ⟨unread, suffix, offset⟩ := parse_fault failed
    have valid := suffix_boundary suffix
    rw [← offset] at valid
    exact ⟨valid.le_utf8ByteSize, valid⟩
  · rw [← String.length_toList]
    exact Cursor.scan_agrees source

def brokenPair : String := "\"é\\uD83D\\uDEz\""

theorem brokenPair_fails : parse brokenPair = .error ⟨.invalidEscape, 14⟩ := by
  have chars : brokenPair.toList =
      ['"', 'é', '\\', 'u', 'D', '8', '3', 'D', '\\', 'u', 'D', 'E', 'z', '"'] := by decide
  have read : readValue brokenPair.toList = .error ⟨.invalidEscape, ['"']⟩ := by
    rw [chars, readValue_eq, skipBlanks_other (by decide)]
    simp [isQuote, stringBody, stringPieces, hexValue?, hexDigitValue?, withItem, fail, afterHex]
  rw [parse, whole_eq, read, chars]
  rfl

theorem brokenPair_inside : parse brokenPair = .error ⟨.invalidEscape, 14⟩ ∧
    14 ≤ brokenPair.utf8ByteSize ∧ String.Pos.Raw.IsValid brokenPair ⟨14⟩ ∧
    ∀ place ∈ (Cursor.scan brokenPair).2, place ≤ brokenPair.length := by
  obtain ⟨errors, _, inside⟩ := errors_point_inside brokenPair
  obtain ⟨le, valid⟩ := errors _ brokenPair_fails
  exact ⟨brokenPair_fails, le, valid, inside⟩

end StepFlow.Script.Literal
