import StepFlow.Proofs.Script.Lexeme

/-!
The grammar of literals: which texts write a value. A text is put together from the texts of its
parts, with blanks in front of a value, a property, a colon, a comma and a closing bracket. Nothing
is said of how far a run goes, and nothing has to be: what may stand behind a word or a numeral
begins with a blank, a comma, a colon, a bracket or, behind a word, a point, none of which goes on
with it, so that every run is as long as it can be.

What a reader takes from the front of a text is a text of the value that it gives.
-/
namespace StepFlow.Script.Literal
open Text

def Blanks (s : List Char) : Prop := ∀ c ∈ s, isBlank c = true

/-- What stands between the quotes of a string. A backslash takes the next character, and after
`\u` four hexadecimal digits. -/
inductive BodyText (close : Char) : List Piece → List Char → Prop where
  | done : BodyText close [] []
  | plain {c : Char} {pieces : List Piece} {text : List Char} (quote : c ≠ close)
      (backslash : c ≠ '\\') (others : BodyText close pieces text) :
      BodyText close (.char c :: pieces) (c :: text)
  | escaped {c : Char} {pieces : List Piece} {text : List Char} (unicode : c ≠ 'u')
      (others : BodyText close pieces text) :
      BodyText close (.char (unescape c) :: pieces) ('\\' :: c :: text)
  | unit {h₁ h₂ h₃ h₄ : Char} {code : Nat} {pieces : List Piece} {text : List Char}
      (digits : hexValue? h₁ h₂ h₃ h₄ = some code) (others : BodyText close pieces text) :
      BodyText close (.unit code :: pieces) ('\\' :: 'u' :: h₁ :: h₂ :: h₃ :: h₄ :: text)

inductive StringText : String → List Char → Prop where
  | mk {quote : Char} {pieces : List Piece} {text : List Char} (is : quote = '"' ∨ quote = '\'')
      (body : BodyText quote pieces text) :
      StringText (String.ofList (decodePieces pieces)) (quote :: (text ++ [quote]))

inductive ReferenceText : Expr → List Char → Prop where
  | name {name : String} (word : isWord name.toList = true) (free : isReserved name = false) :
      ReferenceText (.ident name) name.toList
  | field {object : Expr} {property : String} {text : List Char} (of : ReferenceText object text)
      (some : property ≠ "") (each : ∀ c ∈ property.toList, isWordChar c = true) :
      ReferenceText (.member object property) (text ++ '.' :: property.toList)

inductive KeyText : PropKey → List Char → Prop where
  | string {value : String} {text : List Char} (written : StringText value text) :
      KeyText (.quoted value) text
  | numeral {c : Char} {text : List Char} (digit : isDecimalDigit c = true)
      (numeral : IsNumeral (c :: text)) : KeyText (.quoted (String.ofList (c :: text))) (c :: text)
  | name {name : String} (word : isWord name.toList = true) : KeyText (.bare name) name.toList

inductive Separated : List (List Char) → List Char → Prop where
  | one (text : List Char) : Separated [text] text
  | more {text blanks rest : List Char} {texts : List (List Char)} (blank : Blanks blanks)
      (others : Separated texts rest) :
      Separated (text :: texts) (text ++ blanks ++ ',' :: rest)

/-- Texts with commas between them and perhaps one behind the last, up to a closing bracket. -/
inductive EnclosedText (close : Char) : List (List Char) → List Char → Prop where
  | empty {blanks : List Char} (blank : Blanks blanks) : EnclosedText close [] (blanks ++ [close])
  | filled {texts : List (List Char)} {text blanks : List Char} (inner : Separated texts text)
      (blank : Blanks blanks) : EnclosedText close texts (text ++ blanks ++ [close])
  | trailing {texts : List (List Char)} {text before behind : List Char}
      (inner : Separated texts text) (blank : Blanks before) (blank' : Blanks behind) :
      EnclosedText close texts (text ++ before ++ ',' :: behind ++ [close])

mutual

inductive ValueText : Expr → List Char → Prop where
  | blank {c : Char} {e : Expr} {text : List Char} (blank : isBlank c = true)
      (value : ValueText e text) : ValueText e (c :: text)
  | object {props : List ((PropKey × Expr) × List Char)} {text : List Char}
      (each : ∀ prop ∈ props, PropertyText prop.1 prop.2)
      (enclosed : EnclosedText '}' (props.map Prod.snd) text) :
      ValueText (.object (props.map Prod.fst)) ('{' :: text)
  | array {items : List (Expr × List Char)} {text : List Char}
      (each : ∀ item ∈ items, ValueText item.1 item.2)
      (enclosed : EnclosedText ']' (items.map Prod.snd) text) :
      ValueText (.array (items.map Prod.fst)) ('[' :: text)
  | parens {e : Expr} {text blanks : List Char} (value : ValueText e text)
      (blank : Blanks blanks) : ValueText e ('(' :: text ++ blanks ++ [')'])
  | string {value : String} {text : List Char} (written : StringText value text) :
      ValueText (.str value) text
  | numeral {text : List Char} (numeral : IsNumeral text) :
      ValueText (.num (String.ofList text)) text
  | yes : ValueText (.bool true) "true".toList
  | no : ValueText (.bool false) "false".toList
  | null : ValueText .null "null".toList
  | reference {e : Expr} {text : List Char} (written : ReferenceText e text) : ValueText e text

inductive PropertyText : PropKey × Expr → List Char → Prop where
  | blank {c : Char} {prop : PropKey × Expr} {text : List Char} (blank : isBlank c = true)
      (property : PropertyText prop text) : PropertyText prop (c :: text)
  | pair {k : PropKey} {e : Expr} {keyText blanks text : List Char} (key : KeyText k keyText)
      (blank : Blanks blanks) (value : ValueText e text) :
      PropertyText (k, e) (keyText ++ blanks ++ ':' :: text)
  | shorthand {name : String} (word : isWord name.toList = true)
      (free : isReserved name = false) :
      PropertyText (.bare name, .ident name) name.toList

end

theorem takeWhile_split (kind : Char → Bool) (s : List Char) :
    s = s.takeWhile kind ++ s.dropWhile kind :=
  List.takeWhile_append_dropWhile.symm

theorem skipBlanks_split (s : List Char) : ∃ blanks, s = blanks ++ skipBlanks s ∧ Blanks blanks :=
  ⟨s.takeWhile isBlank, takeWhile_split isBlank s, List.all_eq_true.mp List.all_takeWhile⟩

section
variable {s rest : List Char}

theorem takeOne_split {wanted : Char → Bool} {one : List Char}
    (took : takeOne wanted s = (one, rest)) : s = one ++ rest := by
  rcases takeOne_cases wanted s with ⟨none, _⟩ | ⟨c, after, rfl, _, one⟩
  · obtain ⟨rfl, rfl⟩ := Prod.mk.inj (none.symm.trans took)
    rfl
  · obtain ⟨rfl, rfl⟩ := Prod.mk.inj (one.symm.trans took)
    rfl

theorem exponent_split {scale : List Char} (read : exponent s = .ok (scale, rest)) :
    s = scale ++ rest := by
  unfold exponent at read
  split at read
  · cases read
    rfl
  · rename_i mark after _ took
    dsimp only at read
    cases signed : takeOne (fun c => c == '+' || c == '-') after with
    | mk sign digits =>
      rw [signed] at read
      split at read
      · cases read
      · cases read
        rw [takeOne_split took, takeOne_split signed]
        simp [List.takeWhile_append_dropWhile]

theorem mantissa_split {base : List Char} (read : mantissa s = .ok (base, rest)) :
    s = base ++ rest := by
  have digits := takeWhile_split isDecimalDigit s
  unfold mantissa at read
  dsimp only at read
  split at read
  · rename_i after took
    split at read
    · cases read
    · cases read
      rwa [takeOne_split took] at digits
  · rename_i point after _ took
    split at read
    · cases read
    · cases read
      calc s = s.takeWhile isDecimalDigit ++ (point ++ after) := by
            rwa [takeOne_split took] at digits
        _ = _ := by simp [List.takeWhile_append_dropWhile]

theorem number_split {spelling : List Char} (read : number s = .ok (spelling, rest)) :
    s = spelling ++ rest := by
  unfold number at read
  cases signed : takeOne (· == '-') s with
  | mk sign after =>
    rw [signed] at read
    dsimp only at read
    split at read
    · cases read
    · rename_i digits after base
      split at read
      · rename_i mark rest scale
        cases read
        rw [takeOne_split signed, mantissa_split base, exponent_split scale]
        simp
      · cases read

theorem withItem_ok {α : Type} {item : α} {r : Reading (List α)} {items : List α}
    (read : withItem item r = .ok (items, rest)) :
    ∃ others, r = .ok (others, rest) ∧ items = item :: others := by
  cases r with
  | error fault => cases read
  | ok pair =>
    cases read
    exact ⟨pair.1, rfl, rfl⟩

theorem stringPieces_split {close : Char} {pieces : List Piece}
    (read : stringPieces close s = .ok (pieces, rest)) :
    ∃ text, s = text ++ close :: rest ∧ BodyText close pieces text := by
  fun_induction stringPieces close s generalizing pieces with
  | case1 | case3 | case5 | case6 => cases read
  | case2 =>
    cases read
    exact ⟨[], rfl, .done⟩
  | case4 h₁ h₂ h₃ h₄ after code digits _ ih =>
    obtain ⟨others, inner, rfl⟩ := withItem_ok read
    obtain ⟨text, rfl, body⟩ := ih inner
    exact ⟨'\\' :: 'u' :: h₁ :: h₂ :: h₃ :: h₄ :: text, rfl, .unit digits body⟩
  | case7 e after unicode _ ih =>
    obtain ⟨others, inner, rfl⟩ := withItem_ok read
    obtain ⟨text, rfl, body⟩ := ih inner
    exact ⟨'\\' :: e :: text, rfl, .escaped unicode body⟩
  | case8 c after quote backslash ih =>
    obtain ⟨others, inner, rfl⟩ := withItem_ok read
    obtain ⟨text, rfl, body⟩ := ih inner
    exact ⟨c :: text, rfl, .plain quote backslash body⟩

theorem stringBody_split {quote : Char} {value : List Char} (is : isQuote quote = true)
    (read : stringBody quote s = .ok (value, rest)) :
    ∃ text, quote :: s = text ++ rest ∧ StringText (String.ofList value) text := by
  unfold stringBody at read
  split at read
  · rename_i pieces after inner
    cases read
    obtain ⟨text, rfl, body⟩ := stringPieces_split inner
    exact ⟨quote :: (text ++ [quote]), by simp, .mk (by simpa [isQuote] using is) body⟩
  · cases read

theorem fields_split {e e' : Expr} {text : List Char} (written : ReferenceText e text)
    (read : fields e s = .ok (e', rest)) :
    ∃ more, s = more ++ rest ∧ ReferenceText e' (text ++ more) := by
  fun_induction fields e s generalizing text e' rest with
  | case1 => cases read
  | case2 e after property some =>
    rename_i ih
    have field : ReferenceText (.member e (String.ofList property))
        (text ++ '.' :: (String.ofList property).toList) := by
      refine .field written ?_ ?_
      · simpa [← String.toList_inj] using some
      · simpa [property] using List.all_eq_true.mp List.all_takeWhile
    obtain ⟨more, left, whole⟩ := ih field read
    refine ⟨'.' :: property ++ more, ?_, ?_⟩
    · rw [List.cons_append, List.cons_append, List.append_assoc, ← left, ← takeWhile_split]
    · simpa using whole
  | case3 =>
    cases read
    exact ⟨[], rfl, by simpa using written⟩

theorem word_split {e : Expr} (read : word s = .ok (e, rest)) :
    ∃ text, s = text ++ rest ∧ ValueText e text := by
  have split := takeWhile_split isWordChar s
  have constant : ∀ {name : String} {e : Expr}, ValueText e name.toList →
      String.ofList (s.takeWhile isWordChar) = name →
      ∃ text, s = text ++ s.dropWhile isWordChar ∧ ValueText e text := by
    intro name e written same
    refine ⟨name.toList, ?_, written⟩
    rwa [← same, String.toList_ofList]
  unfold word at read
  dsimp only at read
  split at read
  · rename_i same
    cases read
    exact constant .yes same
  · split at read
    · rename_i same
      cases read
      exact constant .no same
    · split at read
      · rename_i same
        cases read
        exact constant .null same
      · split at read
        · rename_i identifier
          have written : ReferenceText _ _ := .name (Bool.and_eq_true_iff.mp identifier).1
            (by simpa using (Bool.and_eq_true_iff.mp identifier).2)
          obtain ⟨more, left, whole⟩ := fields_split written read
          refine ⟨_, ?_, .reference whole⟩
          rw [String.toList_ofList, List.append_assoc, ← left]
          exact split
        · cases read

theorem expect_split {wanted : Char} {taken : Unit} (read : expect wanted s = .ok (taken, rest)) :
    ∃ blanks, s = blanks ++ wanted :: rest ∧ Blanks blanks := by
  obtain ⟨blanks, split, blank⟩ := skipBlanks_split s
  unfold expect at read
  split at read
  · cases read
  · rename_i c after skipped
    split at read
    · rename_i same
      cases read
      exact ⟨blanks, by rwa [skipped, same] at split, blank⟩
    · cases read

theorem key_split {k : PropKey} {shorthand : Option String}
    (read : key s = .ok ((k, shorthand), rest)) :
    ∃ text, s = text ++ rest ∧ KeyText k text ∧ ∀ name, shorthand = some name →
      k = .bare name ∧ text = name.toList ∧ isWord name.toList = true := by
  unfold key at read
  split at read
  · cases read
  · rename_i c after
    split at read
    · rename_i quote
      split at read
      · rename_i value left inner
        cases read
        obtain ⟨text, split, written⟩ := stringBody_split quote inner
        exact ⟨text, split, .string written, fun _ none => by cases none⟩
      · cases read
    · split at read
      · rename_i digit
        split at read
        · rename_i spelling left inner
          cases read
          have numeral := (reads_ok (number_reads _) inner).1
          have split := number_split inner
          obtain ⟨d, t, rfl, _⟩ := numeral_starts numeral
          obtain rfl := (List.cons.inj split).1
          exact ⟨_, split, .numeral digit numeral, fun _ none => by cases none⟩
        · cases read
      · split at read
        · rename_i start
          cases read
          have word : isWord (String.ofList ((c :: after).takeWhile isWordChar)).toList = true := by
            rw [String.toList_ofList, List.takeWhile_cons_of_pos (wordStart_wordChar start)]
            simp [isWord, start]
          refine ⟨_, ?_, .name word, fun name same => ?_⟩
          · rw [String.toList_ofList]
            exact takeWhile_split isWordChar (c :: after)
          · cases same
            exact ⟨rfl, rfl, word⟩
        · cases read

end

/-- What a reading takes from the front of `s` is a text of what it gives, and perhaps blanks behind
that. -/
def Takes {α : Type} (G : α → List Char → Prop) (s : List Char) (r : Reading α) : Prop :=
  ∀ a rest, r = .ok (a, rest) → ∃ text blanks, s = text ++ blanks ++ rest ∧ Blanks blanks ∧ G a text

theorem takes_of_split {α : Type} {G : α → List Char → Prop} {s : List Char} {r : Reading α}
    (split : ∀ a rest, r = .ok (a, rest) → ∃ text, s = text ++ rest ∧ G a text) : Takes G s r := by
  intro a rest read
  obtain ⟨text, whole, written⟩ := split a rest read
  exact ⟨text, [], by simpa using whole, (fun _ none => by cases none), written⟩

/-- Items, each with a text of its own, and a text in which they stand up to a closing bracket. -/
def Listed {α : Type} (G : α → List Char → Prop) (close : Char) (as : List α)
    (text : List Char) : Prop :=
  ∃ items : List (α × List Char), as = items.map Prod.fst ∧ (∀ item ∈ items, G item.1 item.2) ∧
    EnclosedText close (items.map Prod.snd) text

theorem enclosed_more {close : Char} {text blanks rest : List Char} {texts : List (List Char)}
    (blank : Blanks blanks) (others : EnclosedText close texts rest) :
    EnclosedText close (text :: texts) (text ++ blanks ++ ',' :: rest) := by
  cases others with
  | empty blank' => simpa using EnclosedText.trailing (.one text) blank blank'
  | filled inner blank' => simpa using EnclosedText.filled (.more blank inner) blank'
  | trailing inner blank' blank'' =>
    simpa using EnclosedText.trailing (.more blank inner) blank' blank''

theorem blanks_append {first second : List Char} (left : Blanks first) (right : Blanks second) :
    Blanks (first ++ second) := by
  intro c member
  exact (List.mem_append.mp member).elim (left c) (right c)

section
variable {α : Type} {G : α → List Char → Prop} {close : Char} {unterminated : Cause}
  {stray : Char → Cause} {item : List Char → Reading α} {others : List Char → Reading (List α)}

theorem behind_blanks (blank : ∀ {c a text}, isBlank c = true → G a text → G a (c :: text))
    {a : α} {blanks text : List Char} (all : Blanks blanks) (written : G a text) :
    G a (blanks ++ text) := by
  induction blanks with
  | nil => exact written
  | cons c blanks ih =>
    obtain ⟨first, others⟩ := List.forall_mem_cons.mp all
    exact blank first (ih others)

theorem enclosed_split (blank : ∀ {c a text}, isBlank c = true → G a text → G a (c :: text))
    (item_takes : ∀ s, Takes G s (item s))
    (others_take : ∀ s as rest, others s = .ok (as, rest) →
      ∃ text, s = text ++ rest ∧ Listed G close as text)
    {s rest : List Char} {as : List α}
    (read : enclosed close unterminated stray item others s = .ok (as, rest)) :
    ∃ text, s = text ++ rest ∧ Listed G close as text := by
  obtain ⟨blanks, front, all⟩ := skipBlanks_split s
  unfold enclosed at read
  split at read
  · rename_i closes
    obtain ⟨rest, skipped⟩ := List.head?_eq_some_iff.mp closes
    cases read
    refine ⟨blanks ++ [close], ?_, [], rfl, (fun _ none => by cases none), .empty all⟩
    rw [skipped] at front
    simpa [skipped] using front
  · split at read
    · cases read
    · rename_i a after first
      obtain ⟨text, blanks₁, here, all₁, written⟩ := item_takes _ a after first
      obtain ⟨blanks₂, between, all₂⟩ := skipBlanks_split after
      have own : G a (blanks ++ text) := behind_blanks blank all written
      have gap : Blanks (blanks₁ ++ blanks₂) := blanks_append all₁ all₂
      split at read
      · cases read
      · rename_i c left skipped
        have whole : s = blanks ++ text ++ (blanks₁ ++ blanks₂) ++ c :: left := by
          rw [skipped] at between
          rw [front, here, between]
          simp
        split at read
        · rename_i comma
          split at read
          · rename_i later left' more
            cases read
            obtain ⟨inner, split, items, rfl, each, enclosed⟩ := others_take left later rest more
            refine ⟨blanks ++ text ++ (blanks₁ ++ blanks₂) ++ ',' :: inner, ?_,
              (a, blanks ++ text) :: items, rfl, List.forall_mem_cons.mpr ⟨own, each⟩,
              enclosed_more gap enclosed⟩
            rw [whole, comma, split]
            simp
          · cases read
        · split at read
          · rename_i closes
            cases read
            refine ⟨blanks ++ text ++ (blanks₁ ++ blanks₂) ++ [close], ?_, [(a, blanks ++ text)],
              rfl, by simpa using own, .filled (.one _) gap⟩
            rw [whole, closes]
            simp
          · cases read

end

/-- The readers of values with `fuel` nested calls take texts of what they give. -/
structure Grammatical (fuel : Nat) : Prop where
  value : ∀ s e rest, value fuel s = .ok (e, rest) → ∃ text, s = text ++ rest ∧ ValueText e text
  items : ∀ s es rest, items fuel s = .ok (es, rest) →
    ∃ text, s = text ++ rest ∧ Listed ValueText ']' es text
  properties : ∀ s props rest, properties fuel s = .ok (props, rest) →
    ∃ text, s = text ++ rest ∧ Listed PropertyText '}' props text
  property : ∀ s, Takes PropertyText s (property fuel s)

section
variable {fuel : Nat} (below : Grammatical fuel) {s rest : List Char}
include below

theorem value_split {e : Expr} (read : value (fuel + 1) s = .ok (e, rest)) :
    ∃ text, s = text ++ rest ∧ ValueText e text := by
  obtain ⟨blanks, front, all⟩ := skipBlanks_split s
  suffices here : ∃ text, skipBlanks s = text ++ rest ∧ ValueText e text by
    obtain ⟨text, split, written⟩ := here
    refine ⟨blanks ++ text, ?_, behind_blanks .blank all written⟩
    rw [List.append_assoc, ← split]
    exact front
  rw [value] at read
  split at read
  · cases read
  · rename_i c after skipped
    rw [skipped]
    split at read
    · rename_i brace
      split at read
      · rename_i props left inner
        cases read
        obtain ⟨text, rfl, items, rfl, each, enclosed⟩ := below.properties _ _ _ inner
        exact ⟨'{' :: text, by rw [brace]; rfl, .object each enclosed⟩
      · cases read
    · split at read
      · rename_i bracket
        split at read
        · rename_i es left inner
          cases read
          obtain ⟨text, rfl, items, rfl, each, enclosed⟩ := below.items _ _ _ inner
          exact ⟨'[' :: text, by rw [bracket]; rfl, .array each enclosed⟩
        · cases read
      · split at read
        · rename_i paren
          split at read
          · rename_i e' left inner
            split at read
            · rename_i closing
              cases read
              obtain ⟨text, rfl, written⟩ := below.value _ _ _ inner
              obtain ⟨blanks', rfl, all'⟩ := expect_split closing
              exact ⟨'(' :: text ++ blanks' ++ [')'], by rw [paren]; simp, .parens written all'⟩
            · cases read
          · cases read
        · split at read
          · rename_i quote
            split at read
            · rename_i text left inner
              cases read
              obtain ⟨text, split, written⟩ := stringBody_split quote inner
              exact ⟨text, split, .string written⟩
            · cases read
          · split at read
            · split at read
              · rename_i spelling left inner
                cases read
                exact ⟨spelling, number_split inner,
                  .numeral (reads_ok (number_reads _) inner).1⟩
              · cases read
            · split at read
              · exact word_split read
              · cases read

theorem property_takes (s : List Char) : Takes PropertyText s (property (fuel + 1) s) := by
  intro prop rest read
  rw [property] at read
  split at read
  · cases read
  · rename_i k shorthand after named
    obtain ⟨text, rfl, written, alone⟩ := key_split named
    obtain ⟨blanks, between, all⟩ := skipBlanks_split after
    dsimp only at read
    split at read
    · rename_i name _
      split at read
      · rename_i identifier
        cases read
        obtain ⟨rfl, rfl, word⟩ := alone name rfl
        refine ⟨name.toList, blanks, ?_, all, .shorthand word ?_⟩
        · rw [List.append_assoc, ← between]
        · simpa using (Bool.and_eq_true_iff.mp identifier).2
      · cases read
    · split at read
      · cases read
      · rename_i left colon
        split at read
        · rename_i e left' inner
          cases read
          obtain ⟨blanks', behind, all'⟩ := expect_split colon
          obtain ⟨value, rfl, valued⟩ := below.value _ _ _ inner
          refine ⟨text ++ (blanks ++ blanks') ++ ':' :: value, [], ?_, ?_,
            .pair written (blanks_append all all') valued⟩
          · rw [behind] at between
            rw [between]
            simp
          · exact fun _ none => by cases none
        · cases read

end

/-- Whatever a reader of literals takes is written by the grammar. -/
theorem grammatical (fuel : Nat) : Grammatical fuel := by
  induction fuel with
  | zero =>
    constructor <;> intros <;> simp_all [value, items, properties, property, fail, Takes]
  | succ fuel below =>
    have value_takes : ∀ s, Takes ValueText s (value fuel s) :=
      fun s => takes_of_split (below.value s)
    refine ⟨fun s e rest => value_split below, ?_, ?_, property_takes below⟩
    · intro s es rest read
      rw [items_enclosed] at read
      exact enclosed_split .blank value_takes below.items read
    · intro s props rest read
      rw [properties_enclosed] at read
      exact enclosed_split .blank below.property below.properties read

end StepFlow.Script.Literal
