import StepFlow.Proofs.Script.Printed
import StepFlow.Proofs.Script.Proper
import StepFlow.Proofs.Script.RoundTrip
import StepFlow.Proofs.Script.Source

/-!
Printed scripts are read back. An expression is read up to what cannot go on with it, and a chain of
fields and calls from its head outwards. The readers are bounded by a depth; a script is read by all
that are deep enough for it, so two scripts can be read by the same one.
-/
namespace StepFlow.Script.Source
open Text Literal
open StepFlow.Flow (Comparison)

section
variable {s rest : List Char}

theorem stripStart_append (start s : List Char) : stripStart? start (start ++ s) = some s := by
  induction start with
  | nil => rfl
  | cons c start ih => simp [stripStart?, ih]

theorem stripStart_other {c d : Char} {start : List Char} (other : c ≠ d) :
    stripStart? (c :: start) (d :: s) = none := by
  simp [stripStart?, other]

theorem stripStart_ends {c : Char} {start : List Char} (ends : Ends (· == c) s) :
    stripStart? (c :: start) s = none := by
  cases s with
  | nil => rfl
  | cons d s =>
    have other := ends d s rfl
    exact stripStart_other (Ne.symm (by simpa using other))

def Quits (s : List Char) : Prop := Ends (fun c => isWordChar c || c == '.' || c == '(') s

structure Closes (s : List Char) : Prop where
  quits : Quits s
  noComparison : comparison? s = none
  noFunction : stripStart? " function () ".toList s = none

theorem quits_stops (quits : Quits s) : Stops s :=
  ends_weaken quits fun c is => by rw [is, Bool.true_or]

theorem comparison_blank (blank : Ends (· == ' ') s) : comparison? s = none := by
  simp only [comparison?, comparisons, List.cons_append, stripStart_ends blank]
  rfl

theorem closes_cons {c : Char} (quits : (isWordChar c || c == '.' || c == '(') = false)
    (blank : (c == ' ') = false) : Closes (c :: rest) where
  quits := ends_cons quits
  noComparison := comparison_blank (ends_cons blank)
  noFunction := stripStart_ends (ends_cons blank)

theorem paren_closes (s : List Char) : Closes (')' :: s) := closes_cons (by decide) (by decide)

theorem bracket_closes (s : List Char) : Closes (']' :: s) := closes_cons (by decide) (by decide)

theorem semicolon_closes (s : List Char) : Closes (';' :: s) := closes_cons (by decide) (by decide)

theorem closes_brace : Closes (' ' :: '}' :: rest) where
  quits := ends_cons (by decide)
  noComparison := rfl
  noFunction := rfl

theorem closes_equals : Closes (" = ".toList ++ rest) where
  quits := ends_cons (by decide)
  noComparison := rfl
  noFunction := rfl

theorem comparison_back (comparison : Comparison) :
    comparison? (' ' :: comparison.symbol.toList ++ ' ' :: rest) = some (comparison, rest) := by
  cases comparison <;> rfl

end

def opens (c : Char) : Bool := isWordStart c || startsNumber c || ['"', '[', '(', '{'].contains c

def Opens (s : List Char) : Prop := ∃ c t, s = c :: t ∧ opens c = true

section
variable {s : List Char}

theorem opens_cons {c : Char} (opened : opens c = true) : Opens (c :: s) := ⟨c, s, rfl, opened⟩

theorem opens_append {t : List Char} (opened : Opens s) : Opens (s ++ t) := by
  obtain ⟨c, s, rfl, is⟩ := opened
  exact opens_cons is

theorem name_opens {name : String} (identifier : isIdentifier name = true) :
    Opens name.toList := by
  obtain ⟨c, t, begins, start, _⟩ := isWord_cases (identifier_isWord identifier)
  exact ⟨c, t, begins, by simp [opens, start]⟩

theorem operand_opens {e : Expr} (opened : Opens s) : Opens (asOperand e s) := by
  unfold asOperand
  split
  · exact opens_cons (by decide)
  · exact opened

theorem expr_opens (depth : Nat) {e : Expr} (proper : ProperExpr IsNumeral e) :
    Opens (printExpr depth e) := by
  induction proper using ProperExpr.rec (motive_2 := fun _ _ => True) with
  | ident identifier => exact name_opens identifier
  | str value => exact opens_cons (by decide)
  | num spelling =>
    obtain ⟨c, t, begins, starts⟩ := numeral_starts spelling
    exact ⟨c, t, begins, by simp [opens, starts]⟩
  | bool value => cases value <;> exact opens_cons (by decide)
  | null => exact opens_cons (by decide)
  | array => exact opens_cons (by decide)
  | @object props => cases props <;> exact opens_cons (by decide)
  | member _ _ _ ih =>
    rw [print_member]
    exact opens_append (operand_opens ih)
  | call _ _ ih =>
    rw [print_call]
    exact opens_append (opens_append (operand_opens ih))
  | await =>
    rw [print_await]
    exact opens_append (opens_cons (by decide))
  | binary _ _ _ ih =>
    rw [print_binary]
    exact opens_append (opens_append (operand_opens ih))
  | asyncFunction =>
    rw [print_function]
    exact opens_append (opens_cons (by decide))
  | _ => trivial

theorem stmt_opens (depth : Nat) {stmt : Stmt} (proper : ProperStmt IsNumeral stmt) :
    Opens (printStmt depth stmt) := by
  cases proper with
  | assign identifier =>
    simp only [print_assign, List.append_assoc]
    exact opens_append (name_opens identifier)
  | expr of =>
    rw [print_expr]
    exact opens_append (expr_opens depth of)
  | @block body =>
    rw [print_block]
    cases body <;> exact opens_cons (by decide)
  | const | declare | ifElse | forOf =>
    simp only [print_const, print_declare, print_if, print_for, List.append_assoc]
    exact opens_append (opens_cons (by decide))

end

section
variable {α : Type} {last : Char} {item : Reader α} {text : α → List Char} {n : Nat}

theorem moreItems_back (ending rest : List Char) (noComma : last ≠ ',')
    (closes : ∀ s, Closes (last :: ending ++ s)) (others : List α) (short : others.length < n)
    (back : ∀ a ∈ others, ∀ s, Closes s → item (text a ++ s) = some (a, s)) :
    moreItems (last :: ending) item n (followers text others ++ (last :: ending ++ rest)) =
      some (others, rest) := by
  induction others generalizing n with
  | nil =>
    obtain ⟨n, rfl⟩ := Nat.exists_eq_succ_of_ne_zero (Nat.ne_of_gt short)
    rw [followers, List.flatMap_nil, List.nil_append, moreItems, stripStart_append]
  | cons a others ih =>
    obtain ⟨n, rfl⟩ := Nat.exists_eq_succ_of_ne_zero (Nat.ne_of_gt (Nat.zero_lt_of_lt short))
    have later := ih (by simpa using short) fun b member => back b (List.mem_cons_of_mem a member)
    have stops : Closes (followers text others ++ (last :: ending ++ rest)) := by
      cases others with
      | nil => exact closes rest
      | cons b others => exact closes_cons (by decide) (by decide)
    have first := back a List.mem_cons_self _ stops
    have comma (s : List Char) : stripStart? ", ".toList (',' :: ' ' :: s) = some s :=
      stripStart_append _ s
    have written : followers text (a :: others) ++ (last :: ending ++ rest) =
        ',' :: ' ' :: (text a ++ (followers text others ++ (last :: ending ++ rest))) := by
      simp [followers]
    rw [written, moreItems, stripStart_other noComma, comma]
    simp only [first, later, Option.bind_eq_bind, Option.bind_some]
    rfl

end

section
variable {rest : List Char}

theorem word_back {name : String} (each : ∀ c ∈ name.toList, isWordChar c = true)
    (ends : Ends isWordChar rest) : word (name.toList ++ rest) = (name, rest) := by
  obtain ⟨taken, dropped⟩ := run_ends each ends
  rw [word, taken, dropped, String.ofList_toList]

theorem name_back {name : String} (identifier : isIdentifier name = true)
    (ends : Ends isWordChar rest) : word (name.toList ++ rest) = (name, rest) := by
  obtain ⟨_, _, _, _, each⟩ := isWord_cases (identifier_isWord identifier)
  exact word_back each ends

theorem text_back (value : String) :
    text (escape value.toList ++ '"' :: rest) = some (value, rest) := by
  simp [text, stringBody_escape]

theorem key_back {k : PropKey} (proper : ProperKey k) :
    key (printKey k ++ ':' :: rest) = some (k, ':' :: rest) := by
  cases proper with
  | @bare name field =>
    have stops : Ends isWordChar (':' :: rest) := ends_cons (by decide)
    have read := word_back field.2 stops
    obtain ⟨c, t, begins⟩ := List.exists_cons_of_ne_nil (mt String.toList_eq_nil_iff.mp field.1)
    have quote : c ≠ '"' := ne_of_kind (field.2 c (by simp [begins])) (by decide)
    rw [printKey]
    rw [begins, List.cons_append] at read ⊢
    rw [key, read]
    simpa using quote
  | quoted value =>
    have written :
        quote value ++ ':' :: rest = '"' :: (escape value.toList ++ '"' :: ':' :: rest) := by
      simp [quote]
    rw [printKey, written, key, text_back]
    rfl

theorem name_constant {name : String} (identifier : isIdentifier name = true) :
    constantOrName name = some (.ident name) := by
  have not_true := identifier_not_reserved "true" identifier (by decide)
  have not_false := identifier_not_reserved "false" identifier (by decide)
  have not_null := identifier_not_reserved "null" identifier (by decide)
  rw [constantOrName, if_neg not_true, if_neg not_false, if_neg not_null, if_pos identifier]

end

section
variable {expr : Reader Expr} {stmt : Reader Stmt} {n depth : Nat} {rest : List Char}

theorem items_back {close : Char} (closes : ∀ s, Closes (close :: s)) (noComma : close ≠ ',')
    (closed : opens close = false) (es : List Expr) (short : es.length ≤ n)
    (proper : ∀ e ∈ es, ProperExpr IsNumeral e)
    (back : ∀ e ∈ es, ∀ s, Closes s → expr (printExpr depth e ++ s) = some (e, s)) :
    items [close] expr n (printItems depth es ++ close :: rest) = some (es, rest) := by
  cases es with
  | nil => simp [items, printItems, stripStart?]
  | cons e es =>
    obtain ⟨c, t, begins, opened⟩ := expr_opens depth (proper e List.mem_cons_self)
    have later : moreItems [close] expr n (followers (printExpr depth) es ++ close :: rest) =
        some (es, rest) :=
      moreItems_back [] rest noComma closes es short
        fun e member => back e (List.mem_cons_of_mem _ member)
    have stops : Closes (followers (printExpr depth) es ++ close :: rest) := by
      cases es with
      | nil => exact closes rest
      | cons e es => exact closes_cons (by decide) (by decide)
    have first := back e List.mem_cons_self _ stops
    have more : stripStart? [close] (printExpr depth e ++ (followers (printExpr depth) es ++
        close :: rest)) = none := by
      rw [begins]
      exact stripStart_other (Ne.symm (ne_of_kind opened closed))
    rw [printItems_joined, List.append_assoc, items, more]
    simp only [first, later, Option.bind_eq_bind, Option.bind_some]
    rfl

theorem prop_back {k : PropKey} {e : Expr} (proper : ProperKey k) (closes : Closes rest)
    (back : ∀ s, Closes s → expr (printExpr depth e ++ s) = some (e, s)) :
    prop expr (printProp depth (k, e) ++ rest) = some ((k, e), rest) := by
  have written : printProp depth (k, e) ++ rest =
      printKey k ++ ':' :: ' ' :: (printExpr depth e ++ rest) := by
    rw [printProp]
    simp
  have colon (s : List Char) : stripStart? ": ".toList (':' :: ' ' :: s) = some s :=
    stripStart_append _ s
  rw [written, prop, key_back proper]
  simp only [Option.bind_eq_bind, Option.bind_some, colon, back rest closes]
  rfl

end

theorem indent_skipped (depth : Nat) {c : Char} {s : List Char} (other : c ≠ ' ') :
    (indent depth ++ c :: s).dropWhile (· == ' ') = c :: s := by
  have blanks : ∀ c ∈ indent depth, (c == ' ') = true := by simp [indent]
  have ends : Ends (fun c => c == ' ') (c :: s) := ends_cons (by simpa using other)
  exact (run_ends blanks ends).2

theorem length_lt_sizeOf {α : Type} [SizeOf α] (list : List α) : list.length < sizeOf list := by
  induction list with
  | nil => simp
  | cons a list ih =>
    simp only [List.length_cons, List.cons.sizeOf_spec]
    omega

theorem expr_sizeOf_pos (e : Expr) : 0 < sizeOf e := by
  cases e <;> simp only [Expr.ident.sizeOf_spec, Expr.str.sizeOf_spec, Expr.num.sizeOf_spec,
    Expr.bool.sizeOf_spec, Expr.null.sizeOf_spec, Expr.array.sizeOf_spec, Expr.object.sizeOf_spec,
    Expr.member.sizeOf_spec, Expr.call.sizeOf_spec, Expr.await.sizeOf_spec,
    Expr.binary.sizeOf_spec, Expr.asyncFunction.sizeOf_spec] <;> omega

/-- How many fields and calls a chain has behind its head. -/
def spine : Expr → Nat
  | .member object _ => spine object + 1
  | .call callee _ => spine callee + 1
  | _ => 0

theorem spine_le (e : Expr) : spine e ≤ sizeOf e := by
  induction e using Expr.rec (motive_2 := fun _ => True) (motive_3 := fun _ => True)
    (motive_4 := fun _ => True) (motive_5 := fun _ => True) (motive_6 := fun _ => True)
    (motive_7 := fun _ => True) with
  | member object property ih =>
    simp only [spine, Expr.member.sizeOf_spec]
    omega
  | call callee args ih =>
    simp only [spine, Expr.call.sizeOf_spec]
    omega
  | ident | str | num | bool | null | array | object | await | binary | asyncFunction =>
    exact Nat.zero_le _
  | _ => trivial

/-- What stops an expression that a field or a call can stand behind: a point behind a numeral would
be read as a part of it. -/
def Cut (e : Expr) (s : List Char) : Prop := Ends isWordChar s ∧ (e.isNum = true → Stops s)

/-- Readers of what is smaller than `n`. -/
structure ReadsBack (n : Nat) (expr : Reader Expr) (stmt : Reader Stmt) : Prop where
  exprs : ∀ {e}, ProperExpr IsNumeral e → sizeOf e < n → ∀ depth s, Closes s →
    expr (printExpr depth e ++ s) = some (e, s)
  stmts : ∀ {a}, ProperStmt IsNumeral a → sizeOf a < n → ∀ depth s,
    stmt (printStmt depth a ++ '\n' :: s) = some (a, '\n' :: s)

section
variable {expr : Reader Expr} {n : Nat} {rest : List Char}

theorem head_word {name : String} (word : isWord name.toList = true) (ends : Ends isWordChar rest) :
    head expr n (name.toList ++ rest) = (constantOrName name).map fun e => (e, rest) := by
  obtain ⟨c, t, begins, start, each⟩ := isWord_cases word
  have read := word_back each ends
  obtain ⟨_, bracket, paren, _⟩ := ne_bracket start (by decide)
  have quote := ne_of_kind start (d := '"') (by decide)
  rw [begins, List.cons_append] at read ⊢
  rw [head, if_neg paren, if_neg bracket, if_neg quote,
    if_neg (by simp [wordStart_not_number start]), read]
  cases constantOrName name <;> rfl

theorem head_number {spelling : String} (numeral : IsNumeral spelling.toList) (stops : Stops rest) :
    head expr n (spelling.toList ++ rest) = some (.num spelling, rest) := by
  obtain ⟨c, t, begins, starts⟩ := numeral_starts numeral
  have read := number_append numeral stops
  obtain ⟨_, bracket, paren, _⟩ := ne_bracket starts (by decide)
  have quote := ne_of_kind starts (d := '"') (by decide)
  rw [begins, List.cons_append] at read ⊢
  rw [head, if_neg paren, if_neg bracket, if_neg quote, if_pos starts, read]
  dsimp only
  rw [← begins, String.ofList_toList]

theorem head_brace (s : List Char) : head expr n ('{' :: s) = none := rfl

theorem head_text (value : String) :
    head expr n (quote value ++ rest) = some (.str value, rest) := by
  have written : quote value ++ rest = '"' :: (escape value.toList ++ '"' :: rest) := by
    simp [quote]
  rw [written, head, if_neg (by decide), if_neg (by decide), if_pos rfl, text_back]
  rfl

/-- The text in front of `s`, read from its head, stands for the chain `e`. -/
def Chains (expr : Reader Expr) (n : Nat) (e : Expr) (text s : List Char) : Prop :=
  ∃ first after, head expr n (text ++ s) = some (first, after) ∧
    ∀ k, suffixes expr n (spine e + k) first after = suffixes expr n k e s

theorem chain_atom {e : Expr} {text : List Char} (atom : spine e = 0)
    (read : head expr n (text ++ rest) = some (e, rest)) : Chains expr n e text rest :=
  ⟨e, rest, read, by simp [atom]⟩

theorem prefixed_await {e : Expr} {s : List Char} (read : operand expr n s = some (e, rest)) :
    prefixed expr n ("await ".toList ++ s) = some (.await e, rest) := by
  have behind : prefixed expr n ("await ".toList ++ s) =
      (operand expr n s).bind fun read => some (.await read.1, read.2) := rfl
  rw [behind, read]
  rfl

theorem suffixes_stop (k : Nat) (e : Expr) (quits : Quits rest) :
    suffixes expr n k e rest = some (e, rest) := by
  have noPoint : ∀ s, rest ≠ '.' :: s := by
    rintro s rfl
    simpa using quits '.' s rfl
  have noCall : ∀ s, rest ≠ '(' :: s := by
    rintro s rfl
    simpa using quits '(' s rfl
  rw [suffixes.eq_def]
  split
  · exact absurd rfl (noPoint _)
  · exact absurd rfl (noCall _)
  · rfl

end

section
variable {expr : Reader Expr} {stmt : Reader Stmt} {n : Nat} (back : ReadsBack n expr stmt)
include back

theorem head_loose {e : Expr} (proper : ProperExpr IsNumeral e) (loose : e.isLoose = true)
    (small : sizeOf e < n) (depth : Nat) (s : List Char) :
    head expr n (asOperand e (printExpr depth e) ++ s) = some (e, s) := by
  have inside := back.exprs proper small depth (')' :: s) (paren_closes s)
  have written : asOperand e (printExpr depth e) ++ s = '(' :: (printExpr depth e ++ ')' :: s) := by
    simp [asOperand, loose]
  rw [written, head, if_pos rfl, inside]
  rfl

theorem args_back {close : Char} (closes : ∀ s, Closes (close :: s)) (noComma : close ≠ ',')
    (closed : opens close = false) {es : List Expr} (proper : ∀ e ∈ es, ProperExpr IsNumeral e)
    (small : sizeOf es ≤ n) (depth : Nat) (s : List Char) :
    items [close] expr n (printItems depth es ++ close :: s) = some (es, s) := by
  have short := length_lt_sizeOf es
  refine items_back closes noComma closed es (by omega) proper fun e member s stops => ?_
  have smaller := List.sizeOf_lt_of_mem member
  exact back.exprs (proper e member) (by omega) depth s stops

/-- A chain is read from its head: what is printed for it stands for the chain itself. -/
theorem chain_back {e : Expr} (proper : ProperExpr IsNumeral e) (small : sizeOf e ≤ n)
    (strict : e.isLoose = true → sizeOf e < n) (depth : Nat) (s : List Char) (cut : Cut e s) :
    Chains expr n e (asOperand e (printExpr depth e)) s := by
  induction proper using ProperExpr.rec (motive_2 := fun _ _ => True) generalizing s with
  | @ident name identifier =>
    refine chain_atom rfl ?_
    exact (head_word (identifier_isWord identifier) cut.1).trans
      (by rw [name_constant identifier]; rfl)
  | str value => exact chain_atom rfl (head_text value)
  | num numeral => exact chain_atom rfl (head_number numeral (cut.2 rfl))
  | bool value =>
    cases value
    · exact chain_atom rfl (head_word (by decide) cut.1)
    · exact chain_atom rfl (head_word (by decide) cut.1)
  | null => exact chain_atom rfl (head_word (by decide) cut.1)
  | @array es each =>
    have size : sizeOf es ≤ n := by
      simp only [Expr.array.sizeOf_spec] at small
      omega
    have inside := args_back back bracket_closes (by decide) (by decide) each size depth s
    have written : asOperand (.array es) (printExpr depth (.array es)) ++ s =
        '[' :: (printItems depth es ++ ']' :: s) := by
      simp [asOperand, Expr.isLoose, print_array]
    refine chain_atom rfl ?_
    rw [written, head, if_neg (by decide), if_pos rfl, inside]
    rfl
  | @member object property of noNumber field ih =>
    have size : sizeOf object < n := by
      simp only [Expr.member.sizeOf_spec] at small
      omega
    have ends : Ends isWordChar ('.' :: (property.toList ++ s)) := ends_cons (by decide)
    obtain ⟨first, after, read, more⟩ := ih (Nat.le_of_lt size) (fun _ => size)
      ('.' :: (property.toList ++ s)) ⟨ends, by simp [noNumber]⟩
    refine ⟨first, after, ?_, fun k => ?_⟩
    · rw [← read, print_member]
      simp [asOperand, Expr.isLoose]
    · rw [spine, Nat.add_assoc, more, Nat.add_comm 1 k, suffixes, word_back field.2 cut.1]
  | @call callee args of each ih =>
    have size : sizeOf callee < n ∧ sizeOf args ≤ n := by
      simp only [Expr.call.sizeOf_spec] at small
      omega
    have stops : Stops ('(' :: (printItems depth args ++ ')' :: s)) := ends_cons (by decide)
    have inside := args_back back paren_closes (by decide) (by decide) each size.2 depth s
    obtain ⟨first, after, read, more⟩ := ih (Nat.le_of_lt size.1) (fun _ => size.1) _
      ⟨stops_word stops, fun _ => stops⟩
    refine ⟨first, after, ?_, fun k => ?_⟩
    · rw [← read, print_call]
      simp [asOperand, Expr.isLoose]
    · rw [spine, Nat.add_assoc, more, Nat.add_comm 1 k, suffixes, inside]
      rfl
  | object keys values =>
    exact chain_atom rfl (head_loose back (.object keys values) rfl (strict rfl) depth s)
  | await of => exact chain_atom rfl (head_loose back (.await of) rfl (strict rfl) depth s)
  | binary comparison first second =>
    exact chain_atom rfl
      (head_loose back (.binary comparison first second) rfl (strict rfl) depth s)
  | asyncFunction each =>
    exact chain_atom rfl (head_loose back (.asyncFunction each) rfl (strict rfl) depth s)
  | _ => trivial

theorem operand_back {e : Expr} (proper : ProperExpr IsNumeral e) (small : sizeOf e ≤ n)
    (strict : e.isLoose = true → sizeOf e < n) (depth : Nat) (s : List Char) (quits : Quits s) :
    operand expr n (asOperand e (printExpr depth e) ++ s) = some (e, s) := by
  have stops := quits_stops quits
  obtain ⟨first, after, read, more⟩ :=
    chain_back back proper small strict depth s ⟨stops_word stops, fun _ => stops⟩
  have size := Nat.le_trans (spine_le e) small
  have chain := more (n - spine e)
  rw [Nat.add_sub_cancel' size, suffixes_stop _ e quits] at chain
  rw [operand, read]
  exact chain

theorem object_back {props : List (PropKey × Expr)} (keys : ∀ prop ∈ props, ProperKey prop.1)
    (values : ∀ prop ∈ props, ProperExpr IsNumeral prop.2) (small : sizeOf props ≤ n)
    (depth : Nat) (s : List Char) :
    prefixed expr n (printExpr depth (.object props) ++ s) = some (.object props, s) := by
  have each : ∀ own ∈ props, ∀ s, Closes s →
      prop expr (printProp depth own ++ s) = some (own, s) := by
    rintro ⟨k, e⟩ member s closes
    have smaller := List.sizeOf_lt_of_mem member
    simp only [Prod.mk.sizeOf_spec] at smaller
    have size : sizeOf e < n := by omega
    exact prop_back (keys _ member) closes (back.exprs (values _ member) size depth)
  cases props with
  | nil => rfl
  | cons own props =>
    have short := length_lt_sizeOf props
    simp only [List.cons.sizeOf_spec] at small
    have later : moreItems [' ', '}'] (prop expr) n (followers (printProp depth) props ++
        ' ' :: '}' :: s) = some (props, s) :=
      moreItems_back ['}'] s (by decide) (fun _ => closes_brace) props (by omega)
        fun other member => each other (List.mem_cons_of_mem own member)
    have stops : Closes (followers (printProp depth) props ++ ' ' :: '}' :: s) := by
      cases props with
      | nil => exact closes_brace
      | cons other props => exact closes_cons (by decide) (by decide)
    have first := each own List.mem_cons_self _ stops
    have written : printExpr depth (.object (own :: props)) ++ s = '{' :: ' ' ::
        (printProp depth own ++ (followers (printProp depth) props ++ ' ' :: '}' :: s)) := by
      simp [print_object, printMoreProps_followers]
    rw [written, prefixed, Source.props]
    simp only [first, later, Option.bind_eq_bind, Option.bind_some]
    rfl

theorem lines_back {body : List Stmt} (proper : ProperBody IsNumeral body) (small : sizeOf body ≤ n)
    {depth k : Nat} (long : body.length < k) {ending s : List Char}
    (ends : ∀ k, lines stmt (k + 1) ending = some ([], s)) :
    lines stmt k (printLines depth body ++ ending) = some (body, s) := by
  induction body generalizing k with
  | nil =>
    obtain ⟨k, rfl⟩ := Nat.exists_eq_succ_of_ne_zero (Nat.ne_of_gt long)
    exact ends k
  | cons a body ih =>
    obtain ⟨k, rfl⟩ := Nat.exists_eq_succ_of_ne_zero (Nat.ne_of_gt (Nat.zero_lt_of_lt long))
    have size : sizeOf a < n ∧ sizeOf body ≤ n := by
      simp only [List.cons.sizeOf_spec] at small
      omega
    have later := ih (fun b member => proper b (List.mem_cons_of_mem a member)) size.2
      (by simpa using long)
    have own := proper a List.mem_cons_self
    have first := back.stmts own size.1 depth (printLines depth body ++ ending)
    obtain ⟨c, t, begins, opened⟩ := stmt_opens depth own
    have noBlank := ne_of_kind opened (d := ' ') (by decide)
    have noBrace := ne_of_kind opened (d := '}') (by decide)
    have written : printLines depth (a :: body) ++ ending =
        indent depth ++ (printStmt depth a ++ '\n' :: (printLines depth body ++ ending)) := by
      simp [print_lines_cons]
    rw [begins, List.cons_append] at first written
    rw [written, lines, indent_skipped depth noBlank]
    dsimp only
    rw [if_neg noBrace, first]
    simp only [Option.bind_eq_bind, Option.bind_some, stripStart?, if_true, later]
    rfl

theorem block_back {body : List Stmt} (proper : ProperBody IsNumeral body) (small : sizeOf body ≤ n)
    (depth : Nat) (s : List Char) : block stmt n (printBlock depth body ++ s) = some (body, s) := by
  cases body with
  | nil => rfl
  | cons a body =>
    have long := length_lt_sizeOf (a :: body)
    have written : printBlock depth (a :: body) ++ s =
        '{' :: '\n' :: (printLines (depth + 1) (a :: body) ++ (indent depth ++ '}' :: s)) := by
      simp [print_body]
    rw [written, block]
    refine lines_back back proper small (by omega) fun k => ?_
    rw [lines, indent_skipped depth (by decide)]
    rfl

theorem expr_back {e : Expr} (proper : ProperExpr IsNumeral e) (small : sizeOf e ≤ n) (depth : Nat)
    (s : List Char) (closes : Closes s) :
    anyExpr expr stmt n (printExpr depth e ++ s) = some (e, s) := by
  have whole (tight : e.isLoose = false) :
      anyExpr expr stmt n (printExpr depth e ++ s) = some (e, s) := by
    have read := operand_back back proper small (by simp [tight]) depth s closes.quits
    rw [asOperand, if_neg (by simp [tight])] at read
    rw [anyExpr, read]
    simp only [closes.noComparison, closes.noFunction]
  cases proper with
  | ident | str | num | bool | null | array | member | call => exact whole rfl
  | @object props keys values =>
    have size : sizeOf props ≤ n := by
      rw [Expr.object.sizeOf_spec] at small
      omega
    obtain ⟨t, begins⟩ : ∃ t, printExpr depth (.object props) ++ s = '{' :: t := by
      cases props <;> exact ⟨_, rfl⟩
    have read := object_back back keys values size depth s
    rw [begins] at read ⊢
    rw [anyExpr, operand, head_brace]
    exact read
  | @await inner of =>
    have size : sizeOf inner < n := by
      rw [Expr.await.sizeOf_spec] at small
      omega
    have read := operand_back back of (Nat.le_of_lt size) (fun _ => size) depth s closes.quits
    have ends : Ends isWordChar (' ' :: (asOperand inner (printExpr depth inner) ++ s)) :=
      ends_cons (by decide)
    have reserved : head expr n ("await".toList ++ _) = none := head_word (by decide) ends
    have written : printExpr depth (.await inner) ++ s =
        "await".toList ++ ' ' :: (asOperand inner (printExpr depth inner) ++ s) := rfl
    rw [written, anyExpr, operand, reserved]
    exact prefixed_await read
  | @binary left right comparison first second =>
    simp only [Expr.binary.sizeOf_spec] at small
    have size : sizeOf left < n ∧ sizeOf right < n := by omega
    have after := operand_back back second (Nat.le_of_lt size.2) (fun _ => size.2) depth s
      closes.quits
    have before := operand_back back first (Nat.le_of_lt size.1) (fun _ => size.1) depth
      (' ' :: comparison.symbol.toList ++ ' ' :: (asOperand right (printExpr depth right) ++ s))
      (ends_cons (by decide))
    have written : printExpr depth (.binary comparison left right) ++ s =
        asOperand left (printExpr depth left) ++ (' ' :: comparison.symbol.toList ++
          ' ' :: (asOperand right (printExpr depth right) ++ s)) := by
      simp [print_binary]
    rw [written, anyExpr, before]
    simp only [comparison_back, after, Option.bind_eq_bind, Option.bind_some]
    rfl
  | @asyncFunction body each =>
    have size : sizeOf body ≤ n := by
      rw [Expr.asyncFunction.sizeOf_spec] at small
      omega
    have read := block_back back each size depth s
    have quits : Quits (" function () ".toList ++ (printBlock depth body ++ s)) :=
      ends_cons (by decide)
    have written : printExpr depth (.asyncFunction body) ++ s =
        "async".toList ++ (" function () ".toList ++ (printBlock depth body ++ s)) := rfl
    have name : head expr n ("async".toList ++ _) = some (.ident "async", _) :=
      head_word (by decide) (stops_word (quits_stops quits))
    have noComparison :
        comparison? (" function () ".toList ++ (printBlock depth body ++ s)) = none := rfl
    rw [written, anyExpr, operand, name]
    simp only [Option.bind_eq_bind, Option.bind_some, suffixes_stop _ _ quits, noComparison,
      stripStart_append, read]
    rfl

theorem bound_back (bind : String → Expr → Stmt) {name : String} {e : Expr}
    (identifier : isIdentifier name = true) (of : ProperExpr IsNumeral e) (small : sizeOf e < n)
    (depth : Nat) (s : List Char) :
    bound expr bind (name.toList ++ " = ".toList ++ printExpr depth e ++ [';'] ++ s) =
      some (bind name e, s) := by
  have ends : Ends isWordChar (" = ".toList ++ (printExpr depth e ++ ';' :: s)) :=
    ends_cons (by decide)
  have read := back.exprs of small depth (';' :: s) (semicolon_closes s)
  have written : name.toList ++ " = ".toList ++ printExpr depth e ++ [';'] ++ s =
      name.toList ++ (" = ".toList ++ (printExpr depth e ++ ';' :: s)) := by
    simp
  rw [written, bound, name_back identifier ends]
  simp only [stripStart_append, read, Option.bind_eq_bind, Option.bind_some]
  rfl

theorem conditional_back {test : Expr} {consequent : List Stmt} {alternate : Option Stmt}
    (tests : ProperExpr IsNumeral test) (each : ProperBody IsNumeral consequent)
    (otherwise : ∀ stmt, alternate = some stmt → ProperStmt IsNumeral stmt)
    (small : sizeOf test < n ∧ sizeOf consequent ≤ n ∧ sizeOf alternate ≤ n) (depth : Nat)
    (s : List Char) :
    conditional expr stmt n (printExpr depth test ++ ") ".toList ++ printBlock depth consequent ++
      printElse depth alternate ++ '\n' :: s) =
        some (.ifElse test consequent alternate, '\n' :: s) := by
  obtain ⟨testSmall, bodySmall, elseSmall⟩ := small
  have tested := back.exprs tests testSmall depth
    (") ".toList ++ (printBlock depth consequent ++ (printElse depth alternate ++ '\n' :: s)))
    (paren_closes _)
  have body := block_back back each bodySmall depth (printElse depth alternate ++ '\n' :: s)
  simp only [List.append_assoc]
  rw [conditional, tested]
  simp only [stripStart_append, body, Option.bind_eq_bind, Option.bind_some]
  cases alternate with
  | none => rfl
  | some other =>
    have size : sizeOf other < n := by
      rw [Option.some.sizeOf_spec] at elseSmall
      omega
    have read := back.stmts (otherwise other rfl) size depth s
    rw [print_else, List.append_assoc, stripStart_append]
    simp only [read, Option.bind_some]
    rfl

theorem loop_back {binding : String} {iterable : Expr} {body : List Stmt}
    (identifier : isIdentifier binding = true) (of : ProperExpr IsNumeral iterable)
    (each : ProperBody IsNumeral body) (small : sizeOf iterable < n ∧ sizeOf body ≤ n) (depth : Nat)
    (s : List Char) :
    loop expr stmt n (binding.toList ++ " of ".toList ++ printExpr depth iterable ++ ") ".toList ++
      printBlock depth body ++ s) = some (.forOf binding iterable body, s) := by
  have ends : Ends isWordChar (" of ".toList ++ (printExpr depth iterable ++ (") ".toList ++
      (printBlock depth body ++ s)))) := ends_cons (by decide)
  have iterated := back.exprs of small.1 depth (") ".toList ++ (printBlock depth body ++ s))
    (paren_closes _)
  have inside := block_back back each small.2 depth s
  simp only [List.append_assoc]
  rw [loop, name_back identifier ends]
  simp only [stripStart_append, iterated, inside, Option.bind_eq_bind, Option.bind_some]
  rfl

end

/-- No expression begins like a statement that has a keyword in front. -/
theorem keyword_refused (n : Nat) {start : String} (s : List Char)
    (keyword : start ∈ ["const ", "let ", "if (", "for (const "]) :
    (readers n).1 (start.toList ++ s) = none := by
  obtain ⟨name, t, same, reserved⟩ : ∃ (name : String) (t : List Char),
      start.toList ++ s = name.toList ++ ' ' :: t ∧ name ∈ ["const", "let", "if", "for"] := by
    simp only [List.mem_cons, List.not_mem_nil, or_false] at keyword
    rcases keyword with rfl | rfl | rfl | rfl
    · exact ⟨"const", s, rfl, by decide⟩
    · exact ⟨"let", s, rfl, by decide⟩
    · exact ⟨"if", '(' :: s, rfl, by decide⟩
    · exact ⟨"for", "(const ".toList ++ s, rfl, by decide⟩
  cases n with
  | zero => rfl
  | succ n =>
    have ends : Ends isWordChar (' ' :: t) := ends_cons (by decide)
    have word : isWord name.toList = true ∧ constantOrName name = none := by
      have each : ∀ name ∈ ["const", "let", "if", "for"],
          isWord name.toList = true ∧ constantOrName name = none := by
        decide
      exact each name reserved
    have first : head (readers n).1 n (name.toList ++ ' ' :: t) = none := by
      rw [head_word word.1 ends, word.2]
      rfl
    rw [same, readers]
    dsimp only
    rw [anyExpr, operand, first]
    simp only [List.mem_cons, List.not_mem_nil, or_false] at reserved
    rcases reserved with rfl | rfl | rfl | rfl <;> rfl

section
variable {expr : Reader Expr} {stmt : Reader Stmt} {n : Nat} {s : List Char}

theorem anyStmt_marked (refused : expr s = none) :
    anyStmt expr stmt n s = marked expr stmt n s := by
  rw [anyStmt, refused]

theorem marked_const : marked expr stmt n ("const ".toList ++ s) = bound expr .const s := rfl

theorem marked_let : marked expr stmt n ("let ".toList ++ s) = bound expr .declare s := rfl

theorem marked_if : marked expr stmt n ("if (".toList ++ s) = conditional expr stmt n s := rfl

theorem marked_for : marked expr stmt n ("for (const ".toList ++ s) = loop expr stmt n s := rfl

theorem marked_brace : marked expr stmt n ('{' :: s) =
    (block stmt n ('{' :: s)).bind fun (body, s) => some (.block body, s) := rfl

end

/-- A brace that a block begins with is no object in a statement of its own. -/
theorem brace_marked (n depth : Nat) (body : List Stmt) (s : List Char) :
    anyStmt (readers n).1 (readers n).2 n (printBlock depth body ++ '\n' :: s) =
      marked (readers n).1 (readers n).2 n (printBlock depth body ++ '\n' :: s) := by
  cases body with
  | nil => cases n <;> rfl
  | cons a body => exact anyStmt_marked (by cases n <;> rfl)

section
variable {n : Nat} (back : ReadsBack n (readers n).1 (readers n).2)
include back

theorem stmt_back {a : Stmt} (proper : ProperStmt IsNumeral a) (small : sizeOf a ≤ n) (depth : Nat)
    (s : List Char) : anyStmt (readers n).1 (readers n).2 n (printStmt depth a ++ '\n' :: s) =
      some (a, '\n' :: s) := by
  cases proper with
  | @const name init identifier of =>
    have size : sizeOf init < n := by
      rw [Stmt.const.sizeOf_spec] at small
      omega
    have read := bound_back back .const identifier of size depth ('\n' :: s)
    have written : printStmt depth (.const name init) ++ '\n' :: s = "const ".toList ++
        (name.toList ++ " = ".toList ++ printExpr depth init ++ [';'] ++ '\n' :: s) := by
      simp [print_const]
    rw [written, anyStmt_marked (keyword_refused n _ (by decide)), marked_const, read]
  | @declare name init identifier of =>
    have size : sizeOf init < n := by
      rw [Stmt.declare.sizeOf_spec] at small
      omega
    have read := bound_back back .declare identifier of size depth ('\n' :: s)
    have written : printStmt depth (.declare name init) ++ '\n' :: s = "let ".toList ++
        (name.toList ++ " = ".toList ++ printExpr depth init ++ [';'] ++ '\n' :: s) := by
      simp [print_declare]
    rw [written, anyStmt_marked (keyword_refused n _ (by decide)), marked_let, read]
  | @assign name value identifier of =>
    have size : sizeOf value < n ∧ sizeOf (Expr.ident name) < n := by
      simp only [Stmt.assign.sizeOf_spec, Expr.ident.sizeOf_spec] at small ⊢
      have some := expr_sizeOf_pos value
      omega
    have read := bound_back back .assign identifier of size.1 depth ('\n' :: s)
    have name_read := back.exprs (.ident identifier) size.2 depth _
      (@closes_equals (printExpr depth value ++ ';' :: '\n' :: s))
    have written : printStmt depth (.assign name value) ++ '\n' :: s =
        name.toList ++ (" = ".toList ++ (printExpr depth value ++ ';' :: '\n' :: s)) := by
      simp [print_assign]
    rw [print_name] at name_read
    simp only [List.append_assoc, List.cons_append, List.nil_append] at read
    rw [written, anyStmt, name_read]
    exact read
  | @expr value of =>
    have size : sizeOf value < n := by
      rw [Stmt.expr.sizeOf_spec] at small
      omega
    have read := back.exprs of size depth _ (semicolon_closes ('\n' :: s))
    rw [print_expr, List.append_assoc, List.singleton_append, anyStmt, read]
    rfl
  | @ifElse test consequent alternate tests each otherwise =>
    have size : sizeOf test < n ∧ sizeOf consequent ≤ n ∧ sizeOf alternate ≤ n := by
      rw [Stmt.ifElse.sizeOf_spec] at small
      omega
    have read := conditional_back back tests each otherwise size depth s
    have written : printStmt depth (.ifElse test consequent alternate) ++ '\n' :: s =
        "if (".toList ++ (printExpr depth test ++ ") ".toList ++ printBlock depth consequent ++
          printElse depth alternate ++ '\n' :: s) := by
      simp [print_if]
    rw [written, anyStmt_marked (keyword_refused n _ (by decide)), marked_if, read]
  | @block body each =>
    have size : sizeOf body ≤ n := by
      rw [Stmt.block.sizeOf_spec] at small
      omega
    have read := block_back back each size depth ('\n' :: s)
    obtain ⟨t, begins⟩ : ∃ t, printBlock depth body ++ '\n' :: s = '{' :: t := by
      cases body <;> exact ⟨_, rfl⟩
    rw [print_block, brace_marked]
    rw [begins] at read ⊢
    rw [marked_brace, read]
    rfl
  | @forOf binding iterable body identifier of each =>
    have size : sizeOf iterable < n ∧ sizeOf body ≤ n := by
      rw [Stmt.forOf.sizeOf_spec] at small
      omega
    have read := loop_back back identifier of each size depth ('\n' :: s)
    have written : printStmt depth (.forOf binding iterable body) ++ '\n' :: s =
        "for (const ".toList ++ (binding.toList ++ " of ".toList ++ printExpr depth iterable ++
          ") ".toList ++ printBlock depth body ++ '\n' :: s) := by
      simp [print_for]
    rw [written, anyStmt_marked (keyword_refused n _ (by decide)), marked_for, read]

end

/-- Proper expressions and statements are read back from their texts. -/
theorem readers_back (n : Nat) : ReadsBack n (readers n).1 (readers n).2 := by
  induction n with
  | zero =>
    constructor
    · intro _ _ none
      exact absurd none (Nat.not_lt_zero _)
    · intro _ _ none
      exact absurd none (Nat.not_lt_zero _)
  | succ n ih =>
    constructor
    · intro e proper small depth s closes
      exact expr_back ih proper (Nat.le_of_lt_succ small) depth s closes
    · intro a proper small depth s
      exact stmt_back ih proper (Nat.le_of_lt_succ small) depth s

theorem script_back {body : List Stmt} (proper : ProperBody IsNumeral body) {n : Nat}
    (deep : sizeOf body ≤ n) : script n (printScript body).toList = some body := by
  have long := length_lt_sizeOf body
  have read : lines (readers n).2 n (printLines 0 body ++ []) = some (body, []) :=
    lines_back (readers_back n) proper deep (Nat.lt_of_lt_of_le long deep) fun _ => rfl
  rw [List.append_nil] at read
  rw [printScript, String.toList_ofList, script, read]
  rfl

end StepFlow.Script.Source
