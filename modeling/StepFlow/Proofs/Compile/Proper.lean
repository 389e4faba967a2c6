import StepFlow.Proofs.Compile.Acceptance
import StepFlow.Proofs.Compile.Parts
import StepFlow.Proofs.Script.Unambiguous

/-!
Compiled scripts are proper: the names they bind, the fields they take and the keys of their objects
come from checked or sanitized texts. Their numerals are numerals, but for the `NaN` that stands for
a number that could not be read.
-/
namespace StepFlow.Compile
open StepFlow.Flow Script Text
open Script.Literal (IsNumeral IsReference IsLiteral IsKey)

def Spelled (s : List Char) : Prop := IsNumeral s ∨ s = "NaN".toList

section
variable {name : String}

theorem word_field (word : isWord name.toList = true) : IsField name := by
  obtain ⟨c, t, begins, _, each⟩ := Literal.isWord_cases word
  refine ⟨?_, each⟩
  rintro rfl
  cases begins

theorem identifier_field (identifier : isIdentifier name = true) : IsField name :=
  word_field (Literal.identifier_isWord identifier)

theorem ofName_proper (name : String) : ProperKey (.ofName name) := by
  unfold PropKey.ofName
  split
  · rename_i identifier
    exact .bare (identifier_field identifier)
  · exact .quoted name

theorem module_identifier (m : Module) : isIdentifier m.name = true := by
  rw [name_eq]
  apply underscored_identifier
  cases m <;> simp [Module.text, String.toList_append]

end

section
variable {e : Expr}

theorem reference_proper (reference : IsReference e) :
    ProperExpr Spelled e ∧ e.isNum = false := by
  induction reference with
  | name identifier => exact ⟨.ident identifier, rfl⟩
  | field _ some word ih =>
    exact ⟨.member ih.1 ih.2 ⟨some, List.all_eq_true.mp word⟩, rfl⟩

theorem literal_proper (literal : IsLiteral e) : ProperExpr Spelled e := by
  induction literal with
  | reference reference => exact (reference_proper reference).1
  | str value => exact .str value
  | num numeral => exact .num (Or.inl numeral)
  | bool value => exact .bool value
  | null => exact .null
  | array _ ih => exact .array ih
  | object keys _ ih =>
    refine .object (fun prop member => ?_) ih
    have key := keys prop member
    cases prop with
    | mk k v =>
      cases key with
      | bare word => exact .bare (word_field word)
      | quoted text => exact .quoted text

theorem undefined_proper : ProperExpr Spelled .undefined := .ident (by decide)

theorem fields_proper {raw : String} {node : Option String} {base : Expr}
    {fields : List (List Char)} (proper : ProperExpr Spelled base) (noNumber : base.isNum = false)
    (resolved : resolveFields raw node base fields = .ok e) : ProperExpr Spelled e := by
  induction fields generalizing base with
  | nil =>
    cases resolved
    exact proper
  | cons field fields ih =>
    rw [resolveFields] at resolved
    split at resolved
    · rename_i clean
      have word : isWord field = true := by
        rw [← clean]
        exact sanitized_word field
      rw [← @String.toList_ofList field] at word
      exact ih (.member proper noNumber (word_field word)) rfl resolved
    · cases resolved

theorem digits_spelled {sign digits : List Char} (sign_ok : sign = [] ∨ sign = ['-'])
    (decimal : Literal.Decimal digits) (some : digits ≠ []) : Spelled (sign ++ digits) := by
  have numeral := IsNumeral.mk sign_ok (.whole decimal some) .none
  rw [List.append_nil] at numeral
  exact Or.inl numeral

theorem integerPrefix_spelled (raw : List Char) : Spelled (integerPrefix raw) := by
  unfold integerPrefix
  dsimp only
  split
  · exact Or.inr rfl
  · exact @digits_spelled [] ['0'] (Or.inl rfl) (by decide) (by decide)
  · rename_i some
    refine digits_spelled ?_ ?_ (by simpa using some)
    · split
      · exact Or.inr rfl
      · exact Or.inl rfl
      · exact Or.inl rfl
    · exact fun c member => Literal.decimal_takeWhile _ c (List.dropWhile_subset _ member)

theorem resolve_proper {source : Source} {type : ValueType} {value : String} {node : Option String}
    (resolved : resolve source type value node = .ok e) : ProperExpr Spelled e := by
  cases resolve_resolved resolved with
  | blank => exact undefined_proper
  | literal parsed => exact literal_proper (Literal.parse_literal parsed)
  | boolean b => exact .bool b
  | number => exact .num (by simpa using integerPrefix_spelled value.toList)
  | text => exact .str value
  | reference identifier rest => exact fields_proper (.ident identifier) rfl rest
  | entry identifier =>
    have registry : ProperExpr Spelled (.ident globalName) := .ident (by decide)
    exact .member (.member registry rfl (identifier_field identifier)) rfl (word_field (by decide))
  | binding identifier => exact .ident identifier

theorem meaning_proper (source : Source) (type : ValueType) (value : String) :
    ProperExpr Spelled (meaning source type value) := by
  unfold meaning
  cases resolved : resolve source type value none with
  | error e => exact undefined_proper
  | ok e => exact resolve_proper resolved

theorem info_proper (s : StepCall) : ProperExpr Spelled s.info := by
  refine .object (fun prop member => ?_) (fun prop member => ?_)
  all_goals
    simp only [List.mem_cons, List.not_mem_nil, or_false] at member
    rcases member with rfl | rfl | rfl
  · exact ofName_proper "id"
  · exact ofName_proper "name"
  · exact ofName_proper "errorPolicy"
  · exact .str _
  · exact .str _
  · exact .str _

theorem invocation_proper (s : StepCall) {target : Expr} (proper : ProperExpr Spelled target)
    (noNumber : target.isNum = false) : ProperExpr Spelled (s.invocation target) := by
  have inputs : ProperExpr Spelled (.object (s.inputs.map inputProp)) := by
    refine .object (fun prop member => ?_) (fun prop member => ?_)
    all_goals obtain ⟨i, _, rfl⟩ := List.mem_map.mp member
    · exact ofName_proper i.key
    · exact meaning_proper i.source i.type i.value
  have run : IsField "run" := word_field (by decide)
  refine .await (.call (.member proper noNumber run) fun e member => ?_)
  simp only [List.mem_cons, List.not_mem_nil, or_false] at member
  rcases member with rfl | rfl
  · exact inputs
  · exact info_proper s

end

def Part.Proper : Part → Prop
  | .binds name => isIdentifier name = true
  | .value e => ProperExpr Spelled e

theorem parts_proper {node : Node} (valid : Node.Valid node) :
    ∀ part ∈ Node.parts node, Part.Proper part := by
  have call : ∀ (s : StepCall) (target : Expr), s.Valid → ProperExpr Spelled target →
      target.isNum = false → ∀ part ∈ s.parts target, Part.Proper part := by
    intro s target valid proper noNumber part member
    rcases List.mem_append.mp member with output | value
    · obtain ⟨o, given, rfl⟩ := Option.map_eq_some_iff.mp (Option.mem_toList.mp output)
      exact valid.output o given
    · cases List.mem_singleton.mp value
      exact invocation_proper s proper noNumber
  intro part member
  cases node with
  | code s =>
    have valid : CodeStep.Valid s := valid
    exact call _ _ valid.call (.ident (module_identifier (.code s.id))) rfl part member
  | component s =>
    have valid : ComponentStep.Valid s := valid
    have target : ProperExpr Spelled (ComponentStep.target s) :=
      .member (.ident (module_identifier (.group s.group s.version))) rfl
        (identifier_field valid.function)
    exact call _ _ valid.call target rfl part member
  | ifThen condition body | elseIf condition body =>
    cases List.mem_singleton.mp member
    exact .binary _ (meaning_proper _ _ _) (meaning_proper _ _ _)
  | otherwise => cases member
  | forEach l body =>
    have valid : Loop.Valid l := valid
    obtain ⟨b, binding, identifier⟩ := valid.binding
    rcases List.mem_append.mp member with output | value
    · obtain ⟨o, given, rfl⟩ := Option.map_eq_some_iff.mp (Option.mem_toList.mp output)
      cases binding.symm.trans given
      exact identifier
    · cases List.mem_singleton.mp value
      exact meaning_proper _ _ _

theorem two_parts {name : String} {e : Expr}
    (parts : ∀ part ∈ [Part.binds name, Part.value e], Part.Proper part) :
    isIdentifier name = true ∧ ProperExpr Spelled e :=
  ⟨parts (.binds name) (by simp), parts (.value e) (by simp)⟩

mutual

theorem stmt_proper (stmt : Stmt) (parts : ∀ part ∈ stmtParts stmt, Part.Proper part) :
    ProperStmt Spelled stmt := by
  cases stmt with
  | const name init =>
    obtain ⟨identifier, of⟩ := two_parts parts
    exact .const identifier of
  | declare name init =>
    obtain ⟨identifier, of⟩ := two_parts parts
    exact .declare identifier of
  | assign name value =>
    obtain ⟨identifier, of⟩ := two_parts parts
    exact .assign identifier of
  | expr value => exact .expr (parts _ List.mem_cons_self)
  | ifElse test consequent alternate =>
    rw [stmtParts, List.forall_mem_cons, List.forall_mem_append] at parts
    exact .ifElse parts.1 (body_proper consequent parts.2.1) (else_proper alternate parts.2.2)
  | block body => exact .block (body_proper body parts)
  | forOf binding iterable body =>
    rw [stmtParts, List.forall_mem_cons, List.forall_mem_cons] at parts
    exact .forOf parts.1 parts.2.1 (body_proper body parts.2.2)

theorem else_proper (alternate : Option Stmt)
    (parts : ∀ part ∈ elseParts alternate, Part.Proper part) :
    ∀ stmt, alternate = some stmt → ProperStmt Spelled stmt := by
  cases alternate with
  | none => exact fun _ none => by cases none
  | some stmt =>
    rintro _ ⟨⟩
    exact stmt_proper stmt parts

theorem body_proper (body : List Stmt) (parts : ∀ part ∈ bodyParts body, Part.Proper part) :
    ProperBody Spelled body := by
  cases body with
  | nil => exact fun _ none => by cases none
  | cons stmt stmts =>
    rw [bodyParts, List.forall_mem_append] at parts
    exact List.forall_mem_cons.mpr ⟨stmt_proper stmt parts.1, body_proper stmts parts.2⟩

end

theorem places_flatten (prev : Option Node) (nodes : List Node) :
    (places prev nodes).map Prod.snd = flatten nodes := by
  induction nodes using flatten.induct generalizing prev with
  | case1 => simp [places, flatten]
  | case2 node nodes ihBody ih => simp [places, flatten, ihBody, ih]

section
variable {groupRoot : String} {nodes : List Node} {body : List Stmt} {c c' : Context}

/-- Whatever is compiled is proper, but for the `NaN` among its numerals. -/
theorem compileList_proper (list : compileList groupRoot c nodes = .ok (body, c')) :
    ProperBody Spelled body := by
  obtain ⟨m, p, _⟩ := compileList_ok_iff.mp list
  refine body_proper body fun part member => ?_
  rw [compileList_parts list] at member
  obtain ⟨node, inside, own⟩ := List.mem_flatMap.mp member
  rw [← places_flatten none] at inside
  obtain ⟨place, placed, rfl⟩ := List.mem_map.mp inside
  have formed := pass_well_formed p (fun closed => absurd rfl closed) place placed
  exact parts_proper formed.2 part own

theorem load_proper (collects : Collects groupRoot c (modules nodes)) :
    ProperBody Spelled (loadStatements c.manifest) := by
  have loads : ∀ (m : Module) (path : String),
      ProperStmt Spelled (.const m.name (.require path)) := by
    intro m path
    refine .const (module_identifier m) (.call (.ident (by decide)) fun e member => ?_)
    cases List.mem_singleton.mp member
    exact .str path
  intro stmt member
  rcases List.mem_append.mp member with loaded | registry
  · rcases List.mem_append.mp loaded with group | code
    · obtain ⟨g, given, rfl⟩ := List.mem_map.mp group
      rw [Context.manifest, collects.groups] at given
      obtain ⟨⟨key, version⟩, _, rfl⟩ := List.mem_map.mp given
      exact loads (.group key version) _
    · obtain ⟨⟨id, code⟩, given, rfl⟩ := List.mem_map.mp code
      have name := collects.names _ given
      dsimp only at name ⊢
      rw [name]
      exact loads (.code id) _
  · cases List.mem_singleton.mp registry
    refine .const (by decide) (.call (.ident (by decide)) fun e member => ?_)
    cases List.mem_singleton.mp member
    exact .str _

theorem script_proper (list : compileList groupRoot {} nodes = .ok (body, c)) :
    ProperBody Spelled (script c.manifest body) := by
  have exits :
      ProperStmt Spelled (.expr (.call (.member (.ident "process") "exit") [.num "0"])) := by
    refine .expr (.call (.member (.ident (by decide)) rfl (word_field (by decide))) ?_)
    intro e member
    cases List.mem_singleton.mp member
    exact .num (@digits_spelled [] ['0'] (Or.inl rfl) (by decide) (by decide))
  intro stmt member
  rcases List.mem_append.mp member with load | entry
  · exact load_proper (compileList_collects list) stmt load
  · cases List.mem_singleton.mp entry
    refine .expr (.call (.asyncFunction fun inner inside => ?_) fun e none => by cases none)
    rcases List.mem_append.mp inside with own | last
    · exact compileList_proper list inner own
    · cases List.mem_singleton.mp last
      exact exits

end

/-- Proper scripts are told apart by their texts, and whatever is compiled is proper, but for the
`NaN` among its numerals. -/
theorem scripts_print_apart :
    (∀ {first second : List Stmt}, ProperBody IsNumeral first → ProperBody IsNumeral second →
      (printScript first = printScript second ↔ first = second)) ∧
    ∀ {groupRoot : String} {nodes : List Node} {program : Program},
      compile groupRoot nodes = .ok program →
        ∃ script, program.source = printScript script ∧ ProperBody Spelled script := by
  constructor
  · intro first second proper proper'
    constructor
    · intro same
      have read := Source.script_back proper (Nat.le_max_left (sizeOf first) (sizeOf second))
      have read' := Source.script_back proper' (Nat.le_max_right (sizeOf first) (sizeOf second))
      rw [same, read'] at read
      exact (Option.some.inj read).symm
    · rintro rfl
      rfl
  · intro groupRoot nodes program compiled
    obtain ⟨body, c, list, rfl⟩ := compile_ok_iff.mp compiled
    exact ⟨_, rfl, script_proper list⟩

def linked : List Stmt :=
  [.ifElse (.ident "a") [] (some (.ifElse (.member (.ident "b") "1") [] none))]

def unlinked : List Stmt :=
  [.ifElse (.ident "a") [] none, .ifElse (.member (.ident "b") "1") [] none]

theorem linked_proper : ProperBody IsNumeral linked ∧ ProperBody IsNumeral unlinked := by
  have first : ProperExpr IsNumeral (.ident "a") := .ident (by decide)
  have digit : IsField "1" := by
    refine ⟨by decide, fun c member => ?_⟩
    cases List.mem_singleton.mp member
    decide
  have second : ProperExpr IsNumeral (.member (.ident "b") "1") :=
    .member (.ident (by decide)) rfl digit
  have behind : ProperStmt IsNumeral (.ifElse (.member (.ident "b") "1") [] none) :=
    .ifElse second (fun _ none => by cases none) fun _ none => by cases none
  constructor
  · refine List.forall_mem_cons.mpr ⟨.ifElse first (fun _ none => by cases none) ?_, ?_⟩
    · rintro _ ⟨⟩
      exact behind
    · exact fun _ none => by cases none
  · refine List.forall_mem_cons.mpr ⟨?_, List.forall_mem_cons.mpr ⟨behind, ?_⟩⟩
    · exact .ifElse first (fun _ none => by cases none) fun _ none => by cases none
    · exact fun _ none => by cases none

theorem linked_print_apart :
    printScript linked ≠ printScript unlinked ∧
      ∃ program, compile "" twinFlow = .ok program ∧
        ∃ script, program.source = printScript script ∧ ProperBody Spelled script := by
  obtain ⟨m, c, p, _⟩ := twinFlow_passes
  have compiled := compile_ok_iff.mpr ⟨_, _, compileList_ok_iff.mpr ⟨m, p, rfl⟩, rfl⟩
  refine ⟨fun same => ?_, _, compiled, scripts_print_apart.2 compiled⟩
  have equal := (scripts_print_apart.1 linked_proper.1 linked_proper.2).mp same
  simp [linked, unlinked] at equal

end StepFlow.Compile
