import StepFlow.Proofs.Compile.Calls

/-!
The names that a program relies on: those of the modules it loads, the registry, `require` and
`process`. Outputs and loop bindings are bound inside the entry point and have only to be
identifiers, so that a flow can bind such a name anew. Where none does, whatever the entry point
says of these names is said of what is bound outside of it.
-/
namespace StepFlow.Compile
open StepFlow.Flow Script

def Part.name? : Part → Option String
  | .binds name => some name
  | .value _ => none

def bodyBinds (body : List Stmt) : List String := (bodyParts body).filterMap Part.name?

def Node.binds? : Node → Option String
  | .code s => s.output.map OutputArg.key
  | .component s => s.output.map OutputArg.key
  | .forEach l _ => l.binding.map OutputArg.key
  | _ => none

def ownNames (m : Manifest) : List String := Manifest.names m ++ [globalName, "process", "require"]

/-- A name that no program for the flow relies on. -/
def Free (nodes : List Node) (name : String) : Prop :=
  name ≠ "global" ∧ name ≠ "process" ∧ name ≠ "require" ∧ ∀ m ∈ modules nodes, name ≠ m.name

/-- The names declared by the statements of a block, which are in sight in all of it. -/
def declared (body : List Stmt) : List String :=
  body.filterMap fun
    | .const name _ => some name
    | .declare name _ => some name
    | _ => none

mutual

/-- The expressions in a statement, each with the names in sight there. -/
def stmtPlaces (scope : List String) : Stmt → List (List String × Expr)
  | .const _ init => [(scope, init)]
  | .declare _ init => [(scope, init)]
  | .assign _ value => [(scope, value)]
  | .expr value => [(scope, value)]
  | .ifElse test consequent alternate =>
    (scope, test) :: (linePlaces (declared consequent ++ scope) consequent ++
      elsePlaces scope alternate)
  | .block body => linePlaces (declared body ++ scope) body
  | .forOf name iterable body =>
    (name :: scope, iterable) :: linePlaces (declared body ++ name :: scope) body

def elsePlaces (scope : List String) : Option Stmt → List (List String × Expr)
  | none => []
  | some stmt => stmtPlaces scope stmt

def linePlaces (scope : List String) : List Stmt → List (List String × Expr)
  | [] => []
  | stmt :: stmts => stmtPlaces scope stmt ++ linePlaces scope stmts

end

/-- The expressions in a function that a statement calls, each with the names that are bound for it
in there. -/
def calledPlaces : Stmt → List (List String × Expr)
  | .expr (.call (.asyncFunction body) _) => linePlaces (declared body) body
  | _ => []

def entryPlaces (body : List Stmt) : List (List String × Expr) := calledPlaces (entryPoint body)

/-- What an expression says of a name there is said of what is bound outside of the entry point. -/
def Outside (name : String) (place : List String × Expr) : Prop :=
  name ∉ place.1 ∧ ∀ body, .asyncFunction body ∉ exprTerms place.2

mutual

theorem stmtPlaces_terms (scope : List String) (stmt : Stmt) :
    (stmtPlaces scope stmt).flatMap (fun place => exprTerms place.2) = stmtTerms stmt := by
  cases stmt with
  | ifElse test consequent alternate =>
    simp [stmtPlaces, stmtTerms, linePlaces_terms _ consequent, elsePlaces_terms scope alternate]
  | block body => rw [stmtPlaces, stmtTerms, linePlaces_terms _ body]
  | forOf binding iterable body => simp [stmtPlaces, stmtTerms, linePlaces_terms _ body]
  | _ => simp [stmtPlaces, stmtTerms]

theorem elsePlaces_terms (scope : List String) (stmt : Option Stmt) :
    (elsePlaces scope stmt).flatMap (fun place => exprTerms place.2) = elseTerms stmt := by
  cases stmt with
  | none => rfl
  | some stmt => rw [elsePlaces, elseTerms, stmtPlaces_terms scope stmt]

theorem linePlaces_terms (scope : List String) (stmts : List Stmt) :
    (linePlaces scope stmts).flatMap (fun place => exprTerms place.2) = bodyTerms stmts := by
  cases stmts with
  | nil => rfl
  | cons stmt stmts =>
    rw [linePlaces, bodyTerms, List.flatMap_append, stmtPlaces_terms scope stmt,
      linePlaces_terms scope stmts]

end

def Shows (scope : List String) (parts : List Part) (place : List String × Expr) : Prop :=
  ∀ name ∈ place.1, name ∈ scope ∨ .binds name ∈ parts

section
variable {scope outer : List String} {parts more : List Part} {place : List String × Expr}

theorem shows_mono (shows : Shows scope parts place) (kept : parts ⊆ more)
    (bound : ∀ name ∈ scope, name ∈ outer ∨ .binds name ∈ more) : Shows outer more place := by
  intro name member
  rcases shows name member with around | inside
  · exact bound name around
  · exact Or.inr (kept inside)

theorem declared_binds {body : List Stmt} {name : String} (member : name ∈ declared body) :
    .binds name ∈ bodyParts body := by
  induction body with
  | nil => cases member
  | cons stmt stmts ih =>
    rw [declared, List.filterMap_cons] at member
    rw [bodyParts, List.mem_append]
    cases stmt with
    | const _ _ | declare _ _ =>
      rcases List.mem_cons.mp member with rfl | later
      · exact Or.inl List.mem_cons_self
      · exact Or.inr (ih later)
    | _ => exact Or.inr (ih member)

theorem block_shows {body : List Stmt} (kept : bodyParts body ⊆ more)
    (bound : ∀ name ∈ scope, name ∈ outer ∨ .binds name ∈ more)
    (shows : Shows (declared body ++ scope) (bodyParts body) place) : Shows outer more place := by
  refine shows_mono shows kept fun name member => ?_
  rcases List.mem_append.mp member with own | around
  · exact Or.inr (kept (declared_binds own))
  · exact bound name around

end

mutual

theorem stmtPlaces_show (scope : List String) (stmt : Stmt) :
    ∀ place ∈ stmtPlaces scope stmt, Shows scope (stmtParts stmt) place := by
  intro place member
  have around : ∀ name ∈ scope, name ∈ scope ∨ .binds name ∈ stmtParts stmt :=
    fun _ member => Or.inl member
  cases stmt with
  | const | declare | assign | expr =>
    rw [stmtPlaces, List.mem_singleton] at member
    subst member
    exact around
  | ifElse test consequent alternate =>
    rcases List.mem_cons.mp member with rfl | inside
    · exact around
    rcases List.mem_append.mp inside with first | second
    · exact block_shows (List.subset_cons_of_subset _ (List.subset_append_left ..)) around
        (linePlaces_show _ consequent place first)
    · exact shows_mono (elsePlaces_show scope alternate place second)
        (List.subset_cons_of_subset _ (List.subset_append_right ..)) around
  | block body =>
    exact block_shows (List.Subset.refl _) around (linePlaces_show _ body place member)
  | forOf binding iterable body =>
    have bound : ∀ name ∈ binding :: scope,
        name ∈ scope ∨ .binds name ∈ stmtParts (.forOf binding iterable body) := by
      intro name member
      rcases List.mem_cons.mp member with rfl | around
      · exact Or.inr List.mem_cons_self
      · exact Or.inl around
    rcases List.mem_cons.mp member with rfl | inside
    · exact bound
    · exact block_shows (List.subset_cons_of_subset _ (List.subset_cons_self ..)) bound
        (linePlaces_show _ body place inside)

theorem elsePlaces_show (scope : List String) (stmt : Option Stmt) :
    ∀ place ∈ elsePlaces scope stmt, Shows scope (elseParts stmt) place := by
  cases stmt with
  | none => exact fun place member => by cases member
  | some stmt => exact stmtPlaces_show scope stmt

theorem linePlaces_show (scope : List String) (stmts : List Stmt) :
    ∀ place ∈ linePlaces scope stmts, Shows scope (bodyParts stmts) place := by
  intro place member
  cases stmts with
  | nil => cases member
  | cons stmt stmts =>
    have around : ∀ {parts : List Part}, ∀ name ∈ scope, name ∈ scope ∨ .binds name ∈ parts :=
      fun _ member => Or.inl member
    rcases List.mem_append.mp member with first | later
    · exact shows_mono (stmtPlaces_show scope stmt place first) (List.subset_append_left ..) around
    · exact shows_mono (linePlaces_show scope stmts place later) (List.subset_append_right ..)
        around

end

section
variable {groupRoot : String} {c c' : Context} {nodes : List Node} {body : List Stmt}

theorem entryPlaces_terms (body : List Stmt) :
    (entryPlaces body).flatMap (fun place => exprTerms place.2) = bodyTerms (body ++ [exit]) :=
  linePlaces_terms ..

theorem entryPlaces_bound {place : List String × Expr} (member : place ∈ entryPlaces body)
    {name : String} (inSight : name ∈ place.1) : name ∈ bodyBinds body := by
  have bound : .binds name ∈ bodyParts (body ++ [exit]) := by
    rcases linePlaces_show _ _ place member name inSight with declared | bound
    · exact declared_binds declared
    · exact bound
  rw [bodyParts_append] at bound
  refine List.mem_filterMap.mpr ⟨.binds name, ?_, rfl⟩
  simpa [exit, bodyParts, stmtParts] using bound

theorem parts_names (node : Node) :
    (Node.parts node).filterMap Part.name? = (Node.binds? node).toList := by
  have output : ∀ o : Option OutputArg, (o.map OutputArg.part).toList.filterMap Part.name? =
      (o.map OutputArg.key).toList := by
    intro o
    cases o <;> rfl
  have value : ∀ e : Expr, [Part.value e].filterMap Part.name? = [] := fun _ => rfl
  cases node with
  | code s => simp [Node.parts, StepCall.parts, output, value, Node.binds?, CodeStep.call]
  | component s => simp [Node.parts, StepCall.parts, output, value, Node.binds?, ComponentStep.call]
  | forEach l body => simp [Node.parts, output, value, Node.binds?]
  | _ => rfl

/-- What a compiled body binds are the outputs and the bindings of loops of its flow. -/
theorem compileList_binds (list : compileList groupRoot c nodes = .ok (body, c')) :
    bodyBinds body = (flatten nodes).filterMap Node.binds? := by
  rw [bodyBinds, compileList_parts list, flowParts, List.filterMap_flatMap,
    List.filterMap_eq_flatMap_toList]
  simp only [parts_names]

theorem plain_functions {e : Expr} (plain : Plain e) (inner : List Stmt) :
    .asyncFunction inner ∉ exprTerms e := by
  intro member
  cases plain _ member

theorem parts_functions (node : Node) (inner : List Stmt) :
    .asyncFunction inner ∉ (Node.parts node).flatMap Part.terms := by
  have step : ∀ (s : StepCall) {target : Expr}, Plain target →
      .asyncFunction inner ∉ (s.parts target).flatMap Part.terms := by
    intro s target plain
    rw [parts_terms, invocation_terms]
    have callee := plain_functions (member_plain plain "run") inner
    have inputs := plain_functions (inputs_plain s) inner
    have info := plain_functions (info_plain s) inner
    simp [callee, inputs, info, StepCall.invocation]
  cases node with
  | code s => exact step _ (ident_plain _)
  | component s => exact step _ (member_plain (ident_plain _) _)
  | ifThen condition body | elseIf condition body =>
    simp [Node.parts, Part.terms, plain_functions (test_plain condition)]
  | otherwise id body => simp [Node.parts]
  | forEach l body =>
    have iterable := plain_functions (meaning_plain l.items.source .list l.items.value) inner
    cases binding : l.binding <;>
      simp [Node.parts, binding, OutputArg.part, Part.terms, Loop.iterable, iterable]

theorem compileList_functions (list : compileList groupRoot c nodes = .ok (body, c'))
    (inner : List Stmt) : .asyncFunction inner ∉ bodyTerms (body ++ [exit]) := by
  rw [bodyTerms_parts, bodyParts_append, compileList_parts list, flowParts, List.flatMap_append,
    List.flatMap_assoc]
  intro member
  rcases List.mem_append.mp member with inside | last
  · obtain ⟨node, _, found⟩ := List.mem_flatMap.mp inside
    exact parts_functions node inner found
  · simp [exit, bodyParts, stmtParts, Part.terms, exprTerms, itemTerms] at last

/-- In a compiled flow no name that the program relies on is bound inside the entry point just when
no output and no loop binds one, and then all that the entry point says of these names is said of
what is bound outside of it. -/
theorem own_names_free_iff {program : Program} (compiled : compile groupRoot nodes = .ok program) :
    ∃ body c, compileList groupRoot {} nodes = .ok (body, c) ∧
      program = ⟨printScript (script c.manifest body), c.manifest⟩ ∧
      bodyBinds body = (flatten nodes).filterMap Node.binds? ∧
      ((∀ name ∈ bodyBinds body, name ∉ ownNames program.manifest) ↔
        ∀ node ∈ flatten nodes, ∀ name, Node.binds? node = some name → Free nodes name) ∧
      (entryPlaces body).flatMap (fun place => exprTerms place.2) = bodyTerms (body ++ [exit]) ∧
      ((∀ name ∈ bodyBinds body, name ∉ ownNames program.manifest) →
        ∀ place ∈ entryPlaces body, ∀ name ∈ ownNames program.manifest, Outside name place) := by
  obtain ⟨body, c, list, rfl⟩ := compile_ok_iff.mp compiled
  have binds := compileList_binds list
  have free : ∀ name, name ∉ ownNames c.manifest ↔ Free nodes name := by
    intro name
    simp only [ownNames, collects_manifest_names (compileList_collects list), Free, globalName,
      List.mem_append, List.mem_map, mem_loaded, List.mem_cons, List.not_mem_nil, or_false, not_or,
      not_exists, not_and]
    constructor
    · rintro ⟨modules, global, process, require⟩
      exact ⟨global, process, require, fun m member same => modules m member same.symm⟩
    · rintro ⟨global, process, require, modules⟩
      exact ⟨fun m member same => modules m member same.symm, global, process, require⟩
  refine ⟨body, c, list, rfl, binds, ?_, entryPlaces_terms body, ?_⟩
  · rw [binds]
    constructor
    · intro apart node member name bound
      exact (free name).mp (apart name (List.mem_filterMap.mpr ⟨node, member, bound⟩))
    · intro apart name member
      obtain ⟨node, member, bound⟩ := List.mem_filterMap.mp member
      exact (free name).mpr (apart node member name bound)
  · intro apart place member name own
    refine ⟨fun inSight => apart name (entryPlaces_bound member inSight) own, fun inner found => ?_⟩
    refine compileList_functions list inner ?_
    rw [← entryPlaces_terms body]
    exact List.mem_flatMap.mpr ⟨place, member, found⟩

end

theorem reviewFlow_free : ∃ program, compile "groups" reviewFlow = .ok program ∧
    ∃ body c, compileList "groups" {} reviewFlow = .ok (body, c) ∧
      program = ⟨printScript (script c.manifest body), c.manifest⟩ ∧
      bodyBinds body = ["order", "size"] ∧
      ∀ place ∈ entryPlaces body, ∀ name ∈ ownNames program.manifest, Outside name place := by
  obtain ⟨program, compiled⟩ := reviewFlow_compiles
  obtain ⟨body, c, list, printed, binds, free, -, outside⟩ := own_names_free_iff compiled
  have bound : (flatten reviewFlow).filterMap Node.binds? = ["order", "size"] := by
    simp only [reviewFlow, flatten, Node.body]
    rfl
  have called : modules reviewFlow = [.code "big", .group "mail" "2"] := by
    simp [reviewFlow, modules, Node.body, Node.module?]
  have apart : ∀ name ∈ ["order", "size"], Free reviewFlow name := by
    unfold Free
    rw [called]
    decide
  refine ⟨program, compiled, body, c, list, printed, binds.trans bound, outside (free.mpr ?_)⟩
  intro node member name binds
  exact apart name (bound ▸ List.mem_filterMap.mpr ⟨node, member, binds⟩)

def captureFlow : List Node :=
  [.code { id := "a", source := "", output := some ⟨"process", .basic .string⟩ }]

theorem captureFlow_passes : ∃ m c, Pass "" {} .empty captureFlow m c ∧
    "process" ∈ bodyBinds m.done ∧ ∃ scope, "process" ∈ scope ∧
      (scope, .call (.member (.ident "process") "exit") [.num "0"]) ∈ entryPlaces m.done := by
  refine ⟨_, _, .code ?valid (.nil _ _), ?binds, ["process"], List.mem_cons_self, ?last⟩
  case valid =>
    exact ⟨by decide, (fun _ member => by cases member), fun _ given => by cases given; decide⟩
  case binds => decide
  case last => exact List.mem_cons_of_mem _ List.mem_cons_self

theorem captureFlow_captures : ∃ program, compile "" captureFlow = .ok program ∧
    ∃ body c, compileList "" {} captureFlow = .ok (body, c) ∧
      program = ⟨printScript (script c.manifest body), c.manifest⟩ ∧
      "process" ∈ bodyBinds body ∧ "process" ∈ ownNames program.manifest ∧
      ∃ scope, "process" ∈ scope ∧
        (scope, .call (.member (.ident "process") "exit") [.num "0"]) ∈ entryPlaces body := by
  obtain ⟨m, c, p, binds, captured⟩ := captureFlow_passes
  have list : compileList "" {} captureFlow = .ok (m.done, c) :=
    compileList_ok_iff.mpr ⟨m, p, rfl⟩
  refine ⟨_, compile_ok_iff.mpr ⟨_, _, list, rfl⟩, _, _, list, rfl, binds, ?_, captured⟩
  simp [ownNames]

end StepFlow.Compile
