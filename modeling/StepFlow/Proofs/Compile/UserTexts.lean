import StepFlow.Proofs.Compile.Proper
import StepFlow.Proofs.Script.Emptied

/-!
Texts of the user. The name of a step, the id of a component step, and a literal that is a string
reach the script as strings and nowhere else, so flows that differ only in these compile alike, to
scripts that differ only inside strings.
-/
namespace StepFlow.Compile
open StepFlow.Flow Script Text

/-- The input without its value, where that is a literal string. -/
def InputArg.veiled (i : InputArg) : InputArg :=
  if i.source = .literal ∧ (i.type = .string ∨ i.type = .unknown) then { i with value := "" } else i

def Operand.veiled (o : Operand) : Operand :=
  if o.source = .literal then { o with value := "" } else o

def CodeStep.veiled (s : CodeStep) : CodeStep :=
  { s with name := "", inputs := s.inputs.map InputArg.veiled }

def ComponentStep.veiled (s : ComponentStep) : ComponentStep :=
  { s with id := "", name := "", inputs := s.inputs.map InputArg.veiled }

def Condition.veiled (c : Condition) : Condition :=
  { c with left := Operand.veiled c.left, right := Operand.veiled c.right }

def Node.veiled (body : List Node) : Node → Node
  | .code s => .code (CodeStep.veiled s)
  | .component s => .component (ComponentStep.veiled s)
  | .ifThen condition _ => .ifThen (Condition.veiled condition) body
  | .elseIf condition _ => .elseIf (Condition.veiled condition) body
  | .otherwise id _ => .otherwise id body
  | .forEach l _ => .forEach l body

def veil : List Node → List Node
  | [] => []
  | node :: nodes => Node.veiled (veil node.body) node :: veil nodes
termination_by nodes => sizeOf nodes
decreasing_by
  all_goals first | exact inner_size node nodes | exact rest_size node nodes

section
variable {i : InputArg} {o : Operand} {s : StepCall}

theorem resolves_veiled : Resolves i.source i.type i.value ↔
    Resolves (InputArg.veiled i).source (InputArg.veiled i).type (InputArg.veiled i).value := by
  unfold InputArg.veiled
  split
  · rename_i text
    obtain ⟨literal, string⟩ := text
    have any : ∀ value, Resolves i.source i.type value := by
      intro value
      rw [literal]
      rcases string with string | string <;> rw [string] <;> exact ⟨_, rfl⟩
    exact ⟨fun _ => any "", fun _ => any i.value⟩
  · rfl

theorem prop_veiled : hollowProp (inputProp (InputArg.veiled i)) = hollowProp (inputProp i) := by
  unfold InputArg.veiled
  split
  · rename_i text
    obtain ⟨literal, string⟩ := text
    unfold inputProp
    dsimp only
    rw [literal]
    rcases string with string | string <;> rw [string] <;> rfl
  · rfl

theorem operand_veiled : (Resolves o.source .string o.value ↔
      Resolves (Operand.veiled o).source .string (Operand.veiled o).value) ∧
    hollowExpr (meaning (Operand.veiled o).source .string (Operand.veiled o).value) =
      hollowExpr (meaning o.source .string o.value) := by
  unfold Operand.veiled
  split
  · rename_i literal
    rw [literal]
    exact ⟨⟨fun _ => ⟨_, rfl⟩, fun _ => ⟨_, rfl⟩⟩, rfl⟩
  · exact ⟨Iff.rfl, rfl⟩

theorem condition_veiled (c : Condition) :
    (Condition.Valid c ↔ Condition.Valid (Condition.veiled c)) ∧
      hollowExpr (Condition.test (Condition.veiled c)) = hollowExpr (Condition.test c) := by
  constructor
  · constructor
    · exact fun valid => ⟨operand_veiled.1.mp valid.left, operand_veiled.1.mp valid.right⟩
    · exact fun valid => ⟨operand_veiled.1.mpr valid.left, operand_veiled.1.mpr valid.right⟩
  · simp only [Condition.test, Condition.veiled, hollowExpr, operand_veiled.2]

theorem condition_like {c c' : Condition} (same : Condition.veiled c = Condition.veiled c')
    (valid : Condition.Valid c) :
    Condition.Valid c' ∧ hollowExpr (Condition.test c) = hollowExpr (Condition.test c') := by
  constructor
  · exact (condition_veiled c').1.mpr (same ▸ (condition_veiled c).1.mp valid)
  · rw [← (condition_veiled c).2, same, (condition_veiled c').2]

def StepCall.veiled (s : StepCall) : StepCall :=
  { s with id := "", name := "", inputs := s.inputs.map InputArg.veiled }

theorem call_veiled : s.Valid ↔ s.veiled.Valid := by
  have inputs : (∀ i ∈ s.inputs, Resolves i.source i.type i.value) ↔
      ∀ i ∈ s.veiled.inputs, Resolves i.source i.type i.value := by
    simp only [StepCall.veiled, List.forall_mem_map, ← resolves_veiled]
  constructor
  · exact fun valid => ⟨inputs.mp valid.inputs, valid.output⟩
  · exact fun valid => ⟨inputs.mpr valid.inputs, valid.output⟩

theorem hollow_inputs (inputs : List InputArg) :
    hollowProps ((inputs.map InputArg.veiled).map inputProp) =
      hollowProps (inputs.map inputProp) := by
  induction inputs with
  | nil => rfl
  | cons i inputs ih => simp only [List.map_cons, hollowProps, prop_veiled, ih]

theorem hollow_invocation (target : Expr) :
    hollowExpr (s.veiled.invocation target) = hollowExpr (s.invocation target) := by
  simp only [StepCall.invocation, hollowExpr, hollowItems, StepCall.veiled, hollow_inputs]
  rfl

theorem hollow_statement (declared : List String) (target : Expr) :
    hollowStmt (s.veiled.statement declared target) = hollowStmt (s.statement declared target) := by
  have value := hollow_invocation (s := s) target
  have output : s.veiled.output = s.output := rfl
  unfold StepCall.statement
  rw [output]
  cases s.output with
  | none => simp only [hollowStmt, value]
  | some o => dsimp only; split <;> simp only [hollowStmt, value]

theorem call_like {s' : StepCall} (same : s.veiled = s'.veiled) (valid : s.Valid)
    (declared : List String) (target : Expr) : s'.Valid ∧ s.output = s'.output ∧
      hollowStmt (s.statement declared target) = hollowStmt (s'.statement declared target) := by
  have output : s.veiled.output = s'.veiled.output := by rw [same]
  refine ⟨call_veiled.mpr (same ▸ call_veiled.mp valid), output, ?_⟩
  rw [← hollow_statement, same, hollow_statement]

end

theorem component_like {s s' : ComponentStep}
    (same : ComponentStep.veiled s = ComponentStep.veiled s') (valid : ComponentStep.Valid s) :
    ComponentStep.Valid s' ∧ s.group = s'.group ∧ s.version = s'.version ∧
      (ComponentStep.call s).output = (ComponentStep.call s').output ∧
      ∀ declared, hollowStmt ((ComponentStep.call s).statement declared (ComponentStep.target s)) =
        hollowStmt ((ComponentStep.call s').statement declared (ComponentStep.target s')) := by
  have calls : (ComponentStep.call s).veiled = (ComponentStep.call s').veiled :=
    congrArg (fun v : ComponentStep => StepCall.mk "" "" v.policy v.inputs v.output) same
  have group : s.group = s'.group := (congrArg ComponentStep.group same :)
  have version : s.version = s'.version := (congrArg ComponentStep.version same :)
  have function : s.function = s'.function := (congrArg ComponentStep.function same :)
  have target : ComponentStep.target s = ComponentStep.target s' := by
    simp only [ComponentStep.target, group, version, function]
  obtain ⟨call, output, _⟩ := call_like calls valid.call [] (ComponentStep.target s)
  refine ⟨⟨group ▸ valid.group, version ▸ valid.version, function ▸ valid.function, call.inputs,
    call.output⟩, group, version, output, fun declared => ?_⟩
  rw [← target]
  exact (call_like calls valid.call declared _).2.2

theorem code_like {s s' : CodeStep} (same : CodeStep.veiled s = CodeStep.veiled s')
    (valid : CodeStep.Valid s) : CodeStep.Valid s' ∧ s.id = s'.id ∧
      (CodeStep.call s).output = (CodeStep.call s').output ∧
      ∀ declared, hollowStmt ((CodeStep.call s).statement declared (CodeStep.target s)) =
        hollowStmt ((CodeStep.call s').statement declared (CodeStep.target s')) := by
  have calls : (CodeStep.call s).veiled = (CodeStep.call s').veiled :=
    congrArg (fun v : CodeStep => StepCall.mk "" "" v.policy v.inputs v.output) same
  have id : s.id = s'.id := (congrArg CodeStep.id same :)
  have target : CodeStep.target s = CodeStep.target s' := by
    simp only [CodeStep.target, id]
  obtain ⟨call, output, _⟩ := call_like calls valid.call [] (CodeStep.target s)
  refine ⟨⟨id ▸ valid.id, call.inputs, call.output⟩, id, output, fun declared => ?_⟩
  rw [← target]
  exact (call_like calls valid.call declared _).2.2

def Link.hollow : Link → Link
  | .conditional test body => .conditional (hollowExpr test) (hollowBody body)
  | .otherwise body => .otherwise (hollowBody body)

def Merger.hollow (m : Merger) : Merger := ⟨hollowBody m.emitted, m.chain.map Link.hollow⟩

section
variable {m m' : Merger}

theorem hollow_append (first second : List Stmt) :
    hollowBody (first ++ second) = hollowBody first ++ hollowBody second := by
  induction first with
  | nil => rfl
  | cons stmt stmts ih => simp [hollowBody, ih]

theorem hollow_nest (links : List Link) :
    hollowElse (nest links) = nest (links.map Link.hollow) := by
  induction links with
  | nil => rfl
  | cons l links ih =>
    cases l with
    | conditional test body => simp [nest, hollowElse, hollowStmt, Link.hollow, ih]
    | otherwise body => simp [nest, hollowElse, hollowStmt, Link.hollow]

theorem hollow_flush (m : Merger) : m.flush.hollow = m.hollow.flush := by
  have toList : ∀ stmt : Option Stmt, hollowBody stmt.toList = (hollowElse stmt).toList := by
    intro stmt
    cases stmt <;> rfl
  simp [Merger.flush, Merger.hollow, hollow_append, toList, hollow_nest]

theorem hollow_done (m : Merger) : hollowBody m.done = m.hollow.done :=
  congrArg Merger.emitted (hollow_flush m)

theorem hollow_push (m : Merger) (stmt : Stmt) :
    (m.push stmt).hollow = m.hollow.push (hollowStmt stmt) := by
  have flushed := congrArg Merger.emitted (hollow_flush m)
  simp only [Merger.hollow] at flushed
  simp [Merger.push, Merger.hollow, hollow_append, hollowBody, flushed]

theorem hollow_open (m : Merger) (test : Expr) (body : List Stmt) :
    (m.open test body).hollow = m.hollow.open (hollowExpr test) (hollowBody body) := by
  have flushed := congrArg Merger.emitted (hollow_flush m)
  simp only [Merger.hollow] at flushed
  simp [Merger.open, Merger.hollow, Link.hollow, flushed]

theorem hollow_link (m : Merger) (l : Link) : (m.link l).hollow = m.hollow.link l.hollow := by
  simp [Merger.link, Merger.hollow]

theorem conditional_like {test test' : Expr} {body body' : List Stmt}
    (tests : hollowExpr test = hollowExpr test') (bodies : hollowBody body = hollowBody body') :
    (Link.conditional test body).hollow = (Link.conditional test' body').hollow := by
  rw [Link.hollow, Link.hollow, tests, bodies]

theorem otherwise_like {body body' : List Stmt} (bodies : hollowBody body = hollowBody body') :
    (Link.otherwise body).hollow = (Link.otherwise body').hollow := by
  rw [Link.hollow, Link.hollow, bodies]

section
variable (same : m.hollow = m'.hollow)
include same

theorem pending_like : m.chain = [] ↔ m'.chain = [] := by
  have chains := congrArg Merger.chain same
  simp only [Merger.hollow] at chains
  rw [← @List.map_eq_nil_iff _ _ Link.hollow, chains, List.map_eq_nil_iff]

theorem done_like : hollowBody m.done = hollowBody m'.done := by
  rw [hollow_done, hollow_done, same]

theorem flush_like : m.flush.hollow = m'.flush.hollow := by rw [hollow_flush, hollow_flush, same]

theorem push_like {stmt stmt' : Stmt} (stmts : hollowStmt stmt = hollowStmt stmt') :
    (m.push stmt).hollow = (m'.push stmt').hollow := by
  rw [hollow_push, hollow_push, same, stmts]

theorem open_like {test test' : Expr} {body body' : List Stmt}
    (tests : hollowExpr test = hollowExpr test') (bodies : hollowBody body = hollowBody body') :
    (m.open test body).hollow = (m'.open test' body').hollow := by
  rw [hollow_open, hollow_open, same, tests, bodies]

theorem link_like {l l' : Link} (links : l.hollow = l'.hollow) :
    (m.link l).hollow = (m'.link l').hollow := by
  rw [hollow_link, hollow_link, same, links]

end

end

def codeEntry (entry : String × InlineCode) : String × String := (entry.1, entry.2.name)

def loadEntry (entry : String × String) : Stmt :=
  .const entry.2 (.require ("./" ++ componentsDir ++ "/" ++ entry.1))

/-- Two contexts that scripts cannot tell apart. -/
structure Context.Like (c d : Context) : Prop where
  declared : c.declared = d.declared
  groups : c.groups = d.groups
  codes : c.inlineCode.map codeEntry = d.inlineCode.map codeEntry

section
variable {groupRoot : String} {c d : Context}

theorem putKeyed_entries (id : String) (code : InlineCode) (l : List (String × InlineCode)) :
    (putKeyed id code l).map codeEntry = putKeyed id code.name (l.map codeEntry) := by
  induction l with
  | nil => rfl
  | cons entry l ih =>
    simp only [putKeyed, List.map_cons, codeEntry]
    split
    · rfl
    · rw [List.map_cons, ih]
      rfl

theorem afterStep_like (like : Context.Like c d) {s s' : StepCall} (output : s.output = s'.output) :
    Context.Like (c.afterStep s) (d.afterStep s') := by
  unfold Context.afterStep
  rw [output]
  cases s'.output with
  | none => exact like
  | some o =>
    simp only [Context.declare, like.declared]
    split
    · exact like
    · exact ⟨by simp, like.groups, like.codes⟩

theorem withGroup_like (groupRoot : String) (like : Context.Like c d) {s s' : ComponentStep}
    (group : s.group = s'.group) (version : s.version = s'.version) :
    Context.Like (c.withGroup groupRoot s) (d.withGroup groupRoot s') := by
  simp only [Context.withGroup, Context.addGroup, group, version, like.groups]
  split
  · exact like
  · exact ⟨like.declared, by simp, like.codes⟩

theorem withCode_like (like : Context.Like c d) {s s' : CodeStep} (id : s.id = s'.id) :
    Context.Like (c.withCode s) (d.withCode s') := by
  refine ⟨like.declared, like.groups, ?_⟩
  simp only [Context.withCode, Context.addInlineCode, putKeyed_entries, like.codes, id]

theorem load_entries (c : Context) : loadStatements c.manifest =
    (c.groups.map fun g => Stmt.const g.name (.require g.path)) ++
      (c.inlineCode.map codeEntry).map loadEntry ++
      [.const globalName (.require ("./" ++ globalFile))] := by
  rw [loadStatements, List.map_map]
  rfl

theorem load_like (like : Context.Like c d) :
    loadStatements c.manifest = loadStatements d.manifest := by
  rw [load_entries, load_entries, like.groups, like.codes]

theorem veil_split {node : Node} {nodes others : List Node}
    (same : veil (node :: nodes) = veil others) : ∃ node' rest, others = node' :: rest ∧
      Node.veiled (veil node.body) node = Node.veiled (veil node'.body) node' ∧
        veil nodes = veil rest := by
  cases others with
  | nil =>
    rw [veil, veil] at same
    cases same
  | cons node' rest =>
    rw [veil, veil] at same
    obtain ⟨first, later⟩ := List.cons.inj same
    exact ⟨node', rest, rfl, first, later⟩

/-- A pass over nodes is followed by one over nodes that look alike under their veils. -/
theorem pass_veiled {m m' : Merger} {nodes : List Node} {c' : Context}
    (p : Pass groupRoot c m nodes m' c') : ∀ {d md others}, veil nodes = veil others →
      Context.Like c d → m.hollow = md.hollow → ∃ md' d', Pass groupRoot d md others md' d' ∧
        Context.Like c' d' ∧ m'.hollow = md'.hollow := by
  have empty : Merger.empty.hollow = Merger.empty.hollow := rfl
  -- a veil keeps the kind of every node, so the other pass has to take a step of the same name
  induction p with
  | nil c m =>
    intro d md others same like hollow
    cases others with
    | nil => exact ⟨md, d, .nil d md, like, hollow⟩
    | cons node rest =>
      rw [veil, veil] at same
      cases same
  | ifThen valid inner rest ihBody ih =>
    intro d md others same like hollow
    obtain ⟨node, others, rfl, own, later⟩ := veil_split same
    cases node with
    | ifThen condition body =>
      obtain ⟨texts, bodies⟩ := Node.ifThen.inj own
      obtain ⟨valid, test⟩ := condition_like texts valid
      obtain ⟨mi, di, inner, likeBody, hollowInner⟩ := ihBody bodies like empty
      have opened := open_like hollow test (done_like hollowInner)
      obtain ⟨md', d', rest, likeRest, hollowRest⟩ := ih later likeBody opened
      exact ⟨md', d', .ifThen valid inner rest, likeRest, hollowRest⟩
    | _ => cases own
  | elseIf valid inner pending rest ihBody ih =>
    intro d md others same like hollow
    obtain ⟨node, others, rfl, own, later⟩ := veil_split same
    cases node with
    | elseIf condition body =>
      obtain ⟨texts, bodies⟩ := Node.elseIf.inj own
      obtain ⟨valid, test⟩ := condition_like texts valid
      obtain ⟨mi, di, inner, likeBody, hollowInner⟩ := ihBody bodies like empty
      have linked := link_like hollow (conditional_like test (done_like hollowInner))
      obtain ⟨md', d', rest, likeRest, hollowRest⟩ := ih later likeBody linked
      exact ⟨md', d', .elseIf valid inner (mt (pending_like hollow).mpr pending) rest, likeRest,
        hollowRest⟩
    | _ => cases own
  | otherwise inner pending rest ihBody ih =>
    intro d md others same like hollow
    obtain ⟨node, others, rfl, own, later⟩ := veil_split same
    cases node with
    | otherwise id body =>
      obtain ⟨_, bodies⟩ := Node.otherwise.inj own
      obtain ⟨mi, di, inner, likeBody, hollowInner⟩ := ihBody bodies like empty
      have linked := link_like hollow (otherwise_like (done_like hollowInner))
      obtain ⟨md', d', rest, likeRest, hollowRest⟩ := ih later likeBody (flush_like linked)
      exact ⟨md', d', .otherwise inner (mt (pending_like hollow).mpr pending) rest, likeRest,
        hollowRest⟩
    | _ => cases own
  | @forEach c ci c' m mi m' l body nodes b valid binding inner rest ihBody ih =>
    intro d md others same like hollow
    obtain ⟨node, others, rfl, own, later⟩ := veil_split same
    cases node with
    | forEach l' body =>
      obtain ⟨loops, bodies⟩ := Node.forEach.inj own
      cases loops
      obtain ⟨mi', di, inner, likeBody, hollowInner⟩ := ihBody bodies like empty
      have loop : hollowStmt (.forOf b.key (Loop.iterable l) mi.done) =
          hollowStmt (.forOf b.key (Loop.iterable l) mi'.done) := by
        simp only [hollowStmt, done_like hollowInner]
      obtain ⟨md', d', rest, likeRest, hollowRest⟩ := ih later likeBody (push_like hollow loop)
      exact ⟨md', d', .forEach valid binding inner rest, likeRest, hollowRest⟩
    | _ => cases own
  | @component c c' m m' s nodes valid rest ih =>
    intro d md others same like hollow
    obtain ⟨node, others, rfl, own, later⟩ := veil_split same
    cases node with
    | component s' =>
      obtain ⟨valid, group, version, output, statement⟩ :=
        component_like (Node.component.inj own) valid
      have begun := afterStep_like (withGroup_like groupRoot like group version) output
      have pushed := push_like hollow (statement c.declared)
      obtain ⟨md', d', rest, likeRest, hollowRest⟩ := ih later begun pushed
      rw [like.declared] at rest
      exact ⟨md', d', .component valid rest, likeRest, hollowRest⟩
    | _ => cases own
  | @code c c' m m' s nodes valid rest ih =>
    intro d md others same like hollow
    obtain ⟨node, others, rfl, own, later⟩ := veil_split same
    cases node with
    | code s' =>
      obtain ⟨valid, id, output, statement⟩ := code_like (Node.code.inj own) valid
      have begun := afterStep_like (withCode_like like id) output
      have pushed := push_like hollow (statement c.declared)
      obtain ⟨md', d', rest, likeRest, hollowRest⟩ := ih later begun pushed
      rw [like.declared] at rest
      exact ⟨md', d', .code valid rest, likeRest, hollowRest⟩
    | _ => cases own

end

theorem spelled_quiet (s : List Char) (spelled : Spelled s) : Quiet s := by
  have decimal : ∀ {digits : List Char}, Literal.Decimal digits → Quiet digits :=
    fun digits c member => ne_of_kind (digits c member) (by decide)
  have joined : ∀ {first second : List Char},
      Quiet first → Quiet second → Quiet (first ++ second) :=
    fun first second => List.forall_mem_append.mpr ⟨first, second⟩
  have behind : ∀ {c : Char} {rest : List Char}, c ≠ '"' → Quiet rest → Quiet (c :: rest) :=
    fun other rest => List.forall_mem_cons.mpr ⟨other, rest⟩
  have nothing : Quiet [] := fun _ none => by cases none
  rcases spelled with numeral | rfl
  · obtain ⟨sign_ok, base, scale⟩ := numeral
    refine joined (joined ?_ ?_) ?_
    · rcases sign_ok with rfl | rfl
      · exact nothing
      · exact behind (by decide) nothing
    · cases base with
      | whole digits => exact decimal digits
      | pointed digits more => exact joined (decimal digits) (behind (by decide) (decimal more))
    · cases scale with
      | none => exact nothing
      | marked mark_ok sign_ok digits =>
        refine behind (by rcases mark_ok with rfl | rfl <;> decide) (joined ?_ (decimal digits))
        rcases sign_ok with rfl | rfl | rfl
        · exact nothing
        · exact behind (by decide) nothing
        · exact behind (by decide) nothing
  · simp [Quiet]

/-- Flows that differ only in texts of the user are accepted together or refused together, and
emptying the strings of the two programs gives one text. -/
theorem user_texts_inject_nothing (groupRoot : String) {nodes others : List Node}
    (same : veil nodes = veil others) :
    (∃ e e', compile groupRoot nodes = .error e ∧ compile groupRoot others = .error e') ∨
      ∃ program program' text, compile groupRoot nodes = .ok program ∧
        compile groupRoot others = .ok program' ∧
        emptied false program.source.toList = some text ∧
        emptied false program'.source.toList = some text := by
  have follows : ∀ {nodes others : List Node} {program : Program}, veil nodes = veil others →
      compile groupRoot nodes = .ok program → ∃ program' text,
        compile groupRoot others = .ok program' ∧
        emptied false program.source.toList = some text ∧
        emptied false program'.source.toList = some text := by
    intro nodes others program same compiled
    obtain ⟨body, c, list, rfl⟩ := compile_ok_iff.mp compiled
    obtain ⟨m, p, rfl⟩ := compileList_ok_iff.mp list
    obtain ⟨m', c', p', like, hollow⟩ := pass_veiled p same ⟨rfl, rfl, rfl⟩ rfl
    have list' := compileList_ok_iff.mpr ⟨m', p', rfl⟩
    have scripts :
        hollowBody (script c.manifest m.done) = hollowBody (script c'.manifest m'.done) := by
      simp only [script, entryPoint, hollow_append, hollowBody, hollowStmt, hollowExpr, hollowItems,
        load_like like, hollow_done, hollow]
    refine ⟨_, _, compile_ok_iff.mpr ⟨_, _, list', rfl⟩,
      script_empties spelled_quiet (script_proper list), ?_⟩
    rw [scripts]
    exact script_empties spelled_quiet (script_proper list')
  cases result : compile groupRoot nodes with
  | ok program =>
    obtain ⟨program', text, compiled, own, other⟩ := follows same result
    exact Or.inr ⟨program, program', text, rfl, compiled, own, other⟩
  | error e =>
    cases result' : compile groupRoot others with
    | error e' => exact Or.inl ⟨e, e', rfl, rfl⟩
    | ok program' =>
      obtain ⟨program, _, compiled, _⟩ := follows same.symm result'
      cases result.symm.trans compiled

def greetFlow (id name operand greeting : String) : List Node :=
  [.ifThen { left := ⟨.literal, operand⟩, comparison := .eq, right := ⟨.literal, "guest"⟩ }
    [.component
      { id, name, group := "mail", function := "send", version := "1"
        inputs := [.ofLiteral "text" .string greeting] }]]

theorem greetFlow_passes (id name operand greeting : String) :
    ∃ m c, Pass "" {} .empty (greetFlow id name operand greeting) m c := by
  refine ⟨_, _, .ifThen ⟨⟨_, rfl⟩, ⟨_, rfl⟩⟩ (.component ?step (.nil _ _)) (.nil _ _)⟩
  have function : isIdentifier "send" = true := by decide
  refine ⟨by simp, by simp, function, ?_, fun _ given => by cases given⟩
  intro i member
  cases List.mem_singleton.mp member
  exact ⟨_, rfl⟩

theorem greetFlow_injects_nothing : ∃ program program' text,
    compile "" (greetFlow "" "" "guest" "hello") = .ok program ∧
      compile "" (greetFlow "c\"" "\n;" "\\" "\"); process.exit(1); //") = .ok program' ∧
      emptied false program.source.toList = some text ∧
      emptied false program'.source.toList = some text := by
  obtain ⟨m, c, p⟩ := greetFlow_passes "" "" "guest" "hello"
  have compiled := compile_ok_iff.mpr ⟨_, _, compileList_ok_iff.mpr ⟨m, p, rfl⟩, rfl⟩
  have same : veil (greetFlow "" "" "guest" "hello") =
      veil (greetFlow "c\"" "\n;" "\\" "\"); process.exit(1); //") := by
    simp [greetFlow, veil, Node.veiled, Node.body, Condition.veiled, Operand.veiled,
      ComponentStep.veiled, InputArg.veiled, InputArg.ofLiteral]
  rcases user_texts_inject_nothing "" same with ⟨e, _, refused, _⟩ | accepted
  · cases compiled.symm.trans refused
  · exact accepted

end StepFlow.Compile
