import StepFlow.Proofs.Compile.Scope

/-!
Where the assignments of a compiled flow land. The compiler declares an output once for the whole
program, in whatever block its first step stands. So an assignment lands on that declaration just
when the list that holds the first step also holds the other one, behind it. How assignments land is
first read off the flow itself; a pass over it lands its assignments in the same way.
-/
namespace StepFlow.Compile
open StepFlow.Flow Script

def StepCall.key (s : StepCall) : Option String := s.output.map OutputArg.key

def Node.bound? : Node → Option String
  | .forEach l _ => l.binding.map OutputArg.key
  | _ => none

def stepKeys : List Node → List (Option String)
  | [] => []
  | node :: nodes =>
    match Node.step? node with
    | some step => step.1 :: stepKeys nodes
    | none => stepKeys node.body ++ stepKeys nodes
termination_by nodes => sizeOf nodes
decreasing_by
  all_goals first | exact inner_size node nodes | exact rest_size node nodes

section
variable (scope : Scope) (past : List (Option String))

def behind : Option String → Scope
  | none => scope
  | some key => if some key ∈ past then scope else (key, .output past.length) :: scope

def within (node : Node) : Scope :=
  match Node.bound? node with
  | none => scope
  | some key => (key, .constant) :: scope

def stepLandings : Option String → List Landing
  | none => []
  | some key => if some key ∈ past then [⟨key, scope.lookup key⟩] else []

end

def flowLandings (scope : Scope) (past : List (Option String)) : List Node → List Landing
  | [] => []
  | node :: nodes =>
    match Node.step? node with
    | some step =>
      stepLandings scope past step.1 ++
        flowLandings (behind scope past step.1) (past ++ [step.1]) nodes
    | none =>
      flowLandings (within scope node) past node.body ++
        flowLandings scope (past ++ stepKeys node.body) nodes
termination_by nodes => sizeOf nodes
decreasing_by
  all_goals first | exact inner_size node nodes | exact rest_size node nodes

def Declares (c : Context) (past : List (Option String)) : Prop :=
  ∀ key, key ∈ c.declared ↔ some key ∈ past

section
variable {scope : Scope} {past : List (Option String)} {c : Context} {s : StepCall}
  {target : Expr}

theorem statement_keys : stmtKeys (s.statement c.declared target) = [s.key] := by
  unfold StepCall.statement StepCall.key
  cases s.output with
  | none => rfl
  | some o => by_cases seen : o.key ∈ c.declared <;> simp [seen, stmtKeys]

theorem statement_binds (d : Declares c past) :
    stmtScope scope past (s.statement c.declared target) = behind scope past s.key := by
  unfold StepCall.statement StepCall.key
  cases s.output with
  | none => rfl
  | some o => by_cases seen : some o.key ∈ past <;> simp [d o.key, seen, stmtScope, behind]

theorem statement_lands (d : Declares c past) :
    stmtLandings scope past (s.statement c.declared target) = stepLandings scope past s.key := by
  unfold StepCall.statement StepCall.key
  cases s.output with
  | none => rfl
  | some o =>
    by_cases seen : some o.key ∈ past <;> simp [d o.key, seen, stmtLandings, stepLandings]

theorem afterStep_declares {c' : Context} (d : Declares c past)
    (same : c'.declared = c.declared) : Declares (c'.afterStep s) (past ++ [s.key]) := by
  intro key
  have known := d key
  unfold Context.afterStep StepCall.key
  cases s.output with
  | none => simp [same, known]
  | some o =>
    by_cases seen : o.key ∈ c.declared
    · have member : some o.key ∈ past := (d o.key).mp seen
      simp only [declare_declared (same ▸ seen : o.key ∈ c'.declared), same, known]
      grind
    · simp [Context.declare, same, seen, known]

end

theorem stepKeys_inner {node : Node} {nodes : List Node} (inner : Node.step? node = none) :
    stepKeys (node :: nodes) = stepKeys node.body ++ stepKeys nodes := by
  simp [stepKeys, inner]

theorem flowLandings_inner {scope : Scope} {past : List (Option String)} {node : Node}
    {nodes : List Node} (inner : Node.step? node = none) :
    flowLandings scope past (node :: nodes) = flowLandings (within scope node) past node.body ++
      flowLandings scope (past ++ stepKeys node.body) nodes := by
  simp [flowLandings, inner]

/-- The assignments land in a pass over a flow as they do in the flow itself. -/
theorem pass_lands {groupRoot : String} {c c' : Context} {m m' : Merger} {nodes : List Node}
    (p : Pass groupRoot c m nodes m' c') : ∀ {scope scope' past past' landings},
    Walked scope past m scope' past' landings → Declares c past' →
    (∃ scope'', Walked scope past m' scope'' (past' ++ stepKeys nodes)
      (landings ++ flowLandings scope' past' nodes)) ∧ Declares c' (past' ++ stepKeys nodes) := by
  -- on the pass: the statements so far have been walked, and the body of a node is walked in the
  -- scope that it sees
  induction p with
  | nil c m =>
    intro scope scope' past past' landings w d
    simp only [stepKeys, flowLandings, List.append_nil]
    exact ⟨⟨_, w⟩, d⟩
  | @ifThen c ci c' m mi m' condition body nodes valid inner rest ihBody ih =>
    intro scope scope' past past' landings w d
    obtain ⟨⟨_, wi⟩, di⟩ := ihBody (walked_empty scope' past') d
    have keys : bodyKeys mi.done = stepKeys body := List.append_cancel_left wi.stepped
    have w := walked_stmt w (pending_link pending_nil (Condition.test condition) mi.done)
      ((open_done ..).trans (push_done ..))
    simp only [stmtKeys, elseKeys, keys, List.append_nil, stmtLandings, elseLandings,
      wi.landed, stmtScope] at w
    rw [stepKeys_inner rfl, flowLandings_inner rfl, ← List.append_assoc, ← List.append_assoc]
    exact ih w di
  | @elseIf c ci c' m mi m' condition body nodes valid inner pending rest ihBody ih =>
    intro scope scope' past past' landings w d
    obtain ⟨⟨_, wi⟩, di⟩ := ihBody (walked_empty scope' past') d
    have keys : bodyKeys mi.done = stepKeys body := List.append_cancel_left wi.stepped
    have w := walked_link w (pending_link w.pending (Condition.test condition) mi.done) rfl
    simp only [Link.body, keys, wi.landed] at w
    rw [stepKeys_inner rfl, flowLandings_inner rfl, ← List.append_assoc, ← List.append_assoc]
    exact ih w di
  | @otherwise c ci c' m mi m' id body nodes inner pending rest ihBody ih =>
    intro scope scope' past past' landings w d
    obtain ⟨⟨_, wi⟩, di⟩ := ihBody (walked_empty scope' past') d
    have keys : bodyKeys mi.done = stepKeys body := List.append_cancel_left wi.stepped
    have w := walked_link w pending_nil (flush_done (m.link (.otherwise mi.done)))
    simp only [Link.body, keys, wi.landed] at w
    rw [stepKeys_inner rfl, flowLandings_inner rfl, ← List.append_assoc, ← List.append_assoc]
    exact ih w di
  | @forEach c ci c' m mi m' l body nodes b valid binding inner rest ihBody ih =>
    intro scope scope' past past' landings w d
    obtain ⟨⟨_, wi⟩, di⟩ := ihBody (walked_empty ((b.key, .constant) :: scope') past') d
    have keys : bodyKeys mi.done = stepKeys body := List.append_cancel_left wi.stepped
    have w := walked_stmt w pending_nil (push_done m (.forOf b.key (Loop.iterable l) mi.done))
    simp only [stmtKeys, keys, stmtLandings, wi.landed, stmtScope] at w
    have inside : within scope' (.forEach l body) = (b.key, .constant) :: scope' := by
      simp [within, Node.bound?, binding]
    rw [stepKeys_inner rfl, flowLandings_inner rfl, inside, ← List.append_assoc,
      ← List.append_assoc]
    exact ih w di
  | @component c c' m m' s nodes valid rest ih =>
    intro scope scope' past past' landings w d
    have w := walked_stmt w pending_nil (push_done m
      ((ComponentStep.call s).statement c.declared (ComponentStep.target s)))
    rw [statement_keys, statement_binds d, statement_lands d] at w
    have next := ih w (afterStep_declares d (withGroup_declared groupRoot c s))
    simpa [stepKeys, flowLandings, Node.step?, StepCall.key, ComponentStep.call] using next
  | @code c c' m m' s nodes valid rest ih =>
    intro scope scope' past past' landings w d
    have w := walked_stmt w pending_nil (push_done m
      ((CodeStep.call s).statement c.declared (CodeStep.target s)))
    rw [statement_keys, statement_binds d, statement_lands d] at w
    have next := ih w (afterStep_declares d (withCode_declared c s))
    simpa [stepKeys, flowLandings, Node.step?, StepCall.key, CodeStep.call] using next

theorem compileList_lands {groupRoot : String} {c' : Context} {nodes : List Node}
    {body : List Stmt} (h : compileList groupRoot {} nodes = .ok (body, c')) (scope : Scope) :
    bodyKeys body = stepKeys nodes ∧
      bodyLandings scope [] body = flowLandings scope [] nodes := by
  obtain ⟨m, p, rfl⟩ := compileList_ok_iff.mp h
  have nothing : Declares {} [] := fun key => by simp
  obtain ⟨⟨_, w⟩, _⟩ := pass_lands p (walked_empty scope []) nothing
  exact ⟨w.stepped, w.landed⟩

/-- No step with the output `key` stands below a loop that binds that name. -/
def Clear (key : String) : List Node → Prop
  | [] => True
  | node :: nodes =>
    (if Node.bound? node = some key then some key ∉ stepKeys node.body else Clear key node.body) ∧
      Clear key nodes
termination_by nodes => sizeOf nodes
decreasing_by
  all_goals first | exact inner_size node nodes | exact rest_size node nodes

/-- The list that holds the first step with the output `key` also holds, behind it and clear of
loops that bind the name, every other one. -/
def Settled (key : String) : List Node → Prop
  | [] => True
  | node :: nodes =>
    match Node.step? node with
    | some step => if step.1 = some key then Clear key nodes else Settled key nodes
    | none =>
      if some key ∈ stepKeys node.body then Settled key node.body ∧ some key ∉ stepKeys nodes
      else Settled key nodes
termination_by nodes => sizeOf nodes
decreasing_by
  all_goals first | exact inner_size node nodes | exact rest_size node nodes

def Lands (key : String) (step : Nat) (landings : List Landing) : Prop :=
  ∀ l ∈ landings, l.key = key → l.binder = some (.output step)

section
variable {key : String} {step : Nat} {scope : Scope} {past : List (Option String)}

theorem lands_nil : Lands key step [] := by simp [Lands]

theorem lands_append {first second : List Landing} :
    Lands key step (first ++ second) ↔ Lands key step first ∧ Lands key step second := by
  simp only [Lands, List.mem_append, or_imp, forall_and]

theorem step_body {node : Node} {step : Option String × Invocation}
    (stepped : Node.step? node = some step) : node.body = [] ∧ Node.bound? node = none := by
  cases node <;> first | exact ⟨rfl, rfl⟩ | cases stepped

theorem stepLandings_key {output : Option String} {l : Landing}
    (member : l ∈ stepLandings scope past output) : output = some l.key := by
  cases output with
  | none => simp [stepLandings] at member
  | some name =>
    simp only [stepLandings] at member
    split at member
    · cases List.mem_singleton.mp member
      rfl
    · cases member

theorem flowLandings_key {nodes : List Node} {l : Landing}
    (member : l ∈ flowLandings scope past nodes) : some l.key ∈ stepKeys nodes := by
  induction scope, past, nodes using flowLandings.induct with
  | case1 => simp [flowLandings] at member
  | case2 scope past node nodes s stepped ih =>
    simp only [flowLandings, stepped, List.mem_append] at member
    simp only [stepKeys, stepped, List.mem_cons]
    rcases member with own | later
    · exact Or.inl (stepLandings_key own).symm
    · exact Or.inr (ih later)
  | case3 scope past node nodes inner ihBody ih =>
    rw [flowLandings_inner inner] at member
    rw [stepKeys_inner inner]
    rcases List.mem_append.mp member with own | later
    · exact List.mem_append_left _ (ihBody own)
    · exact List.mem_append_right _ (ih later)

theorem lands_absent {nodes : List Node} (absent : some key ∉ stepKeys nodes) :
    Lands key step (flowLandings scope past nodes) := by
  intro l member same
  exact absurd (same ▸ flowLandings_key member) absent

theorem stepLandings_land (known : some key ∈ past) (output : Option String) :
    Lands key step (stepLandings scope past output) ↔
      (output = some key → scope.lookup key = some (.output step)) := by
  by_cases own : output = some key
  · subst own
    simp [stepLandings, Lands, known]
  · simp only [own, false_implies, iff_true]
    intro l member same
    exact absurd (same ▸ stepLandings_key member) own

theorem lookup_behind (output : Option String) (other : output ≠ some key ∨ some key ∈ past) :
    (behind scope past output).lookup key = scope.lookup key := by
  cases output with
  | none => rfl
  | some name =>
    simp only [behind]
    split
    · rfl
    · rename_i unseen
      have different : (key == name) = false := by
        rcases other with other | known
        · simpa using fun same : key = name => other (congrArg some same.symm)
        · simpa using fun same : key = name => unseen (same ▸ known)
      simp [List.lookup_cons, different]

theorem lookup_within {node : Node} :
    (within scope node).lookup key =
      if Node.bound? node = some key then some .constant else scope.lookup key := by
  unfold within
  cases Node.bound? node with
  | none => simp
  | some name =>
    by_cases same : name = key
    · simp [same]
    · have different : (key == name) = false := by simpa using Ne.symm same
      simp [List.lookup_cons, different, same]

theorem known_lands {nodes : List Node} (known : some key ∈ past) :
    Lands key step (flowLandings scope past nodes) ↔
      if scope.lookup key = some (.output step) then Clear key nodes
      else some key ∉ stepKeys nodes := by
  induction scope, past, nodes using flowLandings.induct with
  | case1 => simp [flowLandings, Clear, stepKeys, lands_nil]
  | case2 scope past node nodes s stepped ih =>
    have ih := ih (List.mem_append_left _ known)
    rw [lookup_behind s.1 (Or.inr known)] at ih
    obtain ⟨leaf, free⟩ := step_body stepped
    simp only [flowLandings, stepped, lands_append, stepLandings_land known, ih, stepKeys]
    by_cases seen : scope.lookup key = some (.output step)
    · simp [seen, Clear, leaf, free]
    · simp [seen, @eq_comm _ (some key) s.1]
  | case3 scope past node nodes inner ihBody ih =>
    rw [flowLandings_inner inner, lands_append, ihBody known,
      ih (List.mem_append_left _ known), lookup_within, stepKeys_inner inner]
    by_cases bound : Node.bound? node = some key
    · by_cases seen : scope.lookup key = some (.output step)
      · simp [bound, seen, Clear]
      · simp [bound, seen]
    · by_cases seen : scope.lookup key = some (.output step)
      · simp [bound, seen, Clear]
      · simp [bound, seen]

theorem first_step {all : List (Option String)} (unseen : some key ∉ past)
    (reached : past ++ [some key] <+: all) : all.idxOf (some key) = past.length := by
  obtain ⟨later, rfl⟩ := reached
  simp [List.append_assoc, List.idxOf_append, unseen]

theorem unknown_lands {all : List (Option String)} {nodes : List Node}
    (unseen : some key ∉ past)
    (unbound : scope.lookup key ≠ some (.output (all.idxOf (some key))))
    (reached : past ++ stepKeys nodes <+: all) :
    Lands key (all.idxOf (some key)) (flowLandings scope past nodes) ↔ Settled key nodes := by
  induction scope, past, nodes using flowLandings.induct with
  | case1 => simp [flowLandings, Settled, lands_nil]
  | case2 scope past node nodes s stepped ih =>
    simp only [stepKeys, stepped] at reached
    have here : past ++ [s.1] <+: all :=
      List.IsPrefix.trans ⟨stepKeys nodes, by simp⟩ reached
    simp only [flowLandings, stepped, lands_append, Settled]
    by_cases own : s.1 = some key
    · have first := first_step unseen (own ▸ here)
      have silent : stepLandings scope past s.1 = [] := by simp [stepLandings, own, unseen]
      have declared : behind scope past s.1 = (key, .output past.length) :: scope := by
        simp [behind, own, unseen]
      rw [silent, declared, known_lands (by simp [own]), first]
      simp [own, lands_nil]
    · have later : some key ∉ past ++ [s.1] := by
        simp [unseen, @eq_comm _ (some key) s.1, own]
      have unbound' : (behind scope past s.1).lookup key ≠
          some (.output (all.idxOf (some key))) := by
        rwa [lookup_behind s.1 (Or.inl own)]
      have other : Lands key (all.idxOf (some key)) (stepLandings scope past s.1) := by
        intro l member same
        exact absurd (same ▸ stepLandings_key member) own
      simp [own, other, ih later unbound' (by simpa using reached)]
  | case3 scope past node nodes inner ihBody ih =>
    rw [stepKeys_inner inner] at reached
    have body : past ++ stepKeys node.body <+: all :=
      List.IsPrefix.trans ⟨stepKeys nodes, by simp⟩ reached
    have unbound' : (within scope node).lookup key ≠ some (.output (all.idxOf (some key))) := by
      rw [lookup_within]
      split
      · simp
      · exact unbound
    rw [flowLandings_inner inner, lands_append]
    simp only [Settled, inner]
    by_cases used : some key ∈ stepKeys node.body
    · rw [ihBody unseen unbound' body, known_lands (List.mem_append_right _ used)]
      simp [used, unbound]
    · rw [ih (by simp [unseen, used]) unbound (by simpa using reached)]
      simp [used, lands_absent used]

theorem loaded_constant (m : Manifest) (key : String) (step : Nat) :
    (bodyScope [] [] (loadStatements m)).lookup key ≠ some (.output step) := by
  have constants : ∀ (stmts : List Stmt), (∀ stmt ∈ stmts, ∃ name e, stmt = .const name e) →
      ∀ (scope : Scope) (past : List (Option String)),
        scope.lookup key ≠ some (.output step) →
        (bodyScope scope past stmts).lookup key ≠ some (.output step) := by
    intro stmts
    induction stmts with
    | nil => exact fun _ _ _ unbound => unbound
    | cons stmt stmts ih =>
      intro all scope past unbound
      obtain ⟨name, e, rfl⟩ := all _ List.mem_cons_self
      refine ih (fun stmt member => all stmt (List.mem_cons_of_mem _ member)) _ _ ?_
      simp only [stmtScope, List.lookup_cons]
      split
      · simp
      · exact unbound
  refine constants _ ?_ [] [] (by simp)
  intro stmt member
  simp only [loadStatements, List.mem_append, List.mem_map, List.mem_singleton] at member
  rcases member with (⟨g, _, rfl⟩ | ⟨⟨id, code⟩, _, rfl⟩) | rfl
  · exact ⟨_, _, rfl⟩
  · exact ⟨_, _, rfl⟩
  · exact ⟨_, _, rfl⟩

end

/-- How the assignments of a compiled body land, seen from behind the modules it loads. -/
def programLandings (m : Manifest) (body : List Stmt) : List Landing :=
  bodyLandings (bodyScope [] [] (loadStatements m)) [] body

/-- In a compiled flow every assignment lands on the declaration of the first step with its output
just when every output is settled. -/
theorem assignments_land_iff {groupRoot : String} {nodes : List Node} {program : Program}
    (compiled : compile groupRoot nodes = .ok program) :
    ∃ body c, compileList groupRoot {} nodes = .ok (body, c) ∧
      program = ⟨printScript (script c.manifest body), c.manifest⟩ ∧
      bodyKeys body = stepKeys nodes ∧
      ((∀ l ∈ programLandings c.manifest body,
          l.binder = some (.output ((stepKeys nodes).idxOf (some l.key)))) ↔
        ∀ key, Settled key nodes) := by
  obtain ⟨body, c, list, printed⟩ := compile_ok_iff.mp compiled
  obtain ⟨keys, landings⟩ := compileList_lands list (bodyScope [] [] (loadStatements c.manifest))
  refine ⟨body, c, list, printed, keys, ?_⟩
  rw [programLandings, landings]
  have each : ∀ key, Lands key ((stepKeys nodes).idxOf (some key))
      (flowLandings (bodyScope [] [] (loadStatements c.manifest)) [] nodes) ↔ Settled key nodes :=
    fun key => unknown_lands (by simp) (loaded_constant c.manifest key _) (by simp)
  constructor
  · intro all key
    refine (each key).mp ?_
    intro l member same
    rw [all l member, same]
  · intro settled l member
    exact (each l.key).mpr (settled l.key) l member rfl

def lateFlow : List Node :=
  [.ifThen ⟨"i", ⟨.literal, "1"⟩, .eq, ⟨.literal, "1"⟩⟩
    [.code { id := "a", source := "", output := some ⟨"x", .basic .string⟩ }],
   .code { id := "b", source := "", output := some ⟨"x", .basic .string⟩ }]

theorem lateFlow_passes : ∃ m c, Pass "" {} .empty lateFlow m c ∧
    ⟨"x", none⟩ ∈ programLandings c.manifest m.done := by
  refine ⟨_, _, .ifThen ?test (.code ?first (.nil _ _)) (.code ?second (.nil _ _)), ?unbound⟩
  case test => exact ⟨⟨_, rfl⟩, ⟨_, rfl⟩⟩
  case first =>
    exact ⟨by decide, (fun _ member => by cases member), fun _ given => by cases given; decide⟩
  case second =>
    exact ⟨by decide, (fun _ member => by cases member), fun _ given => by cases given; decide⟩
  case unbound => decide

theorem lateFlow_unbound : ∃ program, compile "" lateFlow = .ok program ∧
    ∃ body c, compileList "" {} lateFlow = .ok (body, c) ∧
      program = ⟨printScript (script c.manifest body), c.manifest⟩ ∧
      ⟨"x", none⟩ ∈ programLandings c.manifest body := by
  obtain ⟨m, c, p, unbound⟩ := lateFlow_passes
  have list : compileList "" {} lateFlow = .ok (m.done, c) := compileList_ok_iff.mpr ⟨m, p, rfl⟩
  exact ⟨_, compile_ok_iff.mpr ⟨_, _, list, rfl⟩, _, _, list, rfl, unbound⟩

theorem lateFlow_lands_iff : ∃ program, compile "" lateFlow = .ok program ∧
    ∃ body c, compileList "" {} lateFlow = .ok (body, c) ∧
      program = ⟨printScript (script c.manifest body), c.manifest⟩ ∧
      bodyKeys body = stepKeys lateFlow ∧
      ((∀ l ∈ programLandings c.manifest body,
          l.binder = some (.output ((stepKeys lateFlow).idxOf (some l.key)))) ↔
        ∀ key, Settled key lateFlow) := by
  obtain ⟨m, c, p, _⟩ := lateFlow_passes
  have compiled := compile_ok_iff.mpr ⟨_, _, compileList_ok_iff.mpr ⟨m, p, rfl⟩, rfl⟩
  exact ⟨_, compiled, assignments_land_iff compiled⟩

end StepFlow.Compile
