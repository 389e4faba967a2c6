import StepFlow.Proofs.Compile.Pass

/-!
Which flows compile, and what the others are refused for. A flow is well formed when every node is
valid and stands where it may, whatever list it stands in. The compiler checks a node in several
places and a loop after its body, so it is the first offence in its own order that it reports; but
it is an offence of some node, and the error names that node.
-/
namespace StepFlow.Compile
open StepFlow.Flow Script

/-- The nodes at any depth, each with the sibling before it; `prev` stands before the list. -/
def places (prev : Option Node) : List Node → List (Option Node × Node)
  | [] => []
  | node :: nodes => (prev, node) :: places none node.body ++ places (some node) nodes
termination_by nodes => sizeOf nodes
decreasing_by
  all_goals first | exact inner_size node nodes | exact rest_size node nodes

def Node.isOpen : Node → Bool
  | .ifThen .. => true
  | .elseIf .. => true
  | _ => false

def Node.isLink : Node → Bool
  | .elseIf .. => true
  | .otherwise .. => true
  | _ => false

def Follows (prev : Option Node) (node : Node) : Prop :=
  Node.isLink node = true → ∃ sibling, prev = some sibling ∧ Node.isOpen sibling = true

def WellFormed (nodes : List Node) : Prop :=
  ∀ prev node, (prev, node) ∈ places none nodes → Follows prev node ∧ Node.Valid node

/-- A node that breaks a rule, and the error that says which. -/
inductive Offence : Option Node → Node → Error → Prop where
  | order {prev : Option Node} {node : Node} (misplaced : ¬ Follows prev node) :
      Offence prev node (.branchOrder node.id?)
  | defect {prev : Option Node} {node : Node} {e : Error} (d : Defect node e) :
      Offence prev node e

section
variable {node : Node} {e : Error}

theorem condition_label {c : Condition} (condition : Node.condition? node = some c) :
    label c.id = node.id? := by
  cases node <;> cases condition <;> rfl

theorem inputs_valid {i : InputArg} (member : i ∈ Node.inputs node) (valid : Node.Valid node) :
    Resolves i.source i.type i.value := by
  cases node with
  | code s => exact CodeStep.Valid.inputs valid i member
  | component s => exact ComponentStep.Valid.inputs valid i member
  | _ => cases member

theorem output_valid {o : OutputArg} (given : Node.output? node = some o)
    (valid : Node.Valid node) : isIdentifier o.key = true := by
  cases node with
  | code s => exact CodeStep.Valid.output valid o given
  | component s => exact ComponentStep.Valid.output valid o given
  | _ => cases given

theorem condition_valid {c : Condition} (condition : Node.condition? node = some c)
    (valid : Node.Valid node) : Condition.Valid c := by
  cases node with
  | ifThen | elseIf =>
    cases condition
    exact valid
  | _ => cases condition

theorem defect_node (d : Defect node e) : e.node? = node.id? := by
  cases d with
  | input _ _ _ _ refused => exact resolve_error_node refused
  | operand _ c condition _ _ _ refused =>
    rw [resolve_error_node refused, condition_label condition]
  | iterable l body _ refused => exact resolve_error_node refused
  | _ => rfl

theorem defect_invalid (d : Defect node e) : ¬ Node.Valid node := by
  intro valid
  cases d with
  | id s missing => exact CodeStep.Valid.id valid missing
  | group s missing => exact ComponentStep.Valid.group valid missing
  | version s missing => exact ComponentStep.Valid.version valid missing
  | function s bad => simp [ComponentStep.Valid.function valid] at bad
  | input _ i member _ refused => exact resolve_ne_error (inputs_valid member valid) refused
  | output _ o given bad => simp [output_valid given valid] at bad
  | operand _ c condition o side _ refused =>
    have both := condition_valid condition valid
    rcases side with rfl | rfl
    · exact resolve_ne_error both.left refused
    · exact resolve_ne_error both.right refused
  | items l body missing => exact Loop.Valid.items valid missing
  | binding l body missing =>
    obtain ⟨b, given, _⟩ := Loop.Valid.binding valid
    cases missing.symm.trans given
  | bindingKey l body b given bad =>
    obtain ⟨b', given', named⟩ := Loop.Valid.binding valid
    cases given.symm.trans given'
    simp [named] at bad
  | iterable l body _ refused => exact resolve_ne_error (Loop.Valid.iterable valid) refused

theorem offence_node {prev : Option Node} (o : Offence prev node e) : e.node? = node.id? := by
  cases o with
  | order => rfl
  | defect d => exact defect_node d

theorem label_eq_none_iff {id : String} : label id = none ↔ id = "" := by
  simp [label]

theorem label_eq_some {id named : String} (labelled : label id = some named) : named = id := by
  unfold label at labelled
  split at labelled
  · cases labelled
  · exact (Option.some.inj labelled).symm

end

section
variable {groupRoot : String} {c c' : Context} {m m' : Merger} {nodes : List Node}
  {prev : Option Node}

theorem places_cons {node : Node} {place : Option Node × Node} :
    place ∈ places prev (node :: nodes) ↔
      place = (prev, node) ∨ place ∈ places none node.body ∨ place ∈ places (some node) nodes := by
  rw [places]
  simp

theorem follows_any {node : Node} (begins : Node.isLink node = false) : Follows prev node := by
  intro link
  simp [begins] at link

/-- A pass that succeeds has met only nodes that stand where they may and are valid. -/
theorem pass_well_formed (p : Pass groupRoot c m nodes m' c') : ∀ {prev},
    (m.chain ≠ [] → ∃ sibling, prev = some sibling ∧ Node.isOpen sibling = true) →
    ∀ place ∈ places prev nodes, Follows place.1 place.2 ∧ Node.Valid place.2 := by
  induction p with
  | nil =>
    intro prev opened place member
    simp [places] at member
  | ifThen valid inner rest ihBody ih =>
    intro prev opened place member
    rcases places_cons.mp member with rfl | inside | later
    · exact ⟨follows_any rfl, valid⟩
    · exact ihBody (fun closed => absurd rfl closed) place inside
    · exact ih (fun _ => ⟨_, rfl, rfl⟩) place later
  | elseIf valid inner pending rest ihBody ih =>
    intro prev opened place member
    rcases places_cons.mp member with rfl | inside | later
    · exact ⟨fun _ => opened pending, valid⟩
    · exact ihBody (fun closed => absurd rfl closed) place inside
    · exact ih (fun _ => ⟨_, rfl, rfl⟩) place later
  | otherwise inner pending rest ihBody ih =>
    intro prev opened place member
    rcases places_cons.mp member with rfl | inside | later
    · exact ⟨fun _ => opened pending, trivial⟩
    · exact ihBody (fun closed => absurd rfl closed) place inside
    · exact ih (fun closed => absurd rfl closed) place later
  | forEach valid binding inner rest ihBody ih =>
    intro prev opened place member
    rcases places_cons.mp member with rfl | inside | later
    · exact ⟨follows_any rfl, valid⟩
    · exact ihBody (fun closed => absurd rfl closed) place inside
    · exact ih (fun closed => absurd rfl closed) place later
  | component valid rest ih =>
    intro prev opened place member
    rcases places_cons.mp member with rfl | inside | later
    · exact ⟨follows_any rfl, valid⟩
    · simp [Node.body, places] at inside
    · exact ih (fun closed => absurd rfl closed) place later
  | code valid rest ih =>
    intro prev opened place member
    rcases places_cons.mp member with rfl | inside | later
    · exact ⟨follows_any rfl, valid⟩
    · simp [Node.body, places] at inside
    · exact ih (fun closed => absurd rfl closed) place later

def Offends (prev : Option Node) (nodes : List Node) (e : Error) : Prop :=
  ∃ place ∈ places prev nodes, Offence place.1 place.2 e

section
variable {node : Node} {e : Error}

theorem offends_here (o : Offence prev node e) : Offends prev (node :: nodes) e :=
  ⟨_, places_cons.mpr (Or.inl rfl), o⟩

theorem offends_inside (o : Offends none node.body e) : Offends prev (node :: nodes) e := by
  obtain ⟨place, member, o⟩ := o
  exact ⟨place, places_cons.mpr (Or.inr (Or.inl member)), o⟩

theorem offends_later (o : Offends (some node) nodes e) : Offends prev (node :: nodes) e := by
  obtain ⟨place, member, o⟩ := o
  exact ⟨place, places_cons.mpr (Or.inr (Or.inr member)), o⟩

end

def Opened (prev : Option Node) (m : Merger) : Prop :=
  ∀ sibling, prev = some sibling → Node.isOpen sibling = true → m.chain ≠ []

theorem opened_none : Opened none m := by
  intro sibling same
  cases same

theorem opened_pending (pending : m.chain ≠ []) : Opened prev m := fun _ _ _ => pending

theorem opened_shut {node : Node} (shut : Node.isOpen node = false) : Opened (some node) m := by
  intro sibling same isOpen
  cases same
  simp [shut] at isOpen

theorem misplaced_offence {node : Node} (opened : Opened prev m)
    (link : Node.isLink node = true) (closed : m.chain = []) :
    Offence prev node (.branchOrder node.id?) := by
  refine .order ?_
  intro follows
  obtain ⟨sibling, before, isOpen⟩ := follows link
  exact opened sibling before isOpen closed

/-- A pass fails at a node that breaks the rule which the error is about. -/
theorem failure_offends {e : Error} (h : compileSiblings groupRoot c m nodes = .error e)
    (opened : Opened prev m) : Offends prev nodes e := by
  -- on the calls of the compiler: a failure is that of the node itself, of its body, or of a later
  -- sibling
  induction c, m, nodes using compileSiblings.induct generalizing prev with
  | case1 c m =>
    rw [compileSiblings] at h
    cases h
  | case2 c m condition body nodes inner rest =>
    rw [compileSiblings] at h
    rcases bind_eq_error.mp h with tested | ⟨test, _, h⟩
    · exact offends_here (.defect (conditionTest_defect rfl tested))
    rcases bind_eq_error.mp h with failed | ⟨⟨mi, ci⟩, _, h⟩
    · exact offends_inside (inner failed opened_none)
    exact offends_later (rest _ _ _ h (opened_pending (List.cons_ne_nil _ _)))
  | case3 c m condition body nodes inner rest =>
    rw [compileSiblings] at h
    rcases bind_eq_error.mp h with tested | ⟨test, _, h⟩
    · exact offends_here (.defect (conditionTest_defect rfl tested))
    rcases bind_eq_error.mp h with failed | ⟨⟨mi, ci⟩, _, h⟩
    · exact offends_inside (inner failed opened_none)
    dsimp only at h
    split at h
    · rename_i ml linked
      obtain ⟨_, rfl⟩ := extend?_eq_some_iff.mp linked
      exact offends_later (rest _ _ h (opened_pending (by simp [Merger.link])))
    · rename_i closed
      cases h
      exact offends_here (misplaced_offence opened rfl (extend?_eq_none_iff.mp closed))
  | case4 c m id body nodes inner rest =>
    rw [compileSiblings] at h
    rcases bind_eq_error.mp h with failed | ⟨⟨mi, ci⟩, _, h⟩
    · exact offends_inside (inner failed opened_none)
    dsimp only at h
    split at h
    · exact offends_later (rest _ _ h (opened_shut rfl))
    · rename_i closed
      cases h
      exact offends_here (misplaced_offence opened rfl (close?_eq_none_iff.mp closed))
  | case5 c m l body nodes inner rest =>
    rw [compileSiblings] at h
    rcases bind_eq_error.mp h with failed | ⟨⟨mi, ci⟩, _, h⟩
    · exact offends_inside (inner failed opened_none)
    rcases bind_eq_error.mp h with looped | ⟨stmt, _, h⟩
    · exact offends_here (.defect (loopStatement_defect looped))
    exact offends_later (rest _ _ h (opened_shut rfl))
  | case6 c m s nodes rest =>
    rw [compileSiblings] at h
    rcases bind_eq_error.mp h with refused | ⟨⟨stmt, ci⟩, _, h⟩
    · exact offends_here (.defect (compileComponent_defect refused))
    exact offends_later (rest _ _ h (opened_shut rfl))
  | case7 c m s nodes rest =>
    rw [compileSiblings] at h
    rcases bind_eq_error.mp h with refused | ⟨⟨stmt, ci⟩, _, h⟩
    · exact offends_here (.defect (compileCode_defect refused))
    exact offends_later (rest _ _ h (opened_shut rfl))

end

theorem compile_error_iff {groupRoot : String} {nodes : List Node} {e : Error} :
    compile groupRoot nodes = .error e ↔ compileSiblings groupRoot {} .empty nodes = .error e := by
  simp only [compile, compileList, bind_eq_error]
  simp [pure, Except.pure]

/-- A flow compiles just when it is well formed, and otherwise the error tells of a node that
breaks the rule it is about. -/
theorem compile_accepts_iff (groupRoot : String) (nodes : List Node) :
    ((∃ program, compile groupRoot nodes = .ok program) ↔ WellFormed nodes) ∧
    ∀ e, compile groupRoot nodes = .error e → ∃ prev node, (prev, node) ∈ places none nodes ∧
      ((¬ Follows prev node ∧ e = .branchOrder node.id?) ∨
        (¬ Node.Valid node ∧ Defect node e)) ∧
      (e.node? = none ↔ node.idText = "") ∧ ∀ id, e.node? = some id → id = node.idText := by
  have named : ∀ e, compile groupRoot nodes = .error e → Offends none nodes e :=
    fun e failed => failure_offends (compile_error_iff.mp failed) opened_none
  refine ⟨⟨?_, ?_⟩, ?_⟩
  · rintro ⟨program, compiled⟩
    obtain ⟨body, c, list, _⟩ := compile_ok_iff.mp compiled
    obtain ⟨m, p, _⟩ := compileList_ok_iff.mp list
    intro prev node member
    exact pass_well_formed p (fun closed => absurd rfl closed) (prev, node) member
  · intro wellFormed
    cases result : compile groupRoot nodes with
    | ok program => exact ⟨program, rfl⟩
    | error e =>
      obtain ⟨⟨prev, node⟩, member, o⟩ := named e result
      obtain ⟨follows, valid⟩ := wellFormed prev node member
      cases o with
      | order misplaced => exact absurd follows misplaced
      | defect d => exact absurd valid (defect_invalid d)
  · intro e failed
    obtain ⟨⟨prev, node⟩, member, o⟩ := named e failed
    have named : e.node? = label node.idText := offence_node o
    refine ⟨prev, node, member, ?_, named ▸ label_eq_none_iff, named ▸ fun _ => label_eq_some⟩
    cases o with
    | order misplaced => exact Or.inl ⟨misplaced, rfl⟩
    | defect d => exact Or.inr ⟨defect_invalid d, d⟩

end StepFlow.Compile
