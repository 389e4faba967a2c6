import StepFlow.Proofs.Compile.Emission

/-!
Successful passes over siblings as a relation, with one constructor for each kind of node. A pass
keeps two things apart: the context, which goes on through the bodies, and the merger, which each
body begins afresh. `pass_iff` ties the relation to the compiler, so that what holds of every
compiled list is proved by induction on its pass.
-/
namespace StepFlow.Compile
open StepFlow.Flow Script

def Merger.link (m : Merger) (l : Link) : Merger := ⟨m.emitted, m.chain ++ [l]⟩

def Merger.done (m : Merger) : List Stmt := m.flush.emitted

theorem extend?_eq_some_iff {m m' : Merger} {test : Expr} {body : List Stmt} :
    m.extend? test body = some m' ↔ m.chain ≠ [] ∧ m' = m.link (.conditional test body) := by
  by_cases closed : m.chain = []
  · simp [Merger.extend?, closed]
  · simp [Merger.extend?, Merger.link, closed, @eq_comm _ m']

theorem extend?_eq_none_iff {m : Merger} {test : Expr} {body : List Stmt} :
    m.extend? test body = none ↔ m.chain = [] := by
  simp [Merger.extend?]

theorem close?_eq_some_iff {m m' : Merger} {body : List Stmt} :
    m.close? body = some m' ↔ m.chain ≠ [] ∧ m' = (m.link (.otherwise body)).flush := by
  by_cases closed : m.chain = []
  · simp [Merger.close?, closed]
  · simp [Merger.close?, Merger.link, closed, @eq_comm _ m']

theorem close?_eq_none_iff {m : Merger} {body : List Stmt} :
    m.close? body = none ↔ m.chain = [] := by
  simp [Merger.close?]

/-- A pass over siblings from one context and merger to another. -/
inductive Pass (groupRoot : String) : Context → Merger → List Node → Merger → Context → Prop where
  | nil (c : Context) (m : Merger) : Pass groupRoot c m [] m c
  | ifThen {c ci c' : Context} {m mi m' : Merger} {condition : Condition} {body nodes : List Node}
      (valid : Condition.Valid condition) (inner : Pass groupRoot c .empty body mi ci)
      (rest : Pass groupRoot ci (m.open (Condition.test condition) mi.done) nodes m' c') :
      Pass groupRoot c m (.ifThen condition body :: nodes) m' c'
  | elseIf {c ci c' : Context} {m mi m' : Merger} {condition : Condition} {body nodes : List Node}
      (valid : Condition.Valid condition) (inner : Pass groupRoot c .empty body mi ci)
      (pending : m.chain ≠ [])
      (rest : Pass groupRoot ci (m.link (.conditional (Condition.test condition) mi.done)) nodes
        m' c') :
      Pass groupRoot c m (.elseIf condition body :: nodes) m' c'
  | otherwise {c ci c' : Context} {m mi m' : Merger} {id : String} {body nodes : List Node}
      (inner : Pass groupRoot c .empty body mi ci) (pending : m.chain ≠ [])
      (rest : Pass groupRoot ci (m.link (.otherwise mi.done)).flush nodes m' c') :
      Pass groupRoot c m (.otherwise id body :: nodes) m' c'
  | forEach {c ci c' : Context} {m mi m' : Merger} {l : Loop} {body nodes : List Node}
      {b : OutputArg} (valid : Loop.Valid l) (binding : l.binding = some b)
      (inner : Pass groupRoot c .empty body mi ci)
      (rest : Pass groupRoot ci (m.push (.forOf b.key (Loop.iterable l) mi.done)) nodes m' c') :
      Pass groupRoot c m (.forEach l body :: nodes) m' c'
  | component {c c' : Context} {m m' : Merger} {s : ComponentStep} {nodes : List Node}
      (valid : ComponentStep.Valid s)
      (rest : Pass groupRoot ((c.withGroup groupRoot s).afterStep (ComponentStep.call s))
        (m.push ((ComponentStep.call s).statement c.declared (ComponentStep.target s))) nodes
        m' c') :
      Pass groupRoot c m (.component s :: nodes) m' c'
  | code {c c' : Context} {m m' : Merger} {s : CodeStep} {nodes : List Node}
      (valid : CodeStep.Valid s)
      (rest : Pass groupRoot ((c.withCode s).afterStep (CodeStep.call s))
        (m.push ((CodeStep.call s).statement c.declared (CodeStep.target s))) nodes m' c') :
      Pass groupRoot c m (.code s :: nodes) m' c'

variable {groupRoot : String} {c c' : Context} {m m' : Merger} {nodes : List Node}

theorem pass_compiles (p : Pass groupRoot c m nodes m' c') :
    compileSiblings groupRoot c m nodes = .ok (m', c') := by
  induction p with
  | nil => simp [compileSiblings]
  | ifThen valid _ _ inner rest =>
    rw [compileSiblings]
    exact bind_eq_ok.mpr ⟨_, conditionTest_ok_iff.mpr ⟨valid, rfl⟩,
      bind_eq_ok.mpr ⟨_, inner, rest⟩⟩
  | elseIf valid _ pending _ inner rest =>
    rw [compileSiblings]
    refine bind_eq_ok.mpr ⟨_, conditionTest_ok_iff.mpr ⟨valid, rfl⟩,
      bind_eq_ok.mpr ⟨_, inner, ?_⟩⟩
    dsimp only
    rw [← Merger.done, extend?_eq_some_iff.mpr ⟨pending, rfl⟩]
    exact rest
  | otherwise _ pending _ inner rest =>
    rw [compileSiblings]
    refine bind_eq_ok.mpr ⟨_, inner, ?_⟩
    dsimp only
    rw [← Merger.done, close?_eq_some_iff.mpr ⟨pending, rfl⟩]
    exact rest
  | forEach valid binding _ _ inner rest =>
    rw [compileSiblings]
    exact bind_eq_ok.mpr ⟨_, inner,
      bind_eq_ok.mpr ⟨_, loopStatement_ok_iff.mpr ⟨valid, _, binding, rfl⟩, rest⟩⟩
  | component valid _ rest =>
    rw [compileSiblings]
    exact bind_eq_ok.mpr ⟨_, compileComponent_ok valid, rest⟩
  | code valid _ rest =>
    rw [compileSiblings]
    exact bind_eq_ok.mpr ⟨_, compileCode_ok valid, rest⟩

theorem compiles_pass (h : compileSiblings groupRoot c m nodes = .ok (m', c')) :
    Pass groupRoot c m nodes m' c' := by
  induction c, m, nodes using compileSiblings.induct generalizing m' c' with
  | case1 c m =>
    rw [compileSiblings] at h
    cases h
    exact .nil c m
  | case2 c m condition body nodes inner rest =>
    rw [compileSiblings] at h
    obtain ⟨test, tested, h⟩ := bind_eq_ok.mp h
    obtain ⟨⟨mi, ci⟩, passed, h⟩ := bind_eq_ok.mp h
    obtain ⟨valid, rfl⟩ := conditionTest_ok_iff.mp tested
    exact .ifThen valid (inner passed) (rest _ _ _ h)
  | case3 c m condition body nodes inner rest =>
    rw [compileSiblings] at h
    obtain ⟨test, tested, h⟩ := bind_eq_ok.mp h
    obtain ⟨⟨mi, ci⟩, passed, h⟩ := bind_eq_ok.mp h
    obtain ⟨valid, rfl⟩ := conditionTest_ok_iff.mp tested
    dsimp only at h
    split at h
    · rename_i ml linked
      obtain ⟨pending, rfl⟩ := extend?_eq_some_iff.mp linked
      exact .elseIf valid (inner passed) pending (rest _ _ h)
    · contradiction
  | case4 c m id body nodes inner rest =>
    rw [compileSiblings] at h
    obtain ⟨⟨mi, ci⟩, passed, h⟩ := bind_eq_ok.mp h
    dsimp only at h
    split at h
    · rename_i ml closed
      obtain ⟨pending, rfl⟩ := close?_eq_some_iff.mp closed
      exact .otherwise (inner passed) pending (rest _ _ h)
    · contradiction
  | case5 c m l body nodes inner rest =>
    rw [compileSiblings] at h
    obtain ⟨⟨mi, ci⟩, passed, h⟩ := bind_eq_ok.mp h
    obtain ⟨stmt, looped, h⟩ := bind_eq_ok.mp h
    obtain ⟨valid, b, binding, rfl⟩ := loopStatement_ok_iff.mp looped
    exact .forEach valid binding (inner passed) (rest _ _ h)
  | case6 c m s nodes rest =>
    rw [compileSiblings] at h
    obtain ⟨⟨stmt, ci⟩, compiled, h⟩ := bind_eq_ok.mp h
    have valid := compileComponent_valid compiled
    cases (compileComponent_ok valid).symm.trans compiled
    exact .component valid (rest _ _ h)
  | case7 c m s nodes rest =>
    rw [compileSiblings] at h
    obtain ⟨⟨stmt, ci⟩, compiled, h⟩ := bind_eq_ok.mp h
    have valid := compileCode_valid compiled
    cases (compileCode_ok valid).symm.trans compiled
    exact .code valid (rest _ _ h)

/-- The compiler succeeds just where there is a pass. -/
theorem pass_iff : compileSiblings groupRoot c m nodes = .ok (m', c') ↔
    Pass groupRoot c m nodes m' c' := ⟨compiles_pass, pass_compiles⟩

theorem compileList_ok_iff {body : List Stmt} :
    compileList groupRoot c nodes = .ok (body, c') ↔
      ∃ m, Pass groupRoot c .empty nodes m c' ∧ body = m.done := by
  simp only [compileList, bind_eq_ok, pure_eq_ok, Prod.exists, pass_iff]
  constructor
  · rintro ⟨m, ci, passed, h⟩
    cases h
    exact ⟨m, passed, rfl⟩
  · rintro ⟨m, passed, rfl⟩
    exact ⟨m, c', passed, rfl⟩

theorem compile_ok_iff {program : Program} :
    compile groupRoot nodes = .ok program ↔
      ∃ body c, compileList groupRoot {} nodes = .ok (body, c) ∧
        program = ⟨printScript (script c.manifest body), c.manifest⟩ := by
  simp only [compile, bind_eq_ok, pure_eq_ok]
  constructor
  · rintro ⟨⟨body, c⟩, compiled, rfl⟩
    exact ⟨body, c, compiled, rfl⟩
  · rintro ⟨body, c, compiled, rfl⟩
    exact ⟨_, compiled, rfl⟩

end StepFlow.Compile
