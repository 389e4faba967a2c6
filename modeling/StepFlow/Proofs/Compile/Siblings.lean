import StepFlow.Proofs.Compile.Acceptance

/-!
Compilation of a list of siblings in parts. The merger that one part leaves may hold an open chain,
and the next part would go on with it if it began with a link of that chain. Any other node flushes
the chain first; from there on the statements emitted so far are only carried along, so that the
next part compiles as it does with an empty merger.
-/
namespace StepFlow.Compile
open StepFlow.Flow Script

/-- The merger as it is when other statements have been emitted before its own. -/
def Merger.behind (m : Merger) (done : List Stmt) : Merger := ⟨done ++ m.emitted, m.chain⟩

section
variable {m : Merger} {done body : List Stmt} {stmt : Stmt} {test : Expr}

theorem flush_flush : m.flush.flush = m.flush := by
  simp [Merger.flush, nest]

theorem flush_behind : (m.behind done).flush = m.flush.behind done := by
  simp [Merger.flush, Merger.behind]

theorem flush_eq_behind : m.flush = Merger.empty.behind m.flush.emitted := by
  simp [Merger.flush, Merger.behind, Merger.empty]

theorem push_behind : (m.behind done).push stmt = (m.push stmt).behind done := by
  simp [Merger.push, Merger.behind, Merger.flush]

theorem open_behind : (m.behind done).open test body = (m.open test body).behind done := by
  simp [Merger.open, Merger.behind, Merger.flush]

theorem extend?_behind :
    (m.behind done).extend? test body = (m.extend? test body).map (Merger.behind · done) := by
  cases chain : m.chain <;> simp [Merger.extend?, Merger.behind, chain]

theorem close?_behind :
    (m.behind done).close? body = (m.close? body).map (Merger.behind · done) := by
  cases chain : m.chain <;> simp [Merger.close?, Merger.behind, Merger.flush, chain]

end

section
variable {groupRoot : String} {c : Context} {m : Merger}

theorem siblings_append (a b : List Node) :
    compileSiblings groupRoot c m (a ++ b) = (do
      let (m, c) ← compileSiblings groupRoot c m a
      compileSiblings groupRoot c m b) := by
  induction c, m, a using compileSiblings.induct with
  | case1 c m => simp [compileSiblings, Except.bind, bind]
  | case2 c m condition body nodes _ ih =>
    simp only [List.cons_append, compileSiblings, ih, bind_assoc]
  | case3 c m condition body nodes _ ih =>
    simp only [List.cons_append, compileSiblings, bind_assoc]
    refine bind_congr fun test => bind_congr fun inner => ?_
    cases extended : m.extend? test inner.1.flush.emitted with
    | none => rfl
    | some m' => exact ih _ _
  | case4 c m id body nodes _ ih =>
    simp only [List.cons_append, compileSiblings, bind_assoc]
    refine bind_congr fun inner => ?_
    cases m.close? inner.1.flush.emitted with
    | none => rfl
    | some m' => exact ih _ _
  | case5 c m loop body nodes _ ih => simp only [List.cons_append, compileSiblings, ih, bind_assoc]
  | case6 c m step nodes ih => simp only [List.cons_append, compileSiblings, ih, bind_assoc]
  | case7 c m step nodes ih => simp only [List.cons_append, compileSiblings, ih, bind_assoc]

theorem siblings_behind (done : List Stmt) (nodes : List Node) :
    compileSiblings groupRoot c (m.behind done) nodes = (do
      let (m, c) ← compileSiblings groupRoot c m nodes
      return (m.behind done, c)) := by
  induction c, m, nodes using compileSiblings.induct with
  | case1 c m => simp [compileSiblings, Except.bind, bind, pure, Except.pure]
  | case2 c m condition body nodes _ ih =>
    simp only [compileSiblings, open_behind, ih, bind_assoc]
  | case3 c m condition body nodes _ ih =>
    simp only [compileSiblings, extend?_behind, bind_assoc]
    refine bind_congr fun test => bind_congr fun inner => ?_
    cases m.extend? test inner.1.flush.emitted with
    | none => rfl
    | some m' => exact ih _ _
  | case4 c m id body nodes _ ih =>
    simp only [compileSiblings, close?_behind, bind_assoc]
    refine bind_congr fun inner => ?_
    cases m.close? inner.1.flush.emitted with
    | none => rfl
    | some m' => exact ih _ _
  | case5 c m loop body nodes _ ih =>
    simp only [compileSiblings, push_behind, ih, bind_assoc]
  | case6 c m step nodes ih => simp only [compileSiblings, push_behind, ih, bind_assoc]
  | case7 c m step nodes ih => simp only [compileSiblings, push_behind, ih, bind_assoc]

/-- A node that begins no link of a chain leaves none open behind it. -/
theorem siblings_flush {node : Node} {nodes : List Node} (begins : Node.isLink node = false) :
    compileSiblings groupRoot c m.flush (node :: nodes) =
      compileSiblings groupRoot c m (node :: nodes) := by
  cases node with
  | elseIf | otherwise => cases begins
  | _ => simp only [compileSiblings, Merger.open, Merger.push, flush_flush]

/-- What a list adds to a merger is what it compiles to by itself. -/
theorem siblings_compileList {nodes : List Node}
    (begins : ∀ node, nodes.head? = some node → Node.isLink node = false) :
    (do
      let (m, c) ← compileSiblings groupRoot c m nodes
      return (m.flush.emitted, c)) = (do
      let (body, c) ← compileList groupRoot c nodes
      return (m.flush.emitted ++ body, c)) := by
  cases nodes with
  | nil =>
    simp [compileSiblings, compileList, Merger.empty, Merger.flush, nest, bind, Except.bind, pure,
      Except.pure]
  | cons node nodes =>
    have alone : compileSiblings groupRoot c (Merger.empty.behind m.flush.emitted) (node :: nodes) =
        _ := siblings_behind m.flush.emitted (node :: nodes)
    rw [← flush_eq_behind, siblings_flush (begins node rfl)] at alone
    simp only [alone, compileList, bind_assoc, pure_bind, flush_behind]
    rfl

/-- Siblings compile in parts, unless the second part goes on with a chain of the first. -/
theorem compileList_append {a b : List Node}
    (begins : ∀ node, b.head? = some node → Node.isLink node = false) :
    compileList groupRoot c (a ++ b) = (do
      let (first, c) ← compileList groupRoot c a
      let (second, c) ← compileList groupRoot c b
      return (first ++ second, c)) := by
  conv => lhs; rw [compileList]
  rw [siblings_append, bind_assoc]
  conv => rhs; rw [compileList]
  simp only [bind_assoc, pure_bind]
  exact bind_congr fun _ => siblings_compileList begins

end

def equalTest : Condition := ⟨"", ⟨.literal, "1"⟩, .eq, ⟨.literal, "1"⟩⟩

def testedStep : Node := .code ⟨"a", "", "A", .stop, [], some ⟨"x", .basic .unknown⟩⟩

/-- A chain that is still open, and an `if` behind it: two statements, and one declaration. -/
theorem open_chain_append :
    (∀ node, [Node.ifThen equalTest [testedStep], .otherwise "" []].head? = some node →
      Node.isLink node = false) ∧
    (compileList "" {} ([.ifThen equalTest [testedStep]] ++
      [.ifThen equalTest [testedStep], .otherwise "" []])).map
        (fun (body, c) => (body.length, c.declared)) = .ok (2, ["x"]) := by
  have begins : ∀ node, [Node.ifThen equalTest [testedStep], .otherwise "" []].head? = some node →
      Node.isLink node = false := by
    rintro node ⟨⟩
    rfl
  refine ⟨begins, ?_⟩
  rw [compileList_append begins]
  simp only [compileList, compileSiblings, testedStep]
  rfl

end StepFlow.Compile
