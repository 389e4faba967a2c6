import StepFlow.Flow.Reader
import StepFlow.Proofs.Compile.Resolution
import StepFlow.Proofs.Flow.Shape
import StepFlow.Proofs.Json.Scanned

/-!
What decoding establishes: the shapes of all outputs in a flow that was read are bounded, however
the flow was written.
-/
namespace StepFlow.Flow
open Json
open Compile (bind_eq_ok pure_eq_ok)

structure FieldsBounded (p : Node.Fields) : Prop where
  output : OutputBounded p.output.join
  body : NodesBounded (p.body.getD [])

section
variable {p p' : Node.Fields} {name : String} {j : Json} {node : Node} {kind : Kind} {form : Form}

theorem fields_fresh : FieldsBounded {} := ⟨(fun _ given => by cases given), trivial⟩

theorem once_put {α σ : Type} {d : Decoder α} {stored : Option α} {store : α → σ} {state state' : σ}
    (put : (once name stored d store).put state j = .ok state') :
    ∃ a, d.ofJson j = .ok a ∧ state' = store a := by
  cases stored with
  | some a => cases put
  | none =>
    simp only [once, Slot.put, Decoder.map] at put
    cases decoded : d.ofJson j with
    | error e =>
      rw [decoded] at put
      cases put
    | ok a =>
      rw [decoded] at put
      cases put
      exact ⟨a, rfl, rfl⟩

theorem output_bounded {o : OutputArg} (decoded : OutputArg.decoder.ofJson j = .ok o) :
    o.shape.Bounded := by
  cases j with
  | obj ms =>
    obtain ⟨key, -, finished⟩ := bind_eq_ok.mp decoded
    obtain ⟨raw, -, checked⟩ := bind_eq_ok.mp finished
    split at checked
    · rename_i shape bounded
      cases checked
      exact check_bounded bounded
    · cases checked
  | _ => cases decoded

theorem option_bounded {output : Option OutputArg}
    (decoded : (Decoder.option OutputArg.decoder).ofJson j = .ok output) :
    OutputBounded output := by
  intro o given
  subst given
  cases j with
  | null => cases decoded
  | obj ms =>
    simp only [Decoder.option] at decoded
    cases inner : OutputArg.decoder.ofJson (.obj ms) with
    | error e =>
      rw [inner] at decoded
      cases decoded
    | ok o' =>
      rw [inner] at decoded
      cases decoded
      exact output_bounded inner
  | _ => cases decoded

theorem slot_put (put : (p.slot name).put p j = .ok p') :
    (p'.output = p.output ∧ p'.body = p.body) ∨
      ∃ output, (Decoder.option OutputArg.decoder).ofJson j = .ok output ∧
        p' = { p with output := some output } := by
  unfold Node.Fields.slot at put
  split at put
  all_goals
    first
      | obtain ⟨a, decoded, rfl⟩ := once_put put
        first
          | exact Or.inr ⟨a, decoded, rfl⟩
          | exact Or.inl ⟨rfl, rfl⟩
      | cases put
        exact Or.inl ⟨rfl, rfl⟩

theorem put_bounded (bounded : FieldsBounded p) (put : (p.slot name).put p j = .ok p') :
    FieldsBounded p' := by
  rcases slot_put put with ⟨output, body⟩ | ⟨output, decoded, rfl⟩
  · exact ⟨output ▸ bounded.output, body ▸ bounded.body⟩
  · exact ⟨option_bounded decoded, bounded.body⟩

theorem body_bounded {body : List Node} (bounded : FieldsBounded p) (nodes : NodesBounded body) :
    FieldsBounded { p with body := some body } := ⟨bounded.output, nodes⟩

theorem finish_bounded (bounded : FieldsBounded p) (finished : p.finish kind form = .ok node) :
    node.Bounded := by
  cases kind with
  | code =>
    obtain ⟨id, -, finished⟩ := bind_eq_ok.mp finished
    obtain ⟨source, -, finished⟩ := bind_eq_ok.mp finished
    cases finished
    exact bounded.output
  | component =>
    obtain ⟨id, -, finished⟩ := bind_eq_ok.mp finished
    obtain ⟨group, -, finished⟩ := bind_eq_ok.mp finished
    obtain ⟨function, -, finished⟩ := bind_eq_ok.mp finished
    obtain ⟨version, -, finished⟩ := bind_eq_ok.mp finished
    cases finished
    exact bounded.output
  | ifThen | elseIf =>
    obtain ⟨condition, -, finished⟩ := bind_eq_ok.mp finished
    cases finished
    exact bounded.body
  | otherwise =>
    cases finished
    exact bounded.body
  | forEach =>
    obtain ⟨source, -, finished⟩ := bind_eq_ok.mp finished
    cases finished
    exact ⟨bounded.output, bounded.body⟩

end

mutual

theorem decode_bounded : ∀ (j : Json) {node : Node}, Node.decode j = .ok node → node.Bounded
  | .obj ms, node, decoded => by
    rw [Node.decode] at decoded
    obtain ⟨kind, -, decoded⟩ := bind_eq_ok.mp decoded
    obtain ⟨p, put, finished⟩ := bind_eq_ok.mp decoded
    exact finish_bounded (members_bounded ms fields_fresh put) finished
  | .arr [], node, decoded => by cases decoded
  | .arr (tag :: js), node, decoded => by
    rw [Node.decode] at decoded
    obtain ⟨kind, -, decoded⟩ := bind_eq_ok.mp decoded
    obtain ⟨p, put, decoded⟩ := bind_eq_ok.mp decoded
    obtain ⟨node', finished, decoded⟩ := bind_eq_ok.mp decoded
    obtain ⟨_, -, same⟩ := bind_eq_ok.mp decoded
    cases same
    exact finish_bounded (elements_bounded js fields_fresh put) finished
  | .null, node, decoded => by cases decoded
  | .bool _, node, decoded => by cases decoded
  | .num _, node, decoded => by cases decoded
  | .str _, node, decoded => by cases decoded

theorem nodeBody_bounded : ∀ (j : Json) {nodes : List Node}, Node.decodeBody j = .ok nodes →
    NodesBounded nodes
  | .arr js, nodes, decoded => nodes_bounded js (by rwa [Node.decodeBody] at decoded)
  | .obj _, nodes, decoded => by cases decoded
  | .null, nodes, decoded => by cases decoded
  | .bool _, nodes, decoded => by cases decoded
  | .num _, nodes, decoded => by cases decoded
  | .str _, nodes, decoded => by cases decoded

theorem nodes_bounded : ∀ (js : List Json) {nodes : List Node}, Node.decodeNodes js = .ok nodes →
    NodesBounded nodes
  | [], nodes, decoded => by
    cases decoded
    trivial
  | j :: js, nodes, decoded => by
    rw [Node.decodeNodes] at decoded
    obtain ⟨node, own, decoded⟩ := bind_eq_ok.mp decoded
    obtain ⟨more, others, same⟩ := bind_eq_ok.mp decoded
    cases same
    exact ⟨decode_bounded j own, nodes_bounded js others⟩

theorem members_bounded : ∀ (ms : List (String × Json)) {known : List String} {p p' : Node.Fields},
    FieldsBounded p → Node.decodeMembers known p ms = .ok p' → FieldsBounded p'
  | [], known, p, p', bounded, decoded => by
    cases decoded
    exact bounded
  | (name, j) :: ms, known, p, p', bounded, decoded => by
    rw [Node.decodeMembers] at decoded
    split at decoded
    · exact members_bounded ms bounded decoded
    split at decoded
    · split at decoded
      · cases decoded
      · obtain ⟨body, own, decoded⟩ := bind_eq_ok.mp decoded
        exact members_bounded ms (body_bounded bounded (nodeBody_bounded j own)) decoded
    · obtain ⟨p, put, decoded⟩ := bind_eq_ok.mp decoded
      exact members_bounded ms (put_bounded bounded put) decoded

theorem elements_bounded : ∀ (js : List Json) {names : List String} {p p' : Node.Fields},
    FieldsBounded p → Node.decodeElements p names js = .ok p' → FieldsBounded p'
  | [], names, p, p', bounded, decoded => by
    cases names <;>
    · cases decoded
      exact bounded
  | j :: js, [], p, p', bounded, decoded => by
    cases decoded
    exact bounded
  | j :: js, name :: names, p, p', bounded, decoded => by
    rw [Node.decodeElements] at decoded
    split at decoded
    · obtain ⟨body, own, decoded⟩ := bind_eq_ok.mp decoded
      exact elements_bounded js (body_bounded bounded (nodeBody_bounded j own)) decoded
    · obtain ⟨p, put, decoded⟩ := bind_eq_ok.mp decoded
      exact elements_bounded js (put_bounded bounded put) decoded

end

section
variable {s s' : List Char} {node : Node} {nodes : List Node}

theorem content_bounded {kind : Kind} {j : Json} (decoded : Node.decodeContent kind j = .ok node) :
    node.Bounded := by
  cases j with
  | obj ms =>
    obtain ⟨p, put, finished⟩ := bind_eq_ok.mp decoded
    exact finish_bounded (members_bounded ms fields_fresh put) finished
  | arr js =>
    obtain ⟨p, put, decoded⟩ := bind_eq_ok.mp decoded
    obtain ⟨node', finished, decoded⟩ := bind_eq_ok.mp decoded
    obtain ⟨_, -, same⟩ := bind_eq_ok.mp decoded
    cases same
    exact finish_bounded (elements_bounded js fields_fresh put) finished
  | _ => cases decoded

theorem scanNode_bounded {room : Nat} (taken : scanNode room s = .ok (node, s')) :
    node.Bounded := by
  obtain ⟨⟨kind, content⟩, between, -, taken⟩ := scan_bind taken
  cases decoded : Node.decodeContent kind content with
  | error e =>
    simp only [decoded] at taken
    cases taken
  | ok node' =>
    simp only [decoded] at taken
    cases taken
    exact content_bounded decoded

theorem nodesBounded_iff : NodesBounded nodes ↔ ∀ node ∈ nodes, node.Bounded := by
  induction nodes with
  | nil => simp [NodesBounded]
  | cons node nodes ih => simp [NodesBounded, ih]

theorem refuseForm_fails {α : Type} {expected : String} {room : Nat} {a : α} :
    Scan.refuseForm expected room s ≠ .ok (a, s') := by
  intro taken
  obtain ⟨c, between, -, taken⟩ := scan_bind taken
  split at taken
  · cases taken
  · cases taken
  · obtain ⟨j, between, -, taken⟩ := scan_bind taken
    cases taken

/-- Whatever text a flow is read from, its outputs are bounded. -/
theorem read_bounded {text : String} (parsed : read text = .ok nodes) : NodesBounded nodes := by
  obtain ⟨⟨nodes', rest⟩, scanned, ended⟩ := bind_eq_ok.mp parsed
  have same : nodes' = nodes := by
    cases whole : endOfText nodes' rest with
    | error fault => simp [whole] at ended
    | ok result =>
      simp only [whole, Except.ok.injEq] at ended
      rw [endOfText] at whole
      split at whole <;> cases whole
      exact ended
  subst same
  obtain ⟨c, between, -, scanned⟩ := scan_bind scanned
  split at scanned
  · exact nodesBounded_iff.mpr (array_each scanNode_bounded scanned)
  · exact (refuseForm_fails scanned).elim

end

end StepFlow.Flow
