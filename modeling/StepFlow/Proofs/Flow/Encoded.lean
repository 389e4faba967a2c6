import StepFlow.Proofs.Flow.Shape
import StepFlow.Proofs.Json.Restored
import StepFlow.Proofs.Json.Printed

/-!
Flows are decoded from what they are encoded to. The members of a record are put into its fields one
after the other, and when all have been put the record is complete: so it is for inputs and outputs,
and for the content of each kind of node. The content of a node follows its tag, which is none of
its fields. Nothing that is written holds a double.
-/
namespace StepFlow.Flow
open Json

section

theorem source_restored (s : Source) : Source.decoder.Restores Source.encode s := by
  cases s <;> rfl

theorem valueType_restored (t : ValueType) : ValueType.decoder.Restores ValueType.encode t := by
  cases t <;> rfl

theorem comparison_restored (c : Comparison) :
    Comparison.decoder.Restores Comparison.encode c := by
  cases c <;> rfl

theorem policy_restored (p : ErrorPolicy) : ErrorPolicy.decoder.Restores ErrorPolicy.encode p := by
  cases p <;> rfl

theorem input_restored (a : InputArg) : InputArg.decoder.Restores InputArg.encode a := by
  obtain ⟨key, source, type, value, name⟩ := a
  have put : ∀ ms, InputArg.record.putMembers InputArg.Partial.slot {} (("key", .str key) ::
      ("srcType", source.encode) :: ("type", type.encode) :: ("value", .str value) :: ms) =
      InputArg.record.putMembers InputArg.Partial.slot
        ⟨some key, some source, some type, some value, none⟩ ms := by
    intro ms
    rw [putMembers_known rfl (put_once "key" (string_restored key)),
      putMembers_known rfl (put_once "srcType" (source_restored source)),
      putMembers_known rfl (put_once "type" (valueType_restored type)),
      putMembers_known rfl (put_once "value" (string_restored value))]
  cases name with
  | none =>
    simp only [Decoder.Restores, InputArg.decoder, InputArg.encode, Record.decoder, Json.optional,
      List.cons_append, List.nil_append, put]
    rfl
  | some name =>
    simp only [Decoder.Restores, InputArg.decoder, InputArg.encode, Record.decoder, Json.optional,
      List.cons_append, List.nil_append, put]
    rfl

theorem field_restored (f : OutputField) : OutputField.decoder.Restores OutputField.encode f := by
  obtain ⟨key, type⟩ := f
  have put : OutputField.record.putMembers OutputField.Partial.slot {}
      [("key", .str key), ("type", type.encode)] = .ok ⟨some key, some type⟩ := by
    rw [putMembers_known rfl (put_once "key" (string_restored key)),
      putMembers_known rfl (put_once "type" (valueType_restored type))]
    rfl
  simp only [Decoder.Restores, OutputField.decoder, OutputField.encode, Record.decoder, put]
  rfl

theorem raw_put {p p' : RawShape.Partial} {name : String} {j : Json} {ms : List (String × Json)}
    (other : name ≠ "child") (put : (p.slot name).put p j = .ok p') :
    RawShape.decodeMembers p ((name, j) :: ms) = RawShape.decodeMembers p' ms := by
  rw [RawShape.decodeMembers, if_neg other, put]
  rfl

def RawShape.filled : RawShape → RawShape.Partial
  | .mk type children child => ⟨some type, children.map some, child.map some⟩

theorem filled_finish (raw : RawShape) : raw.filled.finish = raw := by
  obtain ⟨type, children, child⟩ := raw
  cases children <;> cases child <;> rfl

theorem child_put {p : RawShape.Partial} {child raw : RawShape} (free : p.child = none)
    (decoded : RawShape.decode (.obj raw.members) = .ok child) :
    RawShape.decodeMembers p [("child", .obj raw.members)] =
      .ok { p with child := some (some child) } := by
  simp [RawShape.decodeMembers, RawShape.decodeChild, free, decoded, bind, Except.bind, pure,
    Except.pure]

theorem raw_restored : ∀ raw : RawShape, RawShape.decodeMembers {} raw.members = .ok raw.filled
  | .mk type children child => by
    have typed : ∀ ms, RawShape.decodeMembers {} (("type", type.encode) :: ms) =
        RawShape.decodeMembers { type := some type } ms := fun ms =>
      raw_put (by decide) (put_once "type" (valueType_restored type))
    have parts : ∀ ms, RawShape.decodeMembers {} ([("type", type.encode)] ++
        Json.optional "children" (fun fields => .arr (fields.map OutputField.encode)) children ++
        ms) = RawShape.decodeMembers ⟨some type, children.map some, none⟩ ms := by
      intro ms
      cases children with
      | none => exact typed ms
      | some fields =>
        have listed : (Decoder.option (.list OutputField.decoder)).ofJson
            (.arr (fields.map OutputField.encode)) = .ok (some fields) :=
          option_some (by simp) (list_restored fun f _ => field_restored f)
        exact (typed _).trans (raw_put (by decide) (put_once "children" listed))
    cases child with
    | none =>
      rw [RawShape.members, parts, RawShape.decodeMembers]
      rfl
    | some child =>
      have inner : RawShape.decode (.obj child.members) = .ok child := by
        rw [RawShape.decode, raw_restored child]
        exact congrArg Except.ok (filled_finish child)
      rw [RawShape.members, parts, child_put rfl inner]
      rfl

/-- The members of a raw shape are none of an output's own. -/
theorem raw_others : ∀ (raw : RawShape), ∀ m ∈ raw.members,
    OutputArg.record.fields.contains m.1 = false
  | .mk type children child => by
    intro m member
    cases children <;> cases child <;>
      simp [RawShape.members, Json.optional] at member <;>
      (rcases member with rfl | rfl | rfl) <;> rfl

theorem output_restored {o : OutputArg} (bounded : o.shape.Bounded) :
    OutputArg.decoder.Restores OutputArg.encode o := by
  obtain ⟨key, shape⟩ := o
  have others := raw_others shape.toRaw
  have put : OutputArg.record.putMembers OutputArg.slot none
      (("key", .str key) :: shape.toRaw.members) = .ok (some key) := by
    rw [putMembers_known rfl (put_once "key" (string_restored key)), putMembers_unknown others]
  have kept : (("key", Json.str key) :: shape.toRaw.members).filter
      (fun m => !OutputArg.record.fields.contains m.1) = shape.toRaw.members := by
    rw [List.filter_cons_of_neg (by simp; decide)]
    exact List.filter_eq_self.mpr fun m member => by rw [others m member]; rfl
  simp only [Decoder.Restores, OutputArg.decoder, OutputArg.encode, Record.flatDecoder, put, kept,
    OutputArg.finish, raw_restored, filled_finish, check_toRaw bounded, bind, Except.bind]
  rfl

variable {known : List String} {p p' : Node.Fields} {name : String} {j : Json}
  {ms : List (String × Json)} {kind : Kind} {node : Node}

theorem field_put (member : known.contains name = true) (other : name ≠ "tasks")
    (put : (p.slot name).put p j = .ok p') :
    Node.decodeMembers known p ((name, j) :: ms) = Node.decodeMembers known p' ms := by
  simp only [Node.decodeMembers, member, Bool.not_true, Bool.false_eq_true, if_false, if_neg other,
    put]
  rfl

theorem body_put {js : List Json} {nodes : List Node} (member : known.contains "tasks" = true)
    (free : p.body = none) (decoded : Node.decodeNodes js = .ok nodes) :
    Node.decodeMembers known p (("tasks", .arr js) :: ms) =
      Node.decodeMembers known { p with body := some nodes } ms := by
  simp only [Node.decodeMembers, member, Bool.not_true, Bool.false_eq_true, if_false, if_true, free,
    Option.isSome_none, Node.decodeBody, decoded]
  rfl

theorem output_put {output : Option OutputArg} (member : known.contains "output" = true)
    (free : p.output = none) (bounded : OutputBounded output) :
    Node.decodeMembers known p (Json.optional "output" OutputArg.encode output ++ ms) =
      Node.decodeMembers known { p with output := output.map some } ms := by
  cases output with
  | none =>
    have same : { p with output := Option.map some (none : Option OutputArg) } = p := by
      rw [Option.map_none, ← free]
    rw [same]
    rfl
  | some o =>
    refine field_put member (by decide) ?_
    have decoded : (Decoder.option OutputArg.decoder).ofJson o.encode = .ok (some o) :=
      option_some (by simp [OutputArg.encode]) (output_restored (bounded o rfl))
    have slot : p.slot "output" = once "output" p.output (.option OutputArg.decoder)
        fun a => { p with output := some a } := rfl
    rw [slot, free]
    exact put_once "output" decoded

theorem output_last {output : Option OutputArg} (member : known.contains "output" = true)
    (free : p.output = none) (bounded : OutputBounded output) :
    Node.decodeMembers known p (Json.optional "output" OutputArg.encode output) =
      .ok { p with output := output.map some } := by
  rw [← List.append_nil (Json.optional "output" OutputArg.encode output),
    output_put member free bounded, Node.decodeMembers]

/-- A node is written as its kind and the members that its content is decoded from. -/
structure Restored (node : Node) (kind : Kind) (ms : List (String × Json)) : Prop where
  encoded : node.encode = .obj ((Kind.tagging.tag, .str kind.wireName) :: ms)
  others : ∀ m ∈ ms, m.1 ≠ Kind.tagging.tag
  decoded : Node.decodeContent kind (.obj ms) = .ok node

theorem inputs_restored (inputs : List InputArg) :
    (Decoder.list InputArg.decoder).Restores Node.encodeInputs inputs :=
  list_restored fun a _ => input_restored a

theorem code_restored {s : CodeStep} (bounded : OutputBounded s.output) :
    ∃ ms, Restored (.code s) .code ms := by
  refine ⟨_, rfl, ?_, ?_⟩
  · cases s.output <;> simp [Json.optional, Kind.tagging]
  · simp only [Node.decodeContent, List.append_eq, List.cons_append, List.nil_append]
    rw [field_put rfl (by decide) (put_once "id" (string_restored s.id)),
      field_put rfl (by decide) (put_once "name" (string_restored s.name)),
      field_put rfl (by decide) (put_once "code" (string_restored s.source)),
      field_put rfl (by decide) (put_once "errorHandling" (policy_restored s.policy)),
      field_put rfl (by decide) (put_once "inputs" (inputs_restored s.inputs)),
      output_last rfl rfl bounded]
    simp only [bind, Except.bind, Node.Fields.finish, Record.require, Option.getD_some,
      join_map_some]
    rfl

theorem component_restored {s : ComponentStep} (bounded : OutputBounded s.output) :
    ∃ ms, Restored (.component s) .component ms := by
  refine ⟨_, rfl, ?_, ?_⟩
  · cases s.output <;> simp [Json.optional, Kind.tagging]
  · simp only [Node.decodeContent, List.append_eq, List.cons_append, List.nil_append]
    rw [field_put rfl (by decide) (put_once "id" (string_restored s.id)),
      field_put rfl (by decide) (put_once "name" (string_restored s.name)),
      field_put rfl (by decide) (put_once "group" (string_restored s.group)),
      field_put rfl (by decide) (put_once "func" (string_restored s.function)),
      field_put rfl (by decide) (put_once "version" (string_restored s.version)),
      field_put rfl (by decide) (put_once "errorHandling" (policy_restored s.policy)),
      field_put rfl (by decide) (put_once "inputs" (inputs_restored s.inputs)),
      output_last rfl rfl bounded]
    simp only [bind, Except.bind, Node.Fields.finish, Record.require, Option.getD_some,
      join_map_some]
    rfl

def conditionFields (c : Condition) (body : List Node) : Node.Fields where
  id := some c.id
  leftSource := some c.left.source
  leftValue := some c.left.value
  comparison := some c.comparison
  rightSource := some c.right.source
  rightValue := some c.right.value
  body := some body

theorem condition_put (c : Condition) {body : List Node}
    (decoded : Node.decodeNodes (Node.encodeNodes body) = .ok body) :
    Node.decodeMembers Kind.conditionRecord.fields {} (Node.conditionMembers c ++
      [("tasks", .arr (Node.encodeNodes body))]) = .ok (conditionFields c body) := by
  simp only [Node.conditionMembers, List.cons_append, List.nil_append]
  rw [field_put rfl (by decide) (put_once "id" (string_restored c.id)),
    field_put rfl (by decide) (put_once "leftSrcType" (source_restored c.left.source)),
    field_put rfl (by decide) (put_once "leftValue" (string_restored c.left.value)),
    field_put rfl (by decide) (put_once "operator" (comparison_restored c.comparison)),
    field_put rfl (by decide) (put_once "rightSrcType" (source_restored c.right.source)),
    field_put rfl (by decide) (put_once "rightValue" (string_restored c.right.value)),
    body_put rfl rfl decoded, Node.decodeMembers]
  rfl

theorem ifThen_restored (c : Condition) {body : List Node}
    (decoded : Node.decodeNodes (Node.encodeNodes body) = .ok body) :
    ∃ ms, Restored (.ifThen c body) .ifThen ms := by
  refine ⟨_, rfl, ?_, ?_⟩
  · simp [Node.conditionMembers, Kind.tagging]
  · rw [Node.decodeContent]
    exact congrArg (· >>= fun p => p.finish .ifThen .object) (condition_put c decoded)

theorem elseIf_restored (c : Condition) {body : List Node}
    (decoded : Node.decodeNodes (Node.encodeNodes body) = .ok body) :
    ∃ ms, Restored (.elseIf c body) .elseIf ms := by
  refine ⟨_, rfl, ?_, ?_⟩
  · simp [Node.conditionMembers, Kind.tagging]
  · rw [Node.decodeContent]
    exact congrArg (· >>= fun p => p.finish .elseIf .object) (condition_put c decoded)

theorem otherwise_restored (id : String) {body : List Node}
    (decoded : Node.decodeNodes (Node.encodeNodes body) = .ok body) :
    ∃ ms, Restored (.otherwise id body) .otherwise ms := by
  refine ⟨_, rfl, ?_, ?_⟩
  · simp [Kind.tagging]
  · rw [Node.decodeContent, field_put rfl (by decide) (put_once "id" (string_restored id)),
      body_put rfl rfl decoded, Node.decodeMembers]
    rfl

theorem forEach_restored {l : Loop} (bounded : OutputBounded l.binding) {body : List Node}
    (decoded : Node.decodeNodes (Node.encodeNodes body) = .ok body) :
    ∃ ms, Restored (.forEach l body) .forEach ms := by
  refine ⟨_, rfl, ?_, ?_⟩
  · cases l.binding <;> simp [Json.optional, Kind.tagging]
  · simp only [Node.decodeContent, List.append_eq, List.cons_append, List.nil_append]
    rw [field_put rfl (by decide) (put_once "id" (string_restored l.id)),
      field_put rfl (by decide) (put_once "srcType" (source_restored l.items.source)),
      field_put rfl (by decide) (put_once "items" (string_restored l.items.value)),
      output_put rfl rfl bounded, body_put rfl rfl decoded, Node.decodeMembers]
    simp only [bind, Except.bind, Node.Fields.finish, Record.require, Option.getD_some,
      join_map_some]
    rfl

theorem kindOf_wireName (kind : Kind) : Kind.tagging.kindOf (.str kind.wireName) = .ok kind := by
  cases kind <;> rfl

theorem tag_unknown (kind : Kind) : kind.record.fields.contains Kind.tagging.tag = false := by
  cases kind <;> rfl

theorem restored_decode (restored : Restored node kind ms) :
    Node.decode node.encode = .ok node := by
  obtain ⟨encoded, others, decoded⟩ := restored
  rw [Node.decodeContent] at decoded
  have found : Kind.tagging.find none ((Kind.tagging.tag, .str kind.wireName) :: ms) =
      .ok kind := by
    rw [Tagging.find, if_pos rfl]
    simp only [kindOf_wireName, bind, Except.bind]
    exact find_others others
  rw [encoded, Node.decode, found]
  simp only [bind, Except.bind, Node.decodeMembers, tag_unknown, Bool.not_false, if_true]
  exact decoded

-- by recursion over the node: a body is decoded before the node around it is complete
mutual

theorem node_restored : ∀ node : Node, node.Bounded → ∃ kind ms, Restored node kind ms
  | .code _, bounded => ⟨.code, code_restored bounded⟩
  | .component _, bounded => ⟨.component, component_restored bounded⟩
  | .ifThen c body, bounded => ⟨.ifThen, ifThen_restored c (nodes_restored body bounded)⟩
  | .elseIf c body, bounded => ⟨.elseIf, elseIf_restored c (nodes_restored body bounded)⟩
  | .otherwise id body, bounded =>
    ⟨.otherwise, otherwise_restored id (nodes_restored body bounded)⟩
  | .forEach _ body, bounded =>
    ⟨.forEach, forEach_restored bounded.1 (nodes_restored body bounded.2)⟩

theorem nodes_restored : ∀ nodes : List Node, NodesBounded nodes →
    Node.decodeNodes (Node.encodeNodes nodes) = .ok nodes
  | [], _ => rfl
  | node :: nodes, bounded => by
    obtain ⟨kind, ms, restored⟩ := node_restored node bounded.1
    rw [Node.encodeNodes, Node.decodeNodes, restored_decode restored,
      nodes_restored nodes bounded.2]
    rfl

end

theorem exact_map {α : Type} {encode : α → Json} (exact : ∀ a, (encode a).Exact) (as : List α) :
    (Json.arr (as.map encode)).Exact := by
  rw [Json.Exact, exactItems_iff]
  intro j member
  obtain ⟨a, _, rfl⟩ := List.mem_map.mp member
  exact exact a

theorem exact_optional {α : Type} {encode : α → Json} (exact : ∀ a, (encode a).Exact)
    (a : Option α) : ∀ m ∈ Json.optional name encode a, m.2.Exact := by
  cases a with
  | none => simp [Json.optional]
  | some a => simpa [Json.optional] using exact a

theorem text_exact (text : String) : (Json.str text).Exact := trivial

theorem input_exact (a : InputArg) : a.encode.Exact := by
  rw [InputArg.encode, Json.Exact, exactMembers_iff]
  simp only [List.cons_append, List.nil_append, List.forall_mem_cons]
  exact ⟨trivial, trivial, trivial, trivial, exact_optional text_exact a.name⟩

theorem field_exact (f : OutputField) : f.encode.Exact := ⟨trivial, trivial, trivial⟩

theorem raw_exact : ∀ raw : RawShape, ∀ m ∈ raw.members, m.2.Exact
  | .mk type children child => by
    have listed : ∀ m ∈ Json.optional "children" _ children, m.2.Exact :=
      exact_optional (exact_map field_exact) children
    rw [RawShape.members.eq_def]
    intro m member
    rcases List.mem_append.mp member with own | last
    · rcases List.mem_append.mp own with own | own
      · cases List.mem_singleton.mp own
        exact text_exact _
      · exact listed m own
    · cases child with
      | none => exact (List.not_mem_nil last).elim
      | some child =>
        cases List.mem_singleton.mp last
        exact exactMembers_iff.mpr (raw_exact child)

theorem output_exact (o : OutputArg) : o.encode.Exact := by
  rw [OutputArg.encode, Json.Exact, exactMembers_iff, List.forall_mem_cons]
  exact ⟨trivial, raw_exact o.shape.toRaw⟩

theorem inputs_exact (inputs : List InputArg) : (Node.encodeInputs inputs).Exact :=
  exact_map input_exact inputs

mutual

theorem node_exact : ∀ node : Node, node.encode.Exact
  | .code s => by
    rw [Node.encode, Json.Exact, exactMembers_iff]
    simp only [List.cons_append, List.nil_append, List.forall_mem_cons]
    exact ⟨trivial, trivial, trivial, trivial, trivial, inputs_exact s.inputs,
      exact_optional output_exact s.output⟩
  | .component s => by
    rw [Node.encode, Json.Exact, exactMembers_iff]
    simp only [List.cons_append, List.nil_append, List.forall_mem_cons]
    exact ⟨trivial, trivial, trivial, trivial, trivial, trivial, trivial, inputs_exact s.inputs,
      exact_optional output_exact s.output⟩
  | .ifThen _ body =>
    ⟨trivial, trivial, trivial, trivial, trivial, trivial, trivial, nodes_exact body, trivial⟩
  | .elseIf _ body =>
    ⟨trivial, trivial, trivial, trivial, trivial, trivial, trivial, nodes_exact body, trivial⟩
  | .otherwise _ body => ⟨trivial, trivial, nodes_exact body, trivial⟩
  | .forEach l body => by
    rw [Node.encode, Json.Exact, exactMembers_iff]
    simp only [List.cons_append, List.nil_append, List.forall_mem_cons, List.forall_mem_append]
    exact ⟨trivial, trivial, trivial, trivial, exact_optional output_exact l.binding,
      nodes_exact body, fun _ member => (List.not_mem_nil member).elim⟩

theorem nodes_exact : ∀ nodes : List Node, ExactItems (Node.encodeNodes nodes)
  | [] => trivial
  | node :: nodes => ⟨node_exact node, nodes_exact nodes⟩

end

end

end StepFlow.Flow
