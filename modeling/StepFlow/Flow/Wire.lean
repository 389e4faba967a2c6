import StepFlow.Flow.Basic
import StepFlow.Json.Decoder

/-!
The written form of flows. Decoding fills in what a record leaves out; encoding writes every field
but an absent output and an absent display name, so a decoded flow has one written form.
-/
namespace StepFlow.Flow
open Json

def Source.names : List (String × Source) :=
  [("input", .literal), ("output", .priorOutput), ("global", .globalEntry),
    ("keyMapping", .identifier)]

def Source.wireName : Source → String
  | .literal => "input"
  | .priorOutput => "output"
  | .globalEntry => "global"
  | .identifier => "keyMapping"

def ValueType.names : List (String × ValueType) :=
  [("String", .string), ("Number", .number), ("Boolean", .boolean), ("Object", .object),
    ("List", .list), ("Unknown", .unknown)]

def ValueType.wireName : ValueType → String
  | .string => "String"
  | .number => "Number"
  | .boolean => "Boolean"
  | .object => "Object"
  | .list => "List"
  | .unknown => "Unknown"

def Comparison.names : List (String × Comparison) :=
  [(">", .gt), ("<", .lt), (">=", .ge), ("<=", .le), ("==", .eq), ("!=", .ne)]

def Source.decoder : Decoder Source := .variant Source.names none

/-- A name that is not known is the unknown type. -/
def ValueType.decoder : Decoder ValueType := .variant ValueType.names (some .unknown)

def Comparison.decoder : Decoder Comparison := .variant Comparison.names none

/-- A policy by name, or by its number written as a text. -/
def ErrorPolicy.ofName? (name : String) : Option ErrorPolicy :=
  if name = "stop" ∨ name = "0" then some .stop
  else if name = "ignore" ∨ name = "1" then some .ignore
  else if name = "retry" ∨ name = "2" then some .retry
  else none

def ErrorPolicy.decodeName (name : String) : Decoding ErrorPolicy :=
  match ErrorPolicy.ofName? name with
  | some policy => .ok policy
  | none => .error (.rejected ("unknown error policy '" ++ name ++ "'"))

def ErrorPolicy.decode : Json → Decoding ErrorPolicy
  | .str name => decodeName name
  | .num (.int n) =>
    if 0 ≤ n then decodeName (String.ofList (Text.natDigits n.toNat))
    else .error (.noVariant "RawErrorPolicy")
  | _ => .error (.noVariant "RawErrorPolicy")

def ErrorPolicy.decoder : Decoder ErrorPolicy := .buffered ErrorPolicy.decode

def Source.encode (s : Source) : Json := .str s.wireName

def ValueType.encode (t : ValueType) : Json := .str t.wireName

def ErrorPolicy.encode (p : ErrorPolicy) : Json := .str p.wireName

def Comparison.encode (c : Comparison) : Json := .str c.symbol

namespace InputArg

def record : Record := ⟨"InputArg", ["key", "srcType", "type", "value", "name"]⟩

structure Partial where
  key : Option String := none
  source : Option Source := none
  type : Option ValueType := none
  value : Option String := none
  name : Option (Option String) := none

def Partial.slot (p : Partial) : String → Slot Partial
  | "key" => once "key" p.key .string fun a => { p with key := some a }
  | "srcType" => once "srcType" p.source Source.decoder fun a => { p with source := some a }
  | "type" => once "type" p.type ValueType.decoder fun a => { p with type := some a }
  | "value" => once "value" p.value .string fun a => { p with value := some a }
  | "name" => once "name" p.name (.option .string) fun a => { p with name := some a }
  | _ => .unknown

def Partial.finish (form : Form) (p : Partial) : Decoding InputArg := do
  let key ← record.require form "key" p.key
  let source ← record.require form "srcType" p.source
  return ⟨key, source, p.type.getD .unknown, p.value.getD "", p.name.join⟩

def decoder : Decoder InputArg := record.decoder {} Partial.slot Partial.finish

def encode (a : InputArg) : Json :=
  .obj ([("key", .str a.key), ("srcType", a.source.encode), ("type", a.type.encode),
    ("value", .str a.value)] ++ optional "name" .str a.name)

end InputArg

namespace OutputField

def record : Record := ⟨"OutputField", ["key", "type"]⟩

structure Partial where
  key : Option String := none
  type : Option ValueType := none

def Partial.slot (p : Partial) : String → Slot Partial
  | "key" => once "key" p.key .string fun a => { p with key := some a }
  | "type" => once "type" p.type ValueType.decoder fun a => { p with type := some a }
  | _ => .unknown

def Partial.finish (form : Form) (p : Partial) : Decoding OutputField := do
  let key ← record.require form "key" p.key
  return ⟨key, p.type.getD .unknown⟩

def decoder : Decoder OutputField := record.decoder {} Partial.slot Partial.finish

def encode (f : OutputField) : Json := .obj [("key", .str f.key), ("type", f.type.encode)]

end OutputField

/-- A shape as written: parts may be given that its type has no use for. -/
inductive RawShape where
  | mk (type : ValueType) (children : Option (List OutputField)) (child : Option RawShape)
  deriving Repr, Inhabited

namespace RawShape

def record : Record := ⟨"RawShape", ["type", "children", "child"]⟩

structure Partial where
  type : Option ValueType := none
  children : Option (Option (List OutputField)) := none
  child : Option (Option RawShape) := none

def Partial.finish (p : Partial) : RawShape :=
  .mk (p.type.getD .unknown) p.children.join p.child.join

def Partial.slot (p : Partial) : String → Slot Partial
  | "type" => once "type" p.type ValueType.decoder fun a => { p with type := some a }
  | "children" =>
    once "children" p.children (.option (.list OutputField.decoder))
      fun a => { p with children := some a }
  | _ => .unknown

mutual

def decode : Json → Decoding RawShape
  | .obj ms => do
    let p ← decodeMembers {} ms
    return p.finish
  | .arr js => do
    let p ← decodeElements {} record.fields js
    record.checkLength js.length
    return p.finish
  | j => mismatch j record.expected

def decodeChild : Json → Decoding (Option RawShape)
  | .null => .ok none
  | j => do return some (← decode j)

def decodeMembers (p : Partial) : List (String × Json) → Decoding Partial
  | [] => .ok p
  | (name, j) :: ms => do
    if name = "child" then
      if p.child.isSome then .error (.duplicateField "child")
      else
        let child ← decodeChild j
        decodeMembers { p with child := some child } ms
    else
      let p ← (p.slot name).put p j
      decodeMembers p ms

def decodeElements (p : Partial) : List String → List Json → Decoding Partial
  | name :: names, j :: js => do
    if name = "child" then
      let child ← decodeChild j
      decodeElements { p with child := some child } names js
    else
      let p ← (p.slot name).put p j
      decodeElements p names js
  | _, _ => .ok p

end

end RawShape

structure NestedField where
  key : String
  type : ValueType
  deriving DecidableEq, Repr

def NestedField.message (f : NestedField) : String :=
  "object field '" ++ f.key ++ "' must be a scalar type, found " ++ f.type.wireName

def ValueType.isNested (t : ValueType) : Bool := t == .object || t == .list

def firstNested (fields : List OutputField) : Option NestedField :=
  (fields.find? fun f => f.type.isNested).map fun f => ⟨f.key, f.type⟩

/-- The shape that is meant: of an object only the fields count, of a list only the element. -/
def RawShape.check : RawShape → Except NestedField Shape
  | .mk .object children _ =>
    let fields := children.getD []
    match firstNested fields with
    | some nested => .error nested
    | none => .ok (.object fields)
  | .mk .list _ none => .ok (.list (.basic .unknown))
  | .mk .list _ (some child) =>
    match check child with
    | .ok element => .ok (.list element)
    | .error nested => .error nested
  | .mk type _ _ => .ok (.basic type)

def Shape.toRaw : Shape → RawShape
  | .basic type => .mk type none none
  | .object fields => .mk .object (some fields) none
  | .list element => .mk .list none (some element.toRaw)

def RawShape.members : RawShape → List (String × Json)
  | .mk type children child =>
    [("type", type.encode)] ++
      optional "children" (fun fields => .arr (fields.map OutputField.encode)) children ++
      match child with
      | none => []
      | some raw => [("child", .obj raw.members)]

namespace OutputArg

def record : Record := ⟨"RawOutputArg", ["key"]⟩

def slot (key : Option String) : String → Slot (Option String)
  | "key" => once "key" key .string some
  | _ => .unknown

def finish (key : Option String) (ms : List (String × Json)) : Decoding OutputArg := do
  let raw ← RawShape.decodeMembers {} ms
  match raw.finish.check with
  | .ok shape => return ⟨key.getD "", shape⟩
  | .error nested => .error (.rejected nested.message)

/-- Key and shape stand in one object. -/
def decoder : Decoder OutputArg := record.flatDecoder none slot finish

def encode (o : OutputArg) : Json := .obj (("key", .str o.key) :: o.shape.toRaw.members)

end OutputArg

inductive Kind where
  | code
  | component
  | ifThen
  | elseIf
  | otherwise
  | forEach
  deriving DecidableEq, Repr

namespace Kind

def names : List (String × Kind) :=
  [("code", .code), ("component", .component), ("if", .ifThen), ("elseif", .elseIf),
    ("else", .otherwise), ("forEach", .forEach)]

def wireName : Kind → String
  | code => "code"
  | component => "component"
  | ifThen => "if"
  | elseIf => "elseif"
  | otherwise => "else"
  | forEach => "forEach"

def conditionRecord : Record :=
  ⟨"ConditionNode",
    ["id", "leftSrcType", "leftValue", "operator", "rightSrcType", "rightValue", "tasks"]⟩

def record : Kind → Record
  | code => ⟨"CodeNode", ["id", "name", "code", "errorHandling", "inputs", "output"]⟩
  | component =>
    ⟨"ComponentNode",
      ["id", "name", "group", "func", "version", "errorHandling", "inputs", "output"]⟩
  | ifThen => conditionRecord
  | elseIf => conditionRecord
  | otherwise => ⟨"ElseNode", ["id", "tasks"]⟩
  | forEach => ⟨"ForEachNode", ["id", "srcType", "items", "output", "tasks"]⟩

def tagging : Tagging Kind := ⟨"CommandNode", "type", names⟩

end Kind

namespace Node

structure Fields where
  id : Option String := none
  name : Option String := none
  source : Option String := none
  group : Option String := none
  function : Option String := none
  version : Option String := none
  policy : Option ErrorPolicy := none
  inputs : Option (List InputArg) := none
  output : Option (Option OutputArg) := none
  leftSource : Option Source := none
  leftValue : Option String := none
  comparison : Option Comparison := none
  rightSource : Option Source := none
  rightValue : Option String := none
  itemsSource : Option Source := none
  itemsValue : Option String := none
  body : Option (List Node) := none

def Fields.slot (p : Fields) : String → Slot Fields
  | "id" => once "id" p.id .string fun a => { p with id := some a }
  | "name" => once "name" p.name .string fun a => { p with name := some a }
  | "code" => once "code" p.source .string fun a => { p with source := some a }
  | "group" => once "group" p.group .string fun a => { p with group := some a }
  | "func" => once "func" p.function .string fun a => { p with function := some a }
  | "version" => once "version" p.version .string fun a => { p with version := some a }
  | "errorHandling" =>
    once "errorHandling" p.policy ErrorPolicy.decoder fun a => { p with policy := some a }
  | "inputs" =>
    once "inputs" p.inputs (.list InputArg.decoder) fun a => { p with inputs := some a }
  | "output" =>
    once "output" p.output (.option OutputArg.decoder) fun a => { p with output := some a }
  | "leftSrcType" =>
    once "leftSrcType" p.leftSource Source.decoder fun a => { p with leftSource := some a }
  | "leftValue" => once "leftValue" p.leftValue .string fun a => { p with leftValue := some a }
  | "operator" =>
    once "operator" p.comparison Comparison.decoder fun a => { p with comparison := some a }
  | "rightSrcType" =>
    once "rightSrcType" p.rightSource Source.decoder fun a => { p with rightSource := some a }
  | "rightValue" => once "rightValue" p.rightValue .string fun a => { p with rightValue := some a }
  | "srcType" =>
    once "srcType" p.itemsSource Source.decoder fun a => { p with itemsSource := some a }
  | "items" => once "items" p.itemsValue .string fun a => { p with itemsValue := some a }
  | _ => .unknown

def Fields.condition (p : Fields) (form : Form) : Decoding Condition := do
  let leftSource ← Kind.conditionRecord.require form "leftSrcType" p.leftSource
  let comparison ← Kind.conditionRecord.require form "operator" p.comparison
  let rightSource ← Kind.conditionRecord.require form "rightSrcType" p.rightSource
  return ⟨p.id.getD "", ⟨leftSource, p.leftValue.getD ""⟩, comparison,
    ⟨rightSource, p.rightValue.getD ""⟩⟩

def Fields.finish (p : Fields) (kind : Kind) (form : Form) : Decoding Node := do
  let r := kind.record
  match kind with
  | .code =>
    let id ← r.require form "id" p.id
    let source ← r.require form "code" p.source
    return .code ⟨id, p.name.getD "", source, p.policy.getD .stop, p.inputs.getD [],
      p.output.join⟩
  | .component =>
    let id ← r.require form "id" p.id
    let group ← r.require form "group" p.group
    let function ← r.require form "func" p.function
    let version ← r.require form "version" p.version
    return .component ⟨id, p.name.getD "", group, function, version, p.policy.getD .stop,
      p.inputs.getD [], p.output.join⟩
  | .ifThen => return .ifThen (← p.condition form) (p.body.getD [])
  | .elseIf => return .elseIf (← p.condition form) (p.body.getD [])
  | .otherwise => return .otherwise (p.id.getD "") (p.body.getD [])
  | .forEach =>
    let source ← r.require form "srcType" p.itemsSource
    return .forEach ⟨p.id.getD "", ⟨source, p.itemsValue.getD ""⟩, p.output.join⟩ (p.body.getD [])

mutual

def decode : Json → Decoding Node
  | .obj ms => do
    let kind ← Kind.tagging.find none ms
    let p ← decodeMembers kind.record.fields {} ms
    p.finish kind .object
  | .arr [] => .error (.missingField Kind.tagging.tag)
  | .arr (tag :: js) => do
    let kind ← Kind.tagging.kindOf tag
    let p ← decodeElements {} kind.record.fields js
    let node ← p.finish kind .array
    kind.record.checkLength js.length
    return node
  | j => mismatch j Kind.tagging.expected

def decodeBody : Json → Decoding (List Node)
  | .arr js => decodeNodes js
  | j => mismatch j "a sequence"

def decodeNodes : List Json → Decoding (List Node)
  | [] => .ok []
  | j :: js => do
    let node ← decode j
    let nodes ← decodeNodes js
    return node :: nodes

def decodeMembers (known : List String) (p : Fields) : List (String × Json) → Decoding Fields
  | [] => .ok p
  | (name, j) :: ms => do
    if !known.contains name then decodeMembers known p ms
    else if name = "tasks" then
      if p.body.isSome then .error (.duplicateField "tasks")
      else
        let body ← decodeBody j
        decodeMembers known { p with body := some body } ms
    else
      let p ← (p.slot name).put p j
      decodeMembers known p ms

def decodeElements (p : Fields) : List String → List Json → Decoding Fields
  | name :: names, j :: js => do
    if name = "tasks" then
      let body ← decodeBody j
      decodeElements { p with body := some body } names js
    else
      let p ← (p.slot name).put p j
      decodeElements p names js
  | _, _ => .ok p

end

def decodeContent (kind : Kind) : Json → Decoding Node
  | .obj ms => do
    let p ← decodeMembers kind.record.fields {} ms
    p.finish kind .object
  | .arr js => do
    let p ← decodeElements {} kind.record.fields js
    let node ← p.finish kind .array
    kind.record.checkLength js.length
    return node
  | j => mismatch j kind.record.expected

/-- A node, its kind told by the tag. The nodes in its body belong to it and are read with it. -/
def decoder : Decoder Node := Kind.tagging.decoder decodeContent

def encodeInputs (inputs : List InputArg) : Json := .arr (inputs.map InputArg.encode)

def conditionMembers (c : Condition) : List (String × Json) :=
  [("id", .str c.id), ("leftSrcType", c.left.source.encode), ("leftValue", .str c.left.value),
    ("operator", c.comparison.encode), ("rightSrcType", c.right.source.encode),
    ("rightValue", .str c.right.value)]

mutual

def encode : Node → Json
  | .code s =>
    .obj ([("type", .str "code"), ("id", .str s.id), ("name", .str s.name),
      ("code", .str s.source), ("errorHandling", s.policy.encode),
      ("inputs", encodeInputs s.inputs)] ++ optional "output" OutputArg.encode s.output)
  | .component s =>
    .obj ([("type", .str "component"), ("id", .str s.id), ("name", .str s.name),
      ("group", .str s.group), ("func", .str s.function), ("version", .str s.version),
      ("errorHandling", s.policy.encode), ("inputs", encodeInputs s.inputs)] ++
      optional "output" OutputArg.encode s.output)
  | .ifThen c body =>
    .obj (("type", .str "if") :: conditionMembers c ++ [("tasks", .arr (encodeNodes body))])
  | .elseIf c body =>
    .obj (("type", .str "elseif") :: conditionMembers c ++ [("tasks", .arr (encodeNodes body))])
  | .otherwise id body =>
    .obj [("type", .str "else"), ("id", .str id), ("tasks", .arr (encodeNodes body))]
  | .forEach l body =>
    .obj ([("type", .str "forEach"), ("id", .str l.id), ("srcType", l.items.source.encode),
      ("items", .str l.items.value)] ++ optional "output" OutputArg.encode l.binding ++
      [("tasks", .arr (encodeNodes body))])

def encodeNodes : List Node → List Json
  | [] => []
  | node :: nodes => encode node :: encodeNodes nodes

end

end Node

def write (nodes : List Node) : String := (Json.arr (Node.encodeNodes nodes)).compact

end StepFlow.Flow
