import StepFlow.Flow.Wire

/-!
What a compiled program loads: one module per group version, and one per code step, keyed by the
id of the step.
-/
namespace StepFlow.Compile
open StepFlow.Flow Json

structure GroupDependency where
  group : String
  version : String
  name : String
  path : String
  deriving DecidableEq, Repr, Inhabited

structure StepMeta where
  id : String
  name : String
  policy : ErrorPolicy
  inputs : List InputArg
  output : Option OutputArg
  deriving DecidableEq, Repr, Inhabited

structure InlineCode where
  name : String
  source : String
  info : StepMeta
  deriving DecidableEq, Repr, Inhabited

structure Manifest where
  groups : List GroupDependency
  inlineCode : List (String × InlineCode)
  deriving DecidableEq, Repr, Inhabited

structure Program where
  source : String
  manifest : Manifest
  deriving DecidableEq, Repr, Inhabited

def Manifest.isEmpty (m : Manifest) : Bool := m.groups.isEmpty && m.inlineCode.isEmpty

/-- Stores a value under a key: in the place of the key's old value, or else at the end. -/
def putKeyed {α : Type} (key : String) (a : α) : List (String × α) → List (String × α)
  | [] => [(key, a)]
  | (k, b) :: rest => if k = key then (k, a) :: rest else (k, b) :: putKeyed key a rest

namespace GroupDependency

def record : Record := ⟨"GroupDependency", ["groupKey", "version", "alias", "localPath"]⟩

structure Partial where
  group : Option String := none
  version : Option String := none
  name : Option String := none
  path : Option String := none

def pathDecoder : Decoder String where
  ofJson
    | .str s => .ok s
    | j => mismatch j "path string"
  scan := Scan.string "path string"

def Partial.slot (p : Partial) : String → Slot Partial
  | "groupKey" => once "groupKey" p.group .string fun a => { p with group := some a }
  | "version" => once "version" p.version .string fun a => { p with version := some a }
  | "alias" => once "alias" p.name .string fun a => { p with name := some a }
  | "localPath" => once "localPath" p.path pathDecoder fun a => { p with path := some a }
  | _ => .unknown

def Partial.finish (form : Form) (p : Partial) : Decoding GroupDependency := do
  let group ← record.require form "groupKey" p.group
  let version ← record.require form "version" p.version
  let name ← record.require form "alias" p.name
  let path ← record.require form "localPath" p.path
  return ⟨group, version, name, path⟩

def decoder : Decoder GroupDependency := record.decoder {} Partial.slot Partial.finish

def encode (g : GroupDependency) : Json :=
  .obj [("groupKey", .str g.group), ("version", .str g.version), ("alias", .str g.name),
    ("localPath", .str g.path)]

end GroupDependency

namespace StepMeta

def record : Record := ⟨"StepMeta", ["id", "name", "errorPolicy", "inputs", "output"]⟩

structure Partial where
  id : Option String := none
  name : Option String := none
  policy : Option ErrorPolicy := none
  inputs : Option (List InputArg) := none
  output : Option (Option OutputArg) := none

def Partial.slot (p : Partial) : String → Slot Partial
  | "id" => once "id" p.id .string fun a => { p with id := some a }
  | "name" => once "name" p.name .string fun a => { p with name := some a }
  | "errorPolicy" =>
    once "errorPolicy" p.policy ErrorPolicy.decoder fun a => { p with policy := some a }
  | "inputs" =>
    once "inputs" p.inputs (.list InputArg.decoder) fun a => { p with inputs := some a }
  | "output" =>
    once "output" p.output (.option OutputArg.decoder) fun a => { p with output := some a }
  | _ => .unknown

def Partial.finish (form : Form) (p : Partial) : Decoding StepMeta := do
  let id ← record.require form "id" p.id
  let name ← record.require form "name" p.name
  let policy ← record.require form "errorPolicy" p.policy
  let inputs ← record.require form "inputs" p.inputs
  return ⟨id, name, policy, inputs, p.output.join⟩

def decoder : Decoder StepMeta := record.decoder {} Partial.slot Partial.finish

def encode (m : StepMeta) : Json :=
  .obj ([("id", .str m.id), ("name", .str m.name), ("errorPolicy", m.policy.encode),
    ("inputs", .arr (m.inputs.map InputArg.encode))] ++ optional "output" OutputArg.encode m.output)

end StepMeta

namespace InlineCode

def record : Record := ⟨"InlineCode", ["alias", "source", "meta"]⟩

structure Partial where
  name : Option String := none
  source : Option String := none
  info : Option StepMeta := none

def Partial.slot (p : Partial) : String → Slot Partial
  | "alias" => once "alias" p.name .string fun a => { p with name := some a }
  | "source" => once "source" p.source .string fun a => { p with source := some a }
  | "meta" => once "meta" p.info StepMeta.decoder fun a => { p with info := some a }
  | _ => .unknown

def Partial.finish (form : Form) (p : Partial) : Decoding InlineCode := do
  let name ← record.require form "alias" p.name
  let source ← record.require form "source" p.source
  let info ← record.require form "meta" p.info
  return ⟨name, source, info⟩

def decoder : Decoder InlineCode := record.decoder {} Partial.slot Partial.finish

def encode (c : InlineCode) : Json :=
  .obj [("alias", .str c.name), ("source", .str c.source), ("meta", c.info.encode)]

end InlineCode

namespace Manifest

def record : Record := ⟨"DependencyManifest", ["groups", "inlineCode"]⟩

structure Partial where
  groups : Option (List GroupDependency) := none
  inlineCode : Option (List (String × InlineCode)) := none

/-- Of a key given twice the last value counts, at the first place. -/
def Partial.slot (p : Partial) : String → Slot Partial
  | "groups" =>
    once "groups" p.groups (.list GroupDependency.decoder) fun a => { p with groups := some a }
  | "inlineCode" =>
    once "inlineCode" p.inlineCode (.entries InlineCode.decoder putKeyed [])
      fun a => { p with inlineCode := some a }
  | _ => .unknown

def Partial.finish (form : Form) (p : Partial) : Decoding Manifest := do
  let groups ← record.require form "groups" p.groups
  let inlineCode ← record.require form "inlineCode" p.inlineCode
  return ⟨groups, inlineCode⟩

def decoder : Decoder Manifest := record.decoder {} Partial.slot Partial.finish

def encode (m : Manifest) : Json :=
  .obj [("groups", .arr (m.groups.map GroupDependency.encode)),
    ("inlineCode", .obj (m.inlineCode.map fun (id, code) => (id, code.encode)))]

end Manifest

namespace Program

def record : Record := ⟨"CompiledProgram", ["source", "dependencies"]⟩

structure Partial where
  source : Option String := none
  manifest : Option Manifest := none

def Partial.slot (p : Partial) : String → Slot Partial
  | "source" => once "source" p.source .string fun a => { p with source := some a }
  | "dependencies" =>
    once "dependencies" p.manifest Manifest.decoder fun a => { p with manifest := some a }
  | _ => .unknown

def Partial.finish (form : Form) (p : Partial) : Decoding Program := do
  let source ← record.require form "source" p.source
  let manifest ← record.require form "dependencies" p.manifest
  return ⟨source, manifest⟩

def decoder : Decoder Program := record.decoder {} Partial.slot Partial.finish

def encode (p : Program) : Json :=
  .obj [("source", .str p.source), ("dependencies", p.manifest.encode)]

end Program

end StepFlow.Compile
