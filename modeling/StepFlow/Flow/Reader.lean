import StepFlow.Flow.Wire

/-!
Reading of flows from text. Nodes are decoded one after the other as they are read, so the first
node that cannot be decoded is reported before anything that follows it. An error of a node's kind
is placed where it was noticed, any other error of a node where its list goes on.
-/
namespace StepFlow.Flow
open Json Text

abbrev ReadError := Json.Error

/-- The rest of a text behind an item and the comma or bracket after it. -/
def afterItem (s : List Char) : List Char :=
  match skipSpace s with
  | ']' :: rest => rest
  | ',' :: rest => skipSpace rest
  | rest => rest

def toNextItem : Scan Unit := fun s => .ok ((), afterItem s)

def scanNode (room : Nat) : Scan Node := do
  let (kind, content) ← Kind.tagging.scan room
  match Node.decodeContent kind content with
  | .ok node => return node
  | .error e =>
    toNextItem
    Scan.refuse e

def decoder : Decoder (List Node) where
  ofJson := Node.decodeBody
  scan room := do
    match ← Scan.peek with
    | some '[' => Scan.array room scanNode
    | _ => Scan.refuseForm "a sequence" room

def read (text : String) : Except ReadError (List Node) := decodeText decoder text

end StepFlow.Flow
