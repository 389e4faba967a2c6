import StepFlow.Decimal.Double

/-!
JSON values. An object is a list of members in order, where a key may occur more than once.
`Json.settle` is the free-form reading: of each key the last value, the members in the order of
their keys.
-/
namespace StepFlow

/-- A number: an integer, or a double for everything else. -/
inductive Json.Number where
  | int (value : Int)
  | double (value : Decimal.Double)
  deriving DecidableEq, Repr, Inhabited

inductive Json where
  | null
  | bool (value : Bool)
  | num (value : Json.Number)
  | str (value : String)
  | arr (items : List Json)
  | obj (members : List (String × Json))
  deriving Repr, Inhabited

namespace Json

/-- Puts a member in its place among members with ascending keys, instead of one of its key. -/
def putSorted (key : String) (value : Json) : List (String × Json) → List (String × Json)
  | [] => [(key, value)]
  | (k, v) :: rest =>
    if key < k then (key, value) :: (k, v) :: rest
    else if key = k then (key, value) :: rest
    else (k, v) :: putSorted key value rest

mutual

def settle : Json → Json
  | .null => .null
  | .bool value => .bool value
  | .num value => .num value
  | .str value => .str value
  | .arr items => .arr (settleItems items)
  | .obj members => .obj (settleMembers [] members)

def settleItems : List Json → List Json
  | [] => []
  | item :: items => settle item :: settleItems items

def settleMembers (placed : List (String × Json)) : List (String × Json) → List (String × Json)
  | [] => placed
  | (key, value) :: members => settleMembers (putSorted key (settle value) placed) members

end

def get? (key : String) : Json → Option Json
  | .obj members => members.lookup key
  | _ => none

def isObject : Json → Bool
  | .obj _ => true
  | _ => false

/-- Truth as scripts see it: nothing, `false`, zero and the empty text are false. -/
def isTruthy : Json → Bool
  | .null => false
  | .bool value => value
  | .num (.int value) => value != 0
  | .num (.double value) => !value.isZero
  | .str value => !value.isEmpty
  | .arr _ => true
  | .obj _ => true

mutual

def depth : Json → Nat
  | .arr items => depthItems items + 1
  | .obj members => depthMembers members + 1
  | _ => 0

def depthItems : List Json → Nat
  | [] => 0
  | item :: items => max (depth item) (depthItems items)

def depthMembers : List (String × Json) → Nat
  | [] => 0
  | (_, value) :: members => max (depth value) (depthMembers members)

end

end Json

end StepFlow
