import StepFlow.Json.Decoder

/-!
The context of a run: values by key, in the order of the keys. A program gets one argument for
each truthy value. On the command line a pair is written `key=value`, where the value is read as
JSON if it is JSON and as a plain text otherwise.
-/
namespace StepFlow.Run
open Json Text

abbrev Context := List (String × Json)

def renderValue : Json → String
  | .str s => s
  | j => j.compact

def argument (key : String) (value : Json) : String := "-" ++ key ++ "=" ++ renderValue value

def givesArgument : Json → Bool
  | .null => false
  | .bool value => value
  | .str value => !value.isEmpty
  | .num (.int value) => value != 0
  | .num (.double value) => !value.isZero
  | _ => true

def arguments (c : Context) : List String :=
  c.filterMap fun (key, value) => if givesArgument value then some (argument key value) else none

/-- A context as the members of an object give it: of each key the last value. -/
def Context.decoder : Decoder Context := .entries .any putSorted []

inductive PairError where
  | noEquals (raw : String)
  | noKey (raw : String)
  deriving DecidableEq, Repr

def PairError.message : PairError → String
  | noEquals raw => "expected key=value, got '" ++ raw ++ "'"
  | noKey raw => "missing key in '" ++ raw ++ "'"

def parsePair (raw : String) : Except PairError (String × Json) :=
  match splitFirst '=' raw.toList with
  | none => .error (.noEquals raw)
  | some ([], _) => .error (.noKey raw)
  | some (key, value) =>
    let text := String.ofList value
    .ok (String.ofList key, match readSettled text with
      | .ok j => j
      | .error _ => .str text)

def Context.ofPairs (pairs : List (String × Json)) : Context :=
  pairs.foldl (fun c (key, value) => putSorted key value c) []

end StepFlow.Run
