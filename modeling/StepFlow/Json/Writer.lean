import StepFlow.Decimal.Shortest
import StepFlow.Json.Value
import StepFlow.Text.Quoted

/-!
The text of a JSON value: compact, or with every member and item on a line of its own.
-/
namespace StepFlow.Json
open Text

/-- Doubles are positional from 0.00001 up to, but not including, 10000000000000000. -/
def doubleNotation : Decimal.Notation := ⟨-5, 16⟩

def Number.print : Number → List Char
  | .int value => if value < 0 then '-' :: natDigits value.natAbs else natDigits value.natAbs
  | .double value => value.print doubleNotation

mutual

def print : Json → List Char
  | .null => "null".toList
  | .bool true => "true".toList
  | .bool false => "false".toList
  | .num value => value.print
  | .str value => quote value
  | .arr items => '[' :: printItems items ++ [']']
  | .obj members => '{' :: printMembers members ++ ['}']

def printItems : List Json → List Char
  | [] => []
  | item :: items => print item ++ printMoreItems items

def printMoreItems : List Json → List Char
  | [] => []
  | item :: items => ',' :: print item ++ printMoreItems items

def printMembers : List (String × Json) → List Char
  | [] => []
  | (key, value) :: members => quote key ++ ':' :: print value ++ printMoreMembers members

def printMoreMembers : List (String × Json) → List Char
  | [] => []
  | (key, value) :: members =>
    ',' :: quote key ++ ':' :: print value ++ printMoreMembers members

end

def newLine (level : Nat) : List Char := '\n' :: List.replicate (2 * level) ' '

mutual

def printPretty (level : Nat) : Json → List Char
  | .arr (item :: items) =>
    '[' :: newLine (level + 1) ++ printPretty (level + 1) item ++
      printPrettyItems (level + 1) items ++ newLine level ++ [']']
  | .obj ((key, value) :: members) =>
    '{' :: newLine (level + 1) ++ quote key ++ ':' :: ' ' :: printPretty (level + 1) value ++
      printPrettyMembers (level + 1) members ++ newLine level ++ ['}']
  | .arr [] => ['[', ']']
  | .obj [] => ['{', '}']
  | .null => "null".toList
  | .bool true => "true".toList
  | .bool false => "false".toList
  | .num value => value.print
  | .str value => quote value

def printPrettyItems (level : Nat) : List Json → List Char
  | [] => []
  | item :: items => ',' :: newLine level ++ printPretty level item ++ printPrettyItems level items

def printPrettyMembers (level : Nat) : List (String × Json) → List Char
  | [] => []
  | (key, value) :: members =>
    ',' :: newLine level ++ quote key ++ ':' :: ' ' :: printPretty level value ++
      printPrettyMembers level members

end

def compact (j : Json) : String := String.ofList j.print

def pretty (j : Json) : String := String.ofList (printPretty 0 j)

end StepFlow.Json
