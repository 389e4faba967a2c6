import StepFlow.Json.Reader
import StepFlow.Json.Writer
import StepFlow.Text.Shown

/-!
Why a JSON value is none of a type, and why a text gives no value of a type. An error of the second
kind has a place in the text, kept as the number of bytes left unread where it was noticed.
-/
namespace StepFlow.Json
open Text

inductive Found where
  | null
  | bool (value : Bool)
  | num (value : Number)
  | str (value : String)
  | seq
  | map
  deriving DecidableEq, Repr

def Found.of : Json → Found
  | .null => .null
  | .bool value => .bool value
  | .num value => .num value
  | .str value => .str value
  | .arr _ => .seq
  | .obj _ => .map

def Found.describe : Found → String
  | null => "null"
  | bool true => "boolean `true`"
  | bool false => "boolean `false`"
  | num (.int n) => "integer `" ++ String.ofList (Number.int n).print ++ "`"
  | num (.double x) => "floating point `" ++ String.ofList (Number.double x).print ++ "`"
  | str s => "string " ++ showText s
  | seq => "sequence"
  | map => "map"

inductive DecodeError where
  | invalidType (found : Found) (expected : String)
  | invalidValue (found : Found) (expected : String)
  | invalidLength (length : Nat) (expected : String)
  | missingField (name : String)
  | duplicateField (name : String)
  | unknownVariant (name : String) (known : List String)
  | noVariant (name : String)
  | rejected (reason : String)
  deriving DecidableEq, Repr

/-- The reason without the details of what was found. -/
def DecodeError.headline : DecodeError → String
  | invalidType .. => "invalid type"
  | invalidValue .. => "invalid value"
  | invalidLength .. => "invalid length"
  | missingField name => "missing field `" ++ name ++ "`"
  | duplicateField name => "duplicate field `" ++ name ++ "`"
  | unknownVariant name known =>
    "unknown variant `" ++ name ++ "`, expected one of " ++
      ", ".intercalate (known.map fun k => "`" ++ k ++ "`")
  | noVariant name => "data did not match any variant of untagged enum " ++ name
  | rejected reason => reason

def DecodeError.message : DecodeError → String
  | invalidType found expected => "invalid type: " ++ found.describe ++ ", expected " ++ expected
  | invalidValue found expected => "invalid value: " ++ found.describe ++ ", expected " ++ expected
  | invalidLength length expected =>
    "invalid length " ++ String.ofList (natDigits length) ++ ", expected " ++ expected
  | e => e.headline

abbrev Decoding (α : Type) := Except DecodeError α

def mismatch {α : Type} (j : Json) (expected : String) : Decoding α :=
  .error (.invalidType (.of j) expected)

inductive Error where
  | syntactic (fault : Fault)
  | data (error : DecodeError) (bytesLeft : Nat)
  deriving DecidableEq, Repr

inductive Category where
  | eof
  | syntactic
  | data
  deriving DecidableEq, Repr

def Error.category : Error → Category
  | .syntactic fault => if fault.cause.isEnd then .eof else .syntactic
  | .data _ _ => .data

def Error.message (e : Error) (text : String) : String :=
  match e with
  | .syntactic fault => fault.message text.toList
  | .data error bytesLeft =>
    error.message ++ (Position.ofBytesLeft bytesLeft text.toList).print

end StepFlow.Json
