import StepFlow.Json.DecodeError
import StepFlow.Json.Skip

/-!
Steps through a JSON text that stop at the first fault, be it one of the text or one of the type
that is looked for. What is read decides how the text is read on.
-/
namespace StepFlow.Json
open Text

/-- A step through a text: it takes a part of the text that is left. -/
abbrev Scan (α : Type) := StateT (List Char) (Except Error) α

namespace Scan

def read {α : Type} (reading : List Char → Reading α) : Scan α := fun s =>
  match reading s with
  | .ok result => .ok result
  | .error fault => .error (.syntactic fault)

/-- A fault of the text, noticed at the next byte. -/
def fault {α : Type} (cause : Cause) : Scan α := read (faultAt cause)

/-- An error of the type, noticed before the next byte is taken. -/
def refuse {α : Type} (error : DecodeError) : Scan α := fun s =>
  .error (.data error (utf8Length s))

def ofDecoding {α : Type} : Decoding α → Scan α
  | .ok a => pure a
  | .error error => refuse error

def peek : Scan (Option Char) := fun s => .ok ((skipSpace s).head?, skipSpace s)

def take : Scan Unit := fun s => .ok ((), s.drop 1)

def enter {α : Type} (room : Nat) (body : Nat → Scan α) : Scan α :=
  match room with
  | 0 => fault .tooDeep
  | room + 1 => do
    take
    body room

/-- Refuses a value for its form: an array or object where it begins, all else once it is read. -/
def refuseForm {α : Type} (expected : String) (room : Nat) : Scan α := do
  match ← peek with
  | some '[' => refuse (.invalidType .seq expected)
  | some '{' => refuse (.invalidType .map expected)
  | _ =>
    let j ← read (nextValue room)
    refuse (.invalidType (.of j) expected)

def string (expected : String) (room : Nat) : Scan String := do
  match ← peek with
  | some '"' =>
    take
    read stringValue
  | _ => refuseForm expected room

def null (expected : String) (room : Nat) : Scan Unit := do
  match ← peek with
  | some 'n' => read (expectWord "null".toList)
  | _ => refuseForm expected room

def items {α : Type} (item : Scan α) : Nat → Bool → Scan (List α)
  | 0, _ => fault .endInList
  | fuel + 1, first => do
    if ← read (nextItem first) then
      let a ← item
      let as ← items item fuel false
      return a :: as
    else return []

/-- Goes through the members of an object from one on; `member` reads what follows a key. -/
def members {σ : Type} (member : σ → String → Scan σ) : Nat → Bool → σ → Scan σ
  | 0, _, _ => fault .endInObject
  | fuel + 1, first, state => do
    match ← read (nextKey first) with
    | some key =>
      let state ← member state key
      members member fuel false state
    | none => return state

def array {α : Type} (room : Nat) (item : Nat → Scan α) : Scan (List α) :=
  enter room fun room => do items (item room) ((← get).length + 1) true

def object {σ : Type} (room : Nat) (init : σ) (member : Nat → σ → String → Scan σ) : Scan σ :=
  enter room fun room => do members (member room) ((← get).length + 1) true init

end Scan

end StepFlow.Json
