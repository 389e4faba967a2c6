import StepFlow.Json.Scan

/-!
Decoders of types from JSON. A decoder has two ways to a value. From a JSON value it takes what is
already there. From a text it reads only what the type asks for, in the order of the text: the first
fault is reported, be it one of the text or one of the type, and what belongs to no field is
skipped. A type that needs all of a value before it can be told is decoded from the JSON value in
either way.

A record may be written as an object, whose unknown members count for nothing, or as an array of
its fields in order.
-/
namespace StepFlow.Json
open Text

/-- Two ways to a value of a type. In a text arrays and objects nest at most `room` levels. -/
structure Decoder (α : Type) where
  ofJson : Json → Decoding α
  scan : (room : Nat) → Scan α

namespace Decoder

def map {α β : Type} (f : α → β) (d : Decoder α) : Decoder β where
  ofJson j := (d.ofJson j).map f
  scan room := f <$> d.scan room

/-- Reads all of a value before decoding it. -/
def buffered {α : Type} (decode : Json → Decoding α) : Decoder α where
  ofJson := decode
  scan room := do
    let j ← Scan.read (nextValue room)
    Scan.ofDecoding (decode j)

def any : Decoder Json := buffered fun j => .ok j.settle

def string : Decoder String where
  ofJson
    | .str s => .ok s
    | j => mismatch j "a string"
  scan := Scan.string "a string"

def int : Decoder Int :=
  buffered fun
    | .num (.int n) =>
      if n < 1 <<< 63 then .ok n else .error (.invalidValue (.num (.int n)) "i64")
    | j => mismatch j "i64"

def option {α : Type} (d : Decoder α) : Decoder (Option α) where
  ofJson
    | .null => .ok none
    | j => (d.ofJson j).map some
  scan room := do
    match ← Scan.peek with
    | some 'n' =>
      Scan.read (expectWord "null".toList)
      return none
    | _ => some <$> d.scan room

def decodeItems {α : Type} (decode : Json → Decoding α) : List Json → Decoding (List α)
  | [] => .ok []
  | j :: js => do
    let a ← decode j
    let as ← decodeItems decode js
    return a :: as

def list {α : Type} (d : Decoder α) : Decoder (List α) where
  ofJson
    | .arr js => decodeItems d.ofJson js
    | j => mismatch j "a sequence"
  scan room := do
    match ← Scan.peek with
    | some '[' => Scan.array room d.scan
    | _ => Scan.refuseForm "a sequence" room

def decodeEntries {α σ : Type} (decode : Json → Decoding α) (put : String → α → σ → σ) :
    σ → List (String × Json) → Decoding σ
  | done, [] => .ok done
  | done, (key, j) :: ms => do
    let a ← decode j
    decodeEntries decode put (put key a done) ms

def entries {α σ : Type} (d : Decoder α) (put : String → α → σ → σ) (init : σ) : Decoder σ where
  ofJson
    | .obj ms => decodeEntries d.ofJson put init ms
    | j => mismatch j "a map"
  scan room := do
    match ← Scan.peek with
    | some '{' => Scan.object room init fun room done key => do
      Scan.read expectColon
      return put key (← d.scan room) done
    | _ => Scan.refuseForm "a map" room

end Decoder

/-- The variant of a name; `other` stands for all names that are not known. -/
def variantOf {α : Type} (known : List (String × α)) (other : Option α) (name : String) :
    Decoding α :=
  match known.lookup name, other with
  | some a, _ => .ok a
  | none, some a => .ok a
  | none, none => .error (.unknownVariant name (known.map Prod.fst))

/-- A variant without content, as its name or as an object that maps the name to nothing. -/
def Decoder.variant {α : Type} (known : List (String × α)) (other : Option α) : Decoder α where
  ofJson
    | .str name => variantOf known other name
    | .obj [(name, content)] => do
      let a ← variantOf known other name
      match content with
      | .null => return a
      | .obj [] => return a
      | j => mismatch j "unit"
    | .obj _ => .error (.invalidValue .map "map with a single key")
    | j => mismatch j "string or map"
  scan room := do
    match ← Scan.peek with
    | some '"' =>
      Scan.take
      let name ← Scan.read stringValue
      Scan.ofDecoding (variantOf known other name)
    | some '{' => Scan.enter room fun room => do
      match ← Scan.read (nextKey true) with
      | none => Scan.fault .keyNotString
      | some name =>
        let a ← Scan.ofDecoding (variantOf known other name)
        Scan.read expectColon
        Scan.null "unit" room
        match ← Scan.peek with
        | some '}' =>
          Scan.take
          return a
        | some _ => Scan.fault .expectedValue
        | none => Scan.fault .endInObject
    | some _ => Scan.fault .expectedValue
    | none => Scan.fault .endInValue

inductive Slot (σ : Type) where
  | unknown
  | taken (name : String)
  | free (decoder : Decoder σ)

def once {α σ : Type} (name : String) (stored : Option α) (d : Decoder α) (store : α → σ) : Slot σ :=
  match stored with
  | some _ => .taken name
  | none => .free (d.map store)

namespace Slot

def put {σ : Type} (state : σ) (j : Json) : Slot σ → Decoding σ
  | unknown => .ok state
  | taken name => .error (.duplicateField name)
  | free d => d.ofJson j

def scanValue {σ : Type} (room : Nat) (state : σ) : Slot σ → Scan σ
  | unknown => do
    Scan.read skipValue
    return state
  | taken name => Scan.refuse (.duplicateField name)
  | free d => d.scan room

/-- Reads what follows the key of a field. A field that is taken is refused before its value. -/
def scanMember {σ : Type} (room : Nat) (state : σ) : Slot σ → Scan σ
  | taken name => do
    let _ ← Scan.peek
    Scan.refuse (.duplicateField name)
  | slot => do
    Scan.read expectColon
    slot.scanValue room state

end Slot

structure Record where
  name : String
  fields : List String

inductive Form where
  | object
  | array
  deriving DecidableEq, Repr

namespace Record

def expected (r : Record) : String := "struct " ++ r.name

def countElements (r : Record) : String :=
  String.ofList (natDigits r.fields.length) ++
    if r.fields.length = 1 then " element" else " elements"

def require {α : Type} (r : Record) (form : Form) (name : String) : Option α → Decoding α
  | some a => .ok a
  | none =>
    match form with
    | .object => .error (.missingField name)
    | .array =>
      .error (.invalidLength (r.fields.idxOf name) (r.expected ++ " with " ++ r.countElements))

/-- A record written as an array has no more elements than fields. -/
def checkLength (r : Record) (count : Nat) : Decoding Unit :=
  if count ≤ r.fields.length then .ok ()
  else .error (.invalidLength count (r.countElements ++ " in sequence"))

def slotOf {σ : Type} (r : Record) (slot : σ → String → Slot σ) (state : σ) (name : String) :
    Slot σ :=
  if r.fields.contains name then slot state name else .unknown

def putMembers {σ : Type} (r : Record) (slot : σ → String → Slot σ) :
    σ → List (String × Json) → Decoding σ
  | state, [] => .ok state
  | state, (name, j) :: ms => do
    let state ← (r.slotOf slot state name).put state j
    putMembers r slot state ms

/-- Reads the fields of a record written as an array. The array ends at the latest after the last
of them. -/
def scanElements {σ : Type} (slot : σ → String → Slot σ) (room : Nat) :
    List String → Bool → σ → Scan σ
  | [], _, state => do
    match ← Scan.peek with
    | some ']' =>
      Scan.take
      return state
    | some _ => Scan.fault .trailingCharacters
    | none => Scan.fault .endInList
  | name :: names, first, state => do
    if ← Scan.read (nextItem first) then
      let state ← (slot state name).scanValue room state
      scanElements slot room names false state
    else return state

/-- A record whose fields are stored one by one, and which is complete once they are. -/
def decoder {σ α : Type} (r : Record) (init : σ) (slot : σ → String → Slot σ)
    (finish : Form → σ → Decoding α) : Decoder α where
  ofJson
    | .obj ms => do
      let state ← r.putMembers slot init ms
      finish .object state
    | .arr js => do
      let state ← r.putMembers slot init (r.fields.zip js)
      let a ← finish .array state
      r.checkLength js.length
      return a
    | j => mismatch j r.expected
  scan room := do
    match ← Scan.peek with
    | some '{' =>
      let state ← Scan.object room init fun room state name =>
        (r.slotOf slot state name).scanMember room state
      Scan.ofDecoding (finish .object state)
    | some '[' => Scan.enter room fun room => do
      let state ← scanElements slot room r.fields true init
      Scan.ofDecoding (finish .array state)
    | _ => Scan.refuseForm r.expected room

/-- A record that stands in one object with the members of another type. The members that are not
its own are kept for that type and looked at after its own. -/
def flatDecoder {σ α : Type} (r : Record) (init : σ) (slot : σ → String → Slot σ)
    (finish : σ → List (String × Json) → Decoding α) : Decoder α where
  ofJson
    | .obj ms => do
      let state ← r.putMembers slot init ms
      finish state (ms.filter fun m => !r.fields.contains m.1)
    | j => mismatch j r.expected
  scan room := do
    match ← Scan.peek with
    | some '{' =>
      let (state, others) ← Scan.object room (init, []) fun room (state, others) name =>
        if r.fields.contains name then
          (·, others) <$> (slot state name).scanMember room state
        else do
          Scan.read expectColon
          return (state, (name, ← Scan.read (nextValue room)) :: others)
      Scan.ofDecoding (finish state others.reverse)
    | _ => Scan.refuseForm r.expected room

end Record

/-- The form of a type whose kind is told by a tag: a member of the object among the kind's own, or
the first element of an array. -/
structure Tagging (κ : Type) where
  name : String
  tag : String
  kinds : List (String × κ)

namespace Tagging

def expected {κ : Type} (t : Tagging κ) : String := "internally tagged enum " ++ t.name

def kindOf {κ : Type} (t : Tagging κ) : Json → Decoding κ
  | .str name => variantOf t.kinds none name
  | .num (.int n) =>
    if n < 0 then mismatch (.num (.int n)) "variant identifier"
    else match t.kinds[n.toNat]? with
      | some (_, kind) => .ok kind
      | none =>
        .error (.invalidValue (.num (.int n))
          ("variant index 0 <= i < " ++ String.ofList (natDigits t.kinds.length)))
  | j => mismatch j "variant identifier"

/-- The kind among the members of an object, wherever the tag stands. -/
def find {κ : Type} (t : Tagging κ) : Option κ → List (String × Json) → Decoding κ
  | some kind, [] => .ok kind
  | none, [] => .error (.missingField t.tag)
  | found, (name, j) :: ms =>
    if name = t.tag then
      match found with
      | some _ => .error (.duplicateField t.tag)
      | none => do
        let kind ← t.kindOf j
        t.find (some kind) ms
    else t.find found ms

def others {κ : Type} (t : Tagging κ) (ms : List (String × Json)) : List (String × Json) :=
  ms.filter fun m => m.1 != t.tag

def split {κ : Type} (t : Tagging κ) : Json → Decoding (κ × Json)
  | .obj ms => do
    let kind ← t.find none ms
    return (kind, .obj (t.others ms))
  | .arr [] => .error (.missingField t.tag)
  | .arr (tag :: js) => do
    let kind ← t.kindOf tag
    return (kind, .arr js)
  | j => mismatch j t.expected

def scanKind {κ : Type} (t : Tagging κ) (room : Nat) : Scan κ := do
  let name ← Scan.string "variant identifier" room
  Scan.ofDecoding (variantOf t.kinds none name)

/-- Reads what follows a key. The tag is looked at on the way, all else is kept. -/
def scanMember {κ : Type} (t : Tagging κ) (room : Nat) :
    Option κ × List (String × Json) → String → Scan (Option κ × List (String × Json))
  | (found, kept), name => do
    if name = t.tag then
      match found with
      | some _ =>
        let _ ← Scan.peek
        Scan.refuse (.duplicateField t.tag)
      | none =>
        Scan.read expectColon
        return (some (← t.scanKind room), kept)
    else
      Scan.read expectColon
      return (found, (name, ← Scan.read (nextValue room)) :: kept)

def scan {κ : Type} (t : Tagging κ) (room : Nat) : Scan (κ × Json) := do
  match ← Scan.peek with
  | some '{' =>
    let (found, kept) ← Scan.object room (none, []) t.scanMember
    match found with
    | some kind => return (kind, .obj kept.reverse)
    | none => Scan.refuse (.missingField t.tag)
  | some '[' => Scan.enter room fun room => do
    if ← Scan.read (nextItem true) then
      let kind ← t.scanKind room
      return (kind, .arr (← Scan.read fun s => items (fuelFor s) room false s))
    else Scan.refuse (.missingField t.tag)
  | _ => Scan.refuseForm t.expected room

def decoder {κ α : Type} (t : Tagging κ) (content : κ → Json → Decoding α) : Decoder α where
  ofJson j := do
    let (kind, j) ← t.split j
    content kind j
  scan room := do
    let (kind, j) ← t.scan room
    Scan.ofDecoding (content kind j)

end Tagging

def optional {α : Type} (name : String) (encode : α → Json) : Option α → List (String × Json)
  | none => []
  | some a => [(name, encode a)]

def decodeText {α : Type} (d : Decoder α) (text : String) : Except Error α := do
  let (a, rest) ← (d.scan maxDepth).run text.toList
  match endOfText a rest with
  | .ok a => .ok a
  | .error fault => .error (.syntactic fault)

end StepFlow.Json
