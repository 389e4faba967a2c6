import StepFlow.Script.Literal

/-!
Literals read by position. A cursor keeps its place in the text as a number. It can step back and
return to an earlier place, and nothing but what it has seen keeps it inside the text. Every place
it takes is remembered. Besides a fault of the text there are ends that no text should lead to: a
step back from the first place, a cut that is no part of the text, a string begun where nothing
stands, a loop with too few turns.
-/
namespace StepFlow.Script.Literal
open Text

/-- A place in a text, and the places taken before it. -/
structure Cursor where
  place : Nat
  past : List Nat

namespace Cursor

inductive Halt where
  | fault (e : Error)
  | outOfRange
  | misplaced
  | outOfTurns

abbrev Walk (α : Type) := EStateM Halt Cursor α

def places (c : Cursor) : List Nat := c.place :: c.past

/-- Takes a place, be it in the text or not. -/
def goTo (place : Nat) : Walk Unit := fun c => .ok () ⟨place, c.places⟩

def here : Walk Nat := fun c => .ok c.place c

def step : Walk Unit := fun c => goTo (c.place + 1) c

def stepBack : Walk Unit := fun c =>
  if c.place = 0 then .error .outOfRange c else goTo (c.place - 1) c

def charOffsets (start : Nat) : List Char → List (Nat × Char)
  | [] => []
  | c :: s => (start, c) :: charOffsets (start + c.utf8Size) s

section
variable (text : List Char)

/-- The byte offset of a place; the size of the text where there is no character. -/
def byteOffset (place : Nat) : Nat :=
  match (charOffsets 0 text)[place]? with
  | some (offset, _) => offset
  | none => utf8Length text

def error {α : Type} (cause : Cause) : Walk α := fun c =>
  .error (.fault ⟨cause, byteOffset text c.place⟩) c

def peek : Walk (Option Char) := fun c =>
  .ok (((charOffsets 0 text)[c.place]?).map Prod.snd) c

def bump : Walk (Option Char) := do
  match ← peek text with
  | some c =>
    step
    return some c
  | none => return none

def cut (start : Nat) : Walk (List Char) := fun c =>
  if start ≤ c.place ∧ c.place ≤ text.length then
    .ok ((text.drop start).take (c.place - start)) c
  else .error .outOfRange c

def turns : Nat := text.length + 1

def runLoop (kind : Char → Bool) : Nat → Walk (List Char)
  | 0 => throw .outOfTurns
  | n + 1 => do
    match ← peek text with
    | some c =>
      if kind c then
        step
        return c :: (← runLoop kind n)
      else return []
    | none => return []

def run (kind : Char → Bool) : Walk (List Char) := runLoop text kind (turns text)

def skip : Walk Unit := do
  let _ ← run text isBlank

def stepIf (kind : Char → Bool) : Walk Bool := do
  match ← peek text with
  | some c =>
    if kind c then
      step
      return true
    else return false
  | none => return false

def expect (wanted : Char) : Walk Unit := do
  skip text
  match ← peek text with
  | some c => if c = wanted then step else error text (.expected wanted c)
  | none => error text (.expectedAtEnd wanted)

/-- The number that hexadecimal digits go on to write. The cursor is left behind the first character
that is no digit. -/
def hexDigits : Nat → Nat → Walk (Option Nat)
  | 0, code => return some code
  | n + 1, code => do
    match (← bump text).bind hexDigitValue? with
    | some digit => hexDigits n (code * 16 + digit)
    | none => return none

/-- Looks for an escaped low surrogate. Where there is none the cursor has moved all the same. -/
def lowUnit? : Walk (Option Nat) := do
  if (← bump text) = some '\\' then
    if (← bump text) = some 'u' then
      return (← hexDigits text 4 0).filter isLowSurrogate
    else return none
  else return none

def unicodeEscape : Walk Char := do
  match ← hexDigits text 4 0 with
  | none => error text .invalidEscape
  | some code =>
    if isHighSurrogate code then
      let resume ← here
      match ← lowUnit? text with
      | some low => return surrogatePair code low
      | none =>
        -- what was looked at is read again, now for its own sake
        goTo resume
        return replacement
    else if isLowSurrogate code then return replacement
    else if code.isValidChar then return Char.ofNat code
    else error text .invalidEscape

def escaped (e : Char) : Walk Char :=
  if e = 'u' then unicodeEscape text else pure (unescape e)

def stringLoop (quote : Char) : Nat → Walk (List Char)
  | 0 => throw .outOfTurns
  | n + 1 => do
    match ← bump text with
    | none => error text .unterminatedString
    | some c =>
      if c = quote then return []
      else if c = '\\' then
        match ← bump text with
        | none => error text .unterminatedString
        | some e =>
          let d ← escaped text e
          return d :: (← stringLoop quote n)
      else return c :: (← stringLoop quote n)

def string : Walk (List Char) := do
  match ← bump text with
  | none => throw .misplaced
  | some quote => stringLoop text quote (turns text)

def exponent : Walk Unit := do
  if ← stepIf text fun c => c == 'e' || c == 'E' then
    let _ ← stepIf text fun c => c == '+' || c == '-'
    let start ← here
    let _ ← run text isDecimalDigit
    if (← here) = start then error text .invalidExponent
    else return ()
  else return ()

def fraction : Walk (List Char) := do
  if ← stepIf text (· == '.') then run text isDecimalDigit
  else return []

def mantissa : Walk Unit := do
  let before ← run text isDecimalDigit
  let after ← fraction text
  if before.length + after.length = 0 then error text .invalidNumber
  else return ()

def number : Walk (List Char) := do
  let start ← here
  let _ ← stepIf text (· == '-')
  mantissa text
  exponent text
  cut text start

def fieldsLoop : Nat → Expr → Walk Expr
  | 0, _ => throw .outOfTurns
  | n + 1, e => do
    if (← peek text) = some '.' then
      step
      let property ← run text isWordChar
      if property.isEmpty then error text .missingProperty
      else fieldsLoop n (.member e (String.ofList property))
    else return e

def named (start : Nat) (name : String) : Walk Expr :=
  if name = "true" then return .bool true
  else if name = "false" then return .bool false
  else if name = "null" then return .null
  else if isIdentifier name then fieldsLoop text (turns text) (.ident name)
  else do
    goTo start
    error text (.reservedValue name)

def word : Walk Expr := do
  let start ← here
  let letters ← run text isWordChar
  named text start (String.ofList letters)

def key : Walk (PropKey × Option String) := do
  match ← peek text with
  | none => error text .unterminatedObject
  | some c =>
    if isQuote c then return (.quoted (String.ofList (← string text)), none)
    else if isDecimalDigit c then return (.quoted (String.ofList (← number text)), none)
    else if isWordStart c then
      let letters ← run text isWordChar
      return (.bare (String.ofList letters), some (String.ofList letters))
    else error text (.unexpectedInKey c)

def property (value : Walk Expr) : Walk (PropKey × Expr) := do
  let (k, shorthand) ← key text
  skip text
  let next ← peek text
  match shorthand, next == some ',' || next == some '}' with
  | some name, true =>
    if isIdentifier name then return (k, .ident name)
    else error text (.reservedShorthand name)
  | _, _ =>
    expect text ':'
    return (k, ← value)

section
variable {α : Type} (close : Char) (unterminated : Cause) (stray : Char → Cause) (item : Walk α)

def enclosedLoop : Nat → Walk (List α)
  | 0 => throw .outOfTurns
  | n + 1 => do
    skip text
    if (← peek text) = some close then
      step
      return []
    else
      let a ← item
      skip text
      match ← bump text with
      | none => error text unterminated
      | some c =>
        if c = ',' then return a :: (← enclosedLoop n)
        else if c = close then return [a]
        else
          stepBack
          error text (stray c)

def enclosed (opening : Char) : Walk (List α) := do
  expect text opening
  enclosedLoop text close unterminated stray item (turns text)

end

def value : Nat → Walk Expr
  | 0 => throw .outOfTurns
  | n + 1 => do
    skip text
    match ← peek text with
    | none => error text .unexpectedEnd
    | some c =>
      if c = '{' then
        return .object (← enclosed text '}' .unterminatedObject .expectedInObject
          (property text (value n)) '{')
      else if c = '[' then
        return .array (← enclosed text ']' .unterminatedList .expectedInList (value n) '[')
      else if c = '(' then
        step
        let e ← value n
        expect text ')'
        return e
      else if isQuote c then return .str (String.ofList (← string text))
      else if startsNumber c then return .num (String.ofList (← number text))
      else if isWordStart c then word text
      else error text (.unexpected c)

def whole : Walk Expr := do
  let e ← value text (turns text)
  skip text
  match ← peek text with
  | none => return e
  | some c => error text (.unexpectedAfterValue c)

end

def scan (source : String) : Except Halt Expr × List Nat :=
  match whole source.toList ⟨0, []⟩ with
  | .ok e c => (.ok e, c.places)
  | .error halt c => (.error halt, c.places)

end Cursor

end StepFlow.Script.Literal
