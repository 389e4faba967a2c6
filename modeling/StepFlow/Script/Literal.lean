import StepFlow.Script.Syntax
import StepFlow.Text.Basic

/-!
Reading of literals: objects, lists, strings, numbers, the three constants and dotted names, with
blanks, parentheses and a comma before a closing bracket allowed. A reader takes the unread text
and returns a value with the text that is left; a fault keeps the text unread at that point, from
which the byte offset of the error is found.
-/
namespace StepFlow.Script.Literal
open Text

inductive Cause where
  | unexpected (found : Char)
  | unexpectedEnd
  | unexpectedAfterValue (found : Char)
  | expected (wanted found : Char)
  | expectedAtEnd (wanted : Char)
  | unexpectedInKey (found : Char)
  | expectedInObject (found : Char)
  | expectedInList (found : Char)
  | unterminatedObject
  | unterminatedList
  | unterminatedString
  | invalidEscape
  | invalidNumber
  | invalidExponent
  | missingProperty
  | reservedValue (name : String)
  | reservedShorthand (name : String)
  deriving DecidableEq, Repr

def Cause.message : Cause → String
  | unexpected c => "unexpected '" ++ c.toString ++ "'"
  | unexpectedEnd => "unexpected end of input"
  | unexpectedAfterValue c => "unexpected '" ++ c.toString ++ "' after value"
  | expected w c => "expected '" ++ w.toString ++ "', found '" ++ c.toString ++ "'"
  | expectedAtEnd w => "expected '" ++ w.toString ++ "', found end of input"
  | unexpectedInKey c => "unexpected '" ++ c.toString ++ "' in object key"
  | expectedInObject c => "expected ',' or '\x7d', found '" ++ c.toString ++ "'"
  | expectedInList c => "expected ',' or ']', found '" ++ c.toString ++ "'"
  | unterminatedObject => "unterminated object"
  | unterminatedList => "unterminated list"
  | unterminatedString => "unterminated string"
  | invalidEscape => "invalid unicode escape"
  | invalidNumber => "invalid number"
  | invalidExponent => "invalid number exponent"
  | missingProperty => "expected property name after '.'"
  | reservedValue name => "reserved word '" ++ name ++ "' used as a value"
  | reservedShorthand name => "reserved word '" ++ name ++ "' used as a shorthand property"

structure Fault where
  cause : Cause
  unread : List Char
  deriving DecidableEq, Repr

abbrev Reading (α : Type) := Except Fault (α × List Char)

def fail {α : Type} (cause : Cause) (unread : List Char) : Reading α := .error ⟨cause, unread⟩

def withItem {α : Type} (item : α) : Reading (List α) → Reading (List α)
  | .ok (s, rest) => .ok (item :: s, rest)
  | .error fault => .error fault

def unescape (c : Char) : Char :=
  if c = 'n' then '\n'
  else if c = 't' then '\t'
  else if c = 'r' then '\r'
  else if c = 'b' then '\x08'
  else if c = 'f' then '\x0c'
  else if c = '0' then '\x00'
  else c

/-- What a string is written with: a character, or a 16-bit code unit from an escape. -/
inductive Piece where
  | char (c : Char)
  | unit (code : Nat)
  deriving DecidableEq, Repr

def replacement : Char := '\uFFFD'

def loneUnit (code : Nat) : Char :=
  if isHighSurrogate code || isLowSurrogate code then replacement else Char.ofNat code

/-- Two neighbouring units that form a surrogate pair give one character. -/
def decodePieces : List Piece → List Char
  | [] => []
  | .char c :: rest => c :: decodePieces rest
  | .unit u :: .unit v :: rest =>
    if isHighSurrogate u && isLowSurrogate v then surrogatePair u v :: decodePieces rest
    else loneUnit u :: decodePieces (.unit v :: rest)
  | .unit u :: rest => loneUnit u :: decodePieces rest

/-- The text after the first character that is no hexadecimal digit, or after `n` digits. -/
def afterHex : Nat → List Char → List Char
  | 0, s => s
  | _ + 1, [] => []
  | n + 1, c :: s => if (hexDigitValue? c).isSome then afterHex n s else s

def stringPieces (close : Char) : List Char → Reading (List Piece)
  | [] => fail .unterminatedString []
  | c :: rest =>
    if c = close then .ok ([], rest)
    else if c = '\\' then
      match rest with
      | [] => fail .unterminatedString []
      | e :: rest =>
        if e = 'u' then
          match rest with
          | h₁ :: h₂ :: h₃ :: h₄ :: after =>
            match hexValue? h₁ h₂ h₃ h₄ with
            | some code => withItem (.unit code) (stringPieces close after)
            | none => fail .invalidEscape (afterHex 4 rest)
          | _ => fail .invalidEscape (afterHex 4 rest)
        else withItem (.char (unescape e)) (stringPieces close rest)
    else withItem (.char c) (stringPieces close rest)

def stringBody (close : Char) (s : List Char) : Reading (List Char) :=
  match stringPieces close s with
  | .ok (pieces, rest) => .ok (decodePieces pieces, rest)
  | .error fault => .error fault

def takeOne (wanted : Char → Bool) : List Char → List Char × List Char
  | [] => ([], [])
  | c :: rest => if wanted c then ([c], rest) else ([], c :: rest)

def exponent (s : List Char) : Reading (List Char) :=
  match takeOne (fun c => c == 'e' || c == 'E') s with
  | ([], _) => .ok ([], s)
  | (mark, s) =>
    let (sign, s) := takeOne (fun c => c == '+' || c == '-') s
    let digits := s.takeWhile isDecimalDigit
    if digits.isEmpty then fail .invalidExponent s
    else .ok (mark ++ sign ++ digits, s.dropWhile isDecimalDigit)

/-- Reads the digits of a number with at most one point among them. -/
def mantissa (s : List Char) : Reading (List Char) :=
  let before := s.takeWhile isDecimalDigit
  match takeOne (· == '.') (s.dropWhile isDecimalDigit) with
  | ([], s) => if before.isEmpty then fail .invalidNumber s else .ok (before, s)
  | (point, s) =>
    let after := s.takeWhile isDecimalDigit
    let rest := s.dropWhile isDecimalDigit
    if before.isEmpty && after.isEmpty then fail .invalidNumber rest
    else .ok (before ++ point ++ after, rest)

def number (s : List Char) : Reading (List Char) :=
  let (sign, s) := takeOne (· == '-') s
  match mantissa s with
  | .error fault => .error fault
  | .ok (digits, s) =>
    match exponent s with
    | .ok (mark, rest) => .ok (sign ++ digits ++ mark, rest)
    | .error fault => .error fault

def fields (e : Expr) : List Char → Reading Expr
  | '.' :: rest =>
    let property := rest.takeWhile isWordChar
    if property.isEmpty then fail .missingProperty rest
    else fields (.member e (String.ofList property)) (rest.dropWhile isWordChar)
  | s => .ok (e, s)
termination_by s => s.length
decreasing_by
  have := (List.dropWhile_sublist isWordChar (l := rest)).length_le
  simp only [List.length_cons]
  omega

def word (s : List Char) : Reading Expr :=
  let name := String.ofList (s.takeWhile isWordChar)
  let rest := s.dropWhile isWordChar
  if name = "true" then .ok (.bool true, rest)
  else if name = "false" then .ok (.bool false, rest)
  else if name = "null" then .ok (.null, rest)
  else if isIdentifier name then fields (.ident name) rest
  else fail (.reservedValue name) s

def expect (wanted : Char) (s : List Char) : Reading Unit :=
  match skipBlanks s with
  | [] => fail (.expectedAtEnd wanted) []
  | c :: rest => if c = wanted then .ok ((), rest) else fail (.expected wanted c) (c :: rest)

def isQuote (c : Char) : Bool := c == '"' || c == '\''

def startsNumber (c : Char) : Bool := isDecimalDigit c || c == '-' || c == '.'

/-- Reads a key; a name that stands alone may also be a shorthand property. -/
def key : List Char → Reading (PropKey × Option String)
  | [] => fail .unterminatedObject []
  | c :: rest =>
    if isQuote c then
      match stringBody c rest with
      | .ok (text, after) => .ok ((.quoted (String.ofList text), none), after)
      | .error fault => .error fault
    else if isDecimalDigit c then
      match number (c :: rest) with
      | .ok (spelling, after) => .ok ((.quoted (String.ofList spelling), none), after)
      | .error fault => .error fault
    else if isWordStart c then
      let name := String.ofList ((c :: rest).takeWhile isWordChar)
      .ok ((.bare name, some name), (c :: rest).dropWhile isWordChar)
    else fail (.unexpectedInKey c) (c :: rest)

def atPropertyEnd : List Char → Bool
  | c :: _ => c == ',' || c == '}'
  | [] => false

mutual

def value : Nat → List Char → Reading Expr
  | 0, s => fail .unexpectedEnd s
  | fuel + 1, s =>
    match skipBlanks s with
    | [] => fail .unexpectedEnd []
    | c :: rest =>
      if c = '{' then
        match properties fuel rest with
        | .ok (props, after) => .ok (.object props, after)
        | .error fault => .error fault
      else if c = '[' then
        match items fuel rest with
        | .ok (es, after) => .ok (.array es, after)
        | .error fault => .error fault
      else if c = '(' then
        match value fuel rest with
        | .ok (e, after) =>
          match expect ')' after with
          | .ok (_, after) => .ok (e, after)
          | .error fault => .error fault
        | .error fault => .error fault
      else if isQuote c then
        match stringBody c rest with
        | .ok (text, after) => .ok (.str (String.ofList text), after)
        | .error fault => .error fault
      else if startsNumber c then
        match number (c :: rest) with
        | .ok (spelling, after) => .ok (.num (String.ofList spelling), after)
        | .error fault => .error fault
      else if isWordStart c then word (c :: rest)
      else fail (.unexpected c) (c :: rest)

def items : Nat → List Char → Reading (List Expr)
  | 0, s => fail .unexpectedEnd s
  | fuel + 1, s =>
    match skipBlanks s with
    | ']' :: rest => .ok ([], rest)
    | s =>
      match value fuel s with
      | .error fault => .error fault
      | .ok (e, after) =>
        match skipBlanks after with
        | [] => fail .unterminatedList []
        | c :: rest =>
          if c = ',' then
            match items fuel rest with
            | .ok (es, after) => .ok (e :: es, after)
            | .error fault => .error fault
          else if c = ']' then .ok ([e], rest)
          else fail (.expectedInList c) (c :: rest)

def properties : Nat → List Char → Reading (List (PropKey × Expr))
  | 0, s => fail .unexpectedEnd s
  | fuel + 1, s =>
    match skipBlanks s with
    | '}' :: rest => .ok ([], rest)
    | s =>
      match property fuel s with
      | .error fault => .error fault
      | .ok (prop, after) =>
        match skipBlanks after with
        | [] => fail .unterminatedObject []
        | c :: rest =>
          if c = ',' then
            match properties fuel rest with
            | .ok (props, after) => .ok (prop :: props, after)
            | .error fault => .error fault
          else if c = '}' then .ok ([prop], rest)
          else fail (.expectedInObject c) (c :: rest)

def property : Nat → List Char → Reading (PropKey × Expr)
  | 0, s => fail .unexpectedEnd s
  | fuel + 1, s =>
    match key s with
    | .error fault => .error fault
    | .ok ((k, shorthand), after) =>
      let after := skipBlanks after
      match shorthand, atPropertyEnd after with
      | some name, true =>
        if isIdentifier name then .ok ((k, .ident name), after)
        else fail (.reservedShorthand name) after
      | _, _ =>
        match expect ':' after with
        | .error fault => .error fault
        | .ok (_, after) =>
          match value fuel after with
          | .ok (e, after) => .ok ((k, e), after)
          | .error fault => .error fault

end

/-- Enough for any text: between two characters read there are at most three nested calls. -/
def fuelFor (s : List Char) : Nat := 3 * s.length + 3

def whole (s : List Char) : Except Fault Expr :=
  match value (fuelFor s) s with
  | .error fault => .error fault
  | .ok (e, after) =>
    match skipBlanks after with
    | [] => .ok e
    | c :: rest => .error ⟨.unexpectedAfterValue c, c :: rest⟩

structure Error where
  cause : Cause
  offset : Nat
  deriving DecidableEq, Repr

def Error.message (e : Error) : String :=
  e.cause.message ++ " at offset " ++ String.ofList (natDigits e.offset)

def parse (source : String) : Except Error Expr :=
  match whole source.toList with
  | .ok e => .ok e
  | .error fault =>
    .error ⟨fault.cause, utf8Length source.toList - utf8Length fault.unread⟩

end StepFlow.Script.Literal
