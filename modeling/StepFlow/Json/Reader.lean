import StepFlow.Json.Value
import StepFlow.Text.Basic

/-!
Strict reading of JSON text. Blanks are the four of the standard, a surrogate escape has to be one
of a pair, and arrays and objects nest at most 127 levels. A fault keeps how many bytes were left
unread where it was noticed, from which its line and column are found.
-/
namespace StepFlow.Json
open Text

inductive Cause where
  | endInValue
  | endInList
  | endInObject
  | endInString
  | expectedColon
  | expectedListEnd
  | expectedObjectEnd
  | expectedWord
  | expectedValue
  | invalidEscape
  | invalidNumber
  | numberOutOfRange
  | controlCharacter
  | keyNotString
  | loneSurrogate
  | unfinishedPair
  | trailingComma
  | trailingCharacters
  | tooDeep
  deriving DecidableEq, Repr

def Cause.message : Cause → String
  | endInValue => "EOF while parsing a value"
  | endInList => "EOF while parsing a list"
  | endInObject => "EOF while parsing an object"
  | endInString => "EOF while parsing a string"
  | expectedColon => "expected `:`"
  | expectedListEnd => "expected `,` or `]`"
  | expectedObjectEnd => "expected `,` or `\x7d`"
  | expectedWord => "expected ident"
  | expectedValue => "expected value"
  | invalidEscape => "invalid escape"
  | invalidNumber => "invalid number"
  | numberOutOfRange => "number out of range"
  | controlCharacter => "control character (\\u0000-\\u001F) found while parsing a string"
  | keyNotString => "key must be a string"
  | loneSurrogate => "lone leading surrogate in hex escape"
  | unfinishedPair => "unexpected end of hex escape"
  | trailingComma => "trailing comma"
  | trailingCharacters => "trailing characters"
  | tooDeep => "recursion limit exceeded"

/-- Whether the text ended too early, rather than going on wrongly. -/
def Cause.isEnd : Cause → Bool
  | endInValue | endInList | endInObject | endInString => true
  | _ => false

structure Fault where
  cause : Cause
  bytesLeft : Nat
  deriving DecidableEq, Repr

abbrev Reading (α : Type) := Except Fault (α × List Char)

/-- A fault noticed before the next byte is taken. -/
def faultBefore {α : Type} (cause : Cause) (unread : List Char) : Reading α :=
  .error ⟨cause, utf8Length unread⟩

/-- A fault noticed at the next byte, if there is one. -/
def faultAt {α : Type} (cause : Cause) (unread : List Char) : Reading α :=
  .error ⟨cause, utf8Length unread - 1⟩

def isSpace (c : Char) : Bool := c == ' ' || c == '\n' || c == '\t' || c == '\r'

def skipSpace (s : List Char) : List Char := s.dropWhile isSpace

def expectWord : List Char → List Char → Reading Unit
  | [], s => .ok ((), s)
  | _ :: _, [] => faultBefore .endInValue []
  | w :: word, c :: s => if c = w then expectWord word s else faultAt .expectedWord (c :: s)

def digitValue (c : Char) : Nat := c.toNat - '0'.toNat

def startsWithDigit : List Char → Bool
  | c :: _ => isDecimalDigit c
  | [] => false

/-- Appends digits to a number for as long as it stays below `2 ^ 64`. -/
def absorbDigits (n : Nat) : List Char → Nat × List Char
  | [] => (n, [])
  | c :: rest =>
    if isDecimalDigit c && n * 10 + digitValue c < 1 <<< 64 then
      absorbDigits (n * 10 + digitValue c) rest
    else (n, c :: rest)

/-- A number as read: its sign, its leading digits, and the power of ten they are meant with. -/
structure Parts where
  negative : Bool
  digits : Nat
  exponent : Int

def Parts.toDouble? (p : Parts) : Option Decimal.Double :=
  (Decimal.Double.ofDecimal p.digits p.exponent).map fun x => if p.negative then x.neg else x

def finish (p : Parts) (rest : List Char) : Reading Number :=
  match p.toDouble? with
  | some x => .ok (.double x, rest)
  | none => faultBefore .numberOutOfRange rest

/-- Appends digits to an exponent; beyond `2 ^ 31 - 1` the number is too large or is zero. -/
def exponentDigits (p : Parts) (negative : Bool) (e : Nat) : List Char → Reading Number
  | [] => finish { p with exponent := p.exponent + (if negative then -(e : Int) else e) } []
  | c :: rest =>
    if isDecimalDigit c then
      let more := e * 10 + digitValue c
      if more < 1 <<< 31 then exponentDigits p negative more rest
      else if p.digits != 0 && !negative then faultBefore .numberOutOfRange rest
      else .ok (.double (.zero p.negative), rest.dropWhile isDecimalDigit)
    else finish { p with exponent := p.exponent + (if negative then -(e : Int) else e) } (c :: rest)

def exponentPart (p : Parts) (s : List Char) : Reading Number :=
  let (negative, s) := match s with
    | '+' :: rest => (false, rest)
    | '-' :: rest => (true, rest)
    | s => (false, s)
  match s with
  | [] => faultBefore .endInValue []
  | c :: rest =>
    if isDecimalDigit c then exponentDigits p negative (digitValue c) rest
    else faultAt .invalidNumber (c :: rest)

def exponentOrEnd (p : Parts) (s : List Char) : Reading Number :=
  match s with
  | c :: rest => if c = 'e' ∨ c = 'E' then exponentPart p rest else finish p s
  | [] => finish p []

/-- Reads what follows a decimal point. Digits that no longer fit are dropped. -/
def fractionPart (p : Parts) (s : List Char) : Reading Number :=
  let (digits, rest) := absorbDigits p.digits s
  let count := s.length - rest.length
  let p := { p with digits, exponent := p.exponent - (count : Int) }
  if startsWithDigit rest then exponentOrEnd p (rest.dropWhile isDecimalDigit)
  else if count = 0 then
    match rest with
    | [] => faultAt .endInValue []
    | _ :: _ => faultAt .invalidNumber rest
  else exponentOrEnd p rest

def numberTail (p : Parts) (s : List Char) : Reading Number :=
  match s with
  | '.' :: rest => fractionPart p rest
  | s => exponentOrEnd p s

/-- Reads a number after its sign. Without point and exponent it is an integer if it fits into 64
bits; a negative zero does not count as an integer. -/
def numberBody (negative : Bool) (s : List Char) : Reading Number :=
  match s with
  | [] => faultBefore .endInValue []
  | c :: rest =>
    if !isDecimalDigit c then faultAt .invalidNumber (c :: rest)
    else if c = '0' && startsWithDigit rest then faultAt .invalidNumber rest
    else
      let (digits, after) := absorbDigits (digitValue c) rest
      let p : Parts := ⟨negative, digits, 0⟩
      if startsWithDigit after then
        let surplus := after.takeWhile isDecimalDigit
        numberTail { p with exponent := surplus.length } (after.dropWhile isDecimalDigit)
      else match after with
        | '.' :: _ => numberTail p after
        | 'e' :: _ => numberTail p after
        | 'E' :: _ => numberTail p after
        | _ =>
          if !negative then .ok (.int digits, after)
          else if 0 < digits && digits ≤ 1 <<< 63 then .ok (.int (-(digits : Int)), after)
          else finish p after

def withChar (c : Char) : Reading (List Char) → Reading (List Char)
  | .ok (s, rest) => .ok (c :: s, rest)
  | .error fault => .error fault

def hexFault {α : Type} (s : List Char) : Reading α :=
  if utf8Length s < 4 then .error ⟨.endInString, 0⟩
  else .error ⟨.invalidEscape, utf8Length s - 4⟩

def pairFault {α : Type} : List Char → Reading α
  | [] => faultBefore .endInString []
  | c :: s =>
    if c = '\\' then
      match s with
      | [] => faultBefore .endInString []
      | d :: s =>
        if d = 'u' then
          match s with
          | h₁ :: h₂ :: h₃ :: h₄ :: after =>
            if (hexValue? h₁ h₂ h₃ h₄).isSome then faultBefore .loneSurrogate after else hexFault s
          | _ => hexFault s
        else faultAt .unfinishedPair (d :: s)
    else faultAt .unfinishedPair (c :: s)

def simpleEscape? (c : Char) : Option Char :=
  if c = '"' then some '"'
  else if c = '\\' then some '\\'
  else if c = '/' then some '/'
  else if c = 'b' then some '\x08'
  else if c = 'f' then some '\x0c'
  else if c = 'n' then some '\n'
  else if c = 'r' then some '\r'
  else if c = 't' then some '\t'
  else none

def stringBody : List Char → Reading (List Char)
  | [] => faultBefore .endInString []
  | c :: rest =>
    if c = '"' then .ok ([], rest)
    else if c = '\\' then
      match rest with
      | [] => faultBefore .endInString []
      | e :: rest =>
        if e = 'u' then
          match rest with
          | h₁ :: h₂ :: h₃ :: h₄ :: after =>
            match hexValue? h₁ h₂ h₃ h₄ with
            | none => hexFault rest
            | some unit =>
              if isLowSurrogate unit then faultBefore .loneSurrogate after
              else if isHighSurrogate unit then
                match after with
                | '\\' :: 'u' :: l₁ :: l₂ :: l₃ :: l₄ :: afterLow =>
                  match hexValue? l₁ l₂ l₃ l₄ with
                  | some low =>
                    if isLowSurrogate low then
                      withChar (surrogatePair unit low) (stringBody afterLow)
                    else pairFault after
                  | none => pairFault after
                | _ => pairFault after
              else withChar (Char.ofNat unit) (stringBody after)
          | _ => hexFault rest
        else match simpleEscape? e with
          | some d => withChar d (stringBody rest)
          | none => faultAt .invalidEscape (e :: rest)
    else if c.toNat < 0x20 then faultAt .controlCharacter (c :: rest)
    else withChar c (stringBody rest)

def stringValue (s : List Char) : Reading String :=
  match stringBody s with
  | .ok (text, after) => .ok (String.ofList text, after)
  | .error fault => .error fault

def expectColon (s : List Char) : Reading Unit :=
  match skipSpace s with
  | [] => faultAt .endInObject []
  | c :: rest => if c = ':' then .ok ((), rest) else faultAt .expectedColon (c :: rest)

/-- Goes on to the next item of an array, or over the end of the array. The first item stands right
behind the opening bracket, every other one behind a comma. -/
def nextItem (first : Bool) (s : List Char) : Reading Bool :=
  match skipSpace s with
  | [] => faultAt .endInList []
  | c :: rest =>
    if c = ']' then .ok (false, rest)
    else if first then .ok (true, c :: rest)
    else if c = ',' then
      match skipSpace rest with
      | [] => faultAt .endInValue []
      | d :: rest => if d = ']' then faultAt .trailingComma (d :: rest) else .ok (true, d :: rest)
    else faultAt .expectedListEnd (c :: rest)

def keyBody (s : List Char) : Reading (Option String) :=
  match stringValue s with
  | .ok (key, after) => .ok (some key, after)
  | .error fault => .error fault

def nextKey (first : Bool) (s : List Char) : Reading (Option String) :=
  match skipSpace s with
  | [] => faultAt .endInObject []
  | c :: rest =>
    if c = '}' then .ok (none, rest)
    else if first then
      if c = '"' then keyBody rest else faultAt .keyNotString (c :: rest)
    else if c = ',' then
      match skipSpace rest with
      | [] => faultAt .endInValue []
      | d :: rest =>
        if d = '"' then keyBody rest
        else if d = '}' then faultAt .trailingComma (d :: rest)
        else faultAt .keyNotString (d :: rest)
    else faultAt .expectedObjectEnd (c :: rest)

mutual

/-- Reads a value. `fuel` bounds the number of nested calls and `room` the nesting of the text. -/
def value : Nat → Nat → List Char → Reading Json
  | 0, _, s => faultAt .endInValue s
  | fuel + 1, room, s =>
    match skipSpace s with
    | [] => faultAt .endInValue []
    | c :: rest =>
      if c = '"' then
        match stringValue rest with
        | .ok (text, after) => .ok (.str text, after)
        | .error fault => .error fault
      else if c = '[' then
        match room with
        | 0 => faultAt .tooDeep (c :: rest)
        | room + 1 =>
          match items fuel room true rest with
          | .ok (js, after) => .ok (.arr js, after)
          | .error fault => .error fault
      else if c = '{' then
        match room with
        | 0 => faultAt .tooDeep (c :: rest)
        | room + 1 =>
          match members fuel room true rest with
          | .ok (ms, after) => .ok (.obj ms, after)
          | .error fault => .error fault
      else if c = '-' then
        match numberBody true rest with
        | .ok (n, after) => .ok (.num n, after)
        | .error fault => .error fault
      else if isDecimalDigit c then
        match numberBody false (c :: rest) with
        | .ok (n, after) => .ok (.num n, after)
        | .error fault => .error fault
      else if c = 'n' then
        match expectWord "ull".toList rest with
        | .ok (_, after) => .ok (.null, after)
        | .error fault => .error fault
      else if c = 't' then
        match expectWord "rue".toList rest with
        | .ok (_, after) => .ok (.bool true, after)
        | .error fault => .error fault
      else if c = 'f' then
        match expectWord "alse".toList rest with
        | .ok (_, after) => .ok (.bool false, after)
        | .error fault => .error fault
      else faultAt .expectedValue (c :: rest)

def items : Nat → Nat → Bool → List Char → Reading (List Json)
  | 0, _, _, s => faultAt .endInList s
  | fuel + 1, room, first, s =>
    match nextItem first s with
    | .error fault => .error fault
    | .ok (false, after) => .ok ([], after)
    | .ok (true, after) =>
      match value fuel room after with
      | .error fault => .error fault
      | .ok (j, after) =>
        match items fuel room false after with
        | .ok (js, after) => .ok (j :: js, after)
        | .error fault => .error fault

def members : Nat → Nat → Bool → List Char → Reading (List (String × Json))
  | 0, _, _, s => faultAt .endInObject s
  | fuel + 1, room, first, s =>
    match nextKey first s with
    | .error fault => .error fault
    | .ok (none, after) => .ok ([], after)
    | .ok (some key, after) =>
      match expectColon after with
      | .error fault => .error fault
      | .ok (_, after) =>
        match value fuel room after with
        | .error fault => .error fault
        | .ok (j, after) =>
          match members fuel room false after with
          | .ok (ms, after) => .ok ((key, j) :: ms, after)
          | .error fault => .error fault

end

def maxDepth : Nat := 127

/-- Enough for any text: of two nested calls at least one takes a character. -/
def fuelFor (s : List Char) : Nat := 2 * s.length + 2

def nextValue (room : Nat) (s : List Char) : Reading Json := value (fuelFor s) room s

def endOfText {α : Type} (result : α) (s : List Char) : Except Fault α :=
  match skipSpace s with
  | [] => .ok result
  | c :: rest => .error ⟨.trailingCharacters, utf8Length (c :: rest) - 1⟩

def readChars (s : List Char) : Except Fault Json :=
  match nextValue maxDepth s with
  | .error fault => .error fault
  | .ok (j, after) => endOfText j after

def read (text : String) : Except Fault Json := readChars text.toList

def readSettled (text : String) : Except Fault Json := (read text).map settle

/-- A place in a text: lines count from one, columns are the bytes before it on its line. -/
structure Position where
  line : Nat
  column : Nat
  deriving DecidableEq, Repr

/-- The place after the first `bytes` bytes; it may be within a character. -/
def Position.after (bytes : Nat) (s : List Char) : Position :=
  go bytes s 1 0
where
  go : Nat → List Char → Nat → Nat → Position
    | _, [], line, column => ⟨line, column⟩
    | bytes, c :: s, line, column =>
      if bytes < c.utf8Size then ⟨line, column + bytes⟩
      else if c = '\n' then go (bytes - 1) s (line + 1) 0
      else go (bytes - c.utf8Size) s line (column + c.utf8Size)

def Position.ofBytesLeft (bytesLeft : Nat) (s : List Char) : Position :=
  .after (utf8Length s - bytesLeft) s

def Position.print (p : Position) : String :=
  " at line " ++ String.ofList (natDigits p.line) ++ " column " ++
    String.ofList (natDigits p.column)

def Fault.message (fault : Fault) (s : List Char) : String :=
  fault.cause.message ++ (Position.ofBytesLeft fault.bytesLeft s).print

end StepFlow.Json
