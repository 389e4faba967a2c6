import StepFlow.Json.Reader

/-!
Skipping of JSON values that nobody asks for. The grammar is checked as when reading, but not what
the text stands for: a number may be out of range, a surrogate may stand alone, and nothing bounds
the nesting.
-/
namespace StepFlow.Json
open Text

def skipDigits : List Char → Reading Unit
  | [] => faultAt .invalidNumber []
  | c :: rest =>
    if isDecimalDigit c then .ok ((), rest.dropWhile isDecimalDigit)
    else faultAt .invalidNumber (c :: rest)

def skipExponent : List Char → Reading Unit
  | [] => .ok ((), [])
  | c :: rest =>
    if c = 'e' ∨ c = 'E' then
      match rest with
      | '+' :: digits => skipDigits digits
      | '-' :: digits => skipDigits digits
      | digits => skipDigits digits
    else .ok ((), c :: rest)

def skipFraction : List Char → Reading Unit
  | '.' :: rest =>
    match skipDigits rest with
    | .ok (_, after) => skipExponent after
    | .error fault => .error fault
  | s => skipExponent s

def skipNumber : List Char → Reading Unit
  | '0' :: rest => if startsWithDigit rest then faultAt .invalidNumber rest else skipFraction rest
  | s =>
    match skipDigits s with
    | .ok (_, after) => skipFraction after
    | .error fault => .error fault

def skipString : List Char → Reading Unit
  | [] => faultBefore .endInString []
  | c :: rest =>
    if c = '"' then .ok ((), rest)
    else if c = '\\' then
      match rest with
      | [] => faultBefore .endInString []
      | e :: rest =>
        if e = 'u' then
          match rest with
          | h₁ :: h₂ :: h₃ :: h₄ :: after =>
            if (hexValue? h₁ h₂ h₃ h₄).isSome then skipString after else hexFault rest
          | _ => hexFault rest
        else if (simpleEscape? e).isSome then skipString rest
        else faultAt .invalidEscape (e :: rest)
    else if c.toNat < 0x20 then faultAt .controlCharacter (c :: rest)
    else skipString rest

inductive Bracket where
  | list
  | object
  deriving DecidableEq, Repr

inductive Turn where
  | value
  | firstItem
  | firstKey
  | key
  | goOn
  deriving DecidableEq, Repr

def skipKey : List Char → Reading Unit
  | [] => faultAt .endInObject []
  | c :: rest =>
    if c = '"' then
      match skipString rest with
      | .ok (_, after) => expectColon after
      | .error fault => .error fault
    else faultAt .keyNotString (c :: rest)

def skipScalar : List Char → Reading Unit
  | [] => faultAt .endInValue []
  | c :: rest =>
    if c = '"' then skipString rest
    else if c = '-' then skipNumber rest
    else if isDecimalDigit c then skipNumber (c :: rest)
    else if c = 'n' then expectWord "ull".toList rest
    else if c = 't' then expectWord "rue".toList rest
    else if c = 'f' then expectWord "alse".toList rest
    else faultAt .expectedValue (c :: rest)

/-- Goes on until no bracket is open. Of two turns at least one takes a character. -/
def skipTurns : Nat → Turn → List Bracket → List Char → Reading Unit
  | 0, _, _, s => faultAt .endInValue s
  | fuel + 1, .value, stack, s =>
    match skipSpace s with
    | '[' :: rest => skipTurns fuel .firstItem (.list :: stack) rest
    | '{' :: rest => skipTurns fuel .firstKey (.object :: stack) rest
    | s =>
      match skipScalar s with
      | .ok (_, after) => skipTurns fuel .goOn stack after
      | .error fault => .error fault
  | fuel + 1, .firstItem, stack, s =>
    match skipSpace s with
    | [] => faultAt .endInList []
    | ']' :: rest => skipTurns fuel .goOn stack.tail rest
    | s => skipTurns fuel .value stack s
  | fuel + 1, .firstKey, stack, s =>
    match skipSpace s with
    | '}' :: rest => skipTurns fuel .goOn stack.tail rest
    | s => skipTurns fuel .key stack s
  | fuel + 1, .key, stack, s =>
    match skipKey (skipSpace s) with
    | .ok (_, after) => skipTurns fuel .value stack after
    | .error fault => .error fault
  | _ + 1, .goOn, [], s => .ok ((), s)
  | fuel + 1, .goOn, .list :: stack, s =>
    match skipSpace s with
    | [] => faultAt .endInList []
    | ']' :: rest => skipTurns fuel .goOn stack rest
    | ',' :: rest => skipTurns fuel .value (.list :: stack) rest
    | s => faultAt .expectedListEnd s
  | fuel + 1, .goOn, .object :: stack, s =>
    match skipSpace s with
    | [] => faultAt .endInObject []
    | '}' :: rest => skipTurns fuel .goOn stack rest
    | ',' :: rest => skipTurns fuel .key (.object :: stack) rest
    | s => faultAt .expectedObjectEnd s

def skipValue (s : List Char) : Reading Unit := skipTurns (2 * s.length + 2) .value [] s

end StepFlow.Json
