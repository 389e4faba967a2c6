import StepFlow.Shell.Syntax
import StepFlow.Text.Basic

/-!
Reading the characters of a script: blanks, tokens, and text up to a mark. A reader that does not go
on by itself takes some fuel.
-/
namespace StepFlow.Shell

inductive Cause where
  | unexpected (token : String) (wanted : Option String)
  | openQuote
  | openBrace
  deriving Repr

structure Fault where
  line : Nat
  cause : Cause
  deriving Repr

def Cause.message : Cause → String
  | unexpected token none => "Syntax error: " ++ token ++ " unexpected"
  | unexpected token (some wanted) =>
    "Syntax error: " ++ token ++ " unexpected (expecting " ++ wanted ++ ")"
  | openQuote => "Syntax error: Unterminated quoted string"
  | openBrace => "Syntax error: Missing '\x7d'"

structure Input where
  rest : List Char
  line : Nat := 1

abbrev Reader := StateT Input (Except Fault)

namespace Reader

def fail {α : Type} (cause : Cause) : Reader α := do throw ⟨(← get).line, cause⟩

def peek : Reader (Option Char) := return (← get).rest.head?

def peekAt (n : Nat) : Reader (Option Char) := return (← get).rest[n]?

def skip (n : Nat) : Reader Unit := modify fun i =>
  ⟨i.rest.drop n, i.line + (i.rest.take n).count '\n'⟩

def looksAt (s : String) : Reader Bool := return (Text.stripStart? s.toList (← get).rest).isSome

def spanWhile (p : Char → Bool) : Reader String := do
  let taken := (← get).rest.takeWhile p
  skip taken.length
  return String.ofList taken

end Reader

open Reader

def isOperator (c : Char) : Bool := "\n;&|()<>".toList.contains c

def endsWord (c : Char) : Bool := c == ' ' || c == '\t' || isOperator c

def isNameStart (c : Char) : Bool := c.isAlpha || c == '_'

def isNameChar (c : Char) : Bool := c.isAlphanum || c == '_'

/-- Whether a character stands for itself wherever it is. -/
def isPlain (c : Char) : Bool := c.isAlphanum || "_-./:=,+@%".toList.contains c

def skipBlanks : Nat → Reader Unit
  | 0 => return
  | fuel + 1 => do
    match ← peek, ← peekAt 1 with
    | some ' ', _ | some '\t', _ => skip 1; skipBlanks fuel
    | some '\\', some '\n' => skip 2; skipBlanks fuel
    | some '#', _ => let _ ← spanWhile (· != '\n')
    | _, _ => return

def skipLines : Nat → Reader Unit
  | 0 => return
  | fuel + 1 => do
    skipBlanks fuel
    if (← peek) == some '\n' then
      skip 1
      skipLines fuel

def bareWord : Reader String :=
  return String.ofList ((← get).rest.takeWhile fun c => !endsWord c)

def reserved : List String :=
  ["if", "then", "elif", "else", "fi", "do", "done", "while", "until", "for", "in", "case",
    "esac", "\x7b", "\x7d", "!"]

def closing : List String := ["then", "elif", "else", "fi", "do", "done", "esac", "\x7d"]

/-- Text as a complaint shows it. -/
def shown (token : String) : String := "\"" ++ token ++ "\""

def tokenHere : Reader String := do
  match (← get).rest with
  | [] => return "end of file"
  | '\n' :: _ => return "newline"
  | ';' :: ';' :: _ => return shown ";;"
  | '&' :: '&' :: _ => return shown "&&"
  | '|' :: '|' :: _ => return shown "||"
  | '<' :: _ | '>' :: _ => return "redirection"
  | c :: _ =>
    if isOperator c then return shown c.toString
    else
      let word ← bareWord
      return if reserved.contains word then shown word else "word"

/-- Refuses the token that stands here; an end of line that is refused has been passed over. -/
def refuseFor {α : Type} (wanted : Option String) : Reader α := do
  let token ← tokenHere
  if token == "newline" then skip 1
  fail (.unexpected token wanted)

def refuse {α : Type} : Reader α := refuseFor none

def expectWord (fuel : Nat) (word : String) : Reader Unit := do
  skipLines fuel
  if (← bareWord) == word then skip word.length else refuseFor (some (shown word))

def expectBracket (fuel : Nat) : Reader Unit := do
  skipLines fuel
  if (← peek) == some ')' then skip 1 else refuseFor (some (shown ")"))

/-- The lines up to a mark, without tabs before them if that is asked for; they are taken out
behind the end of this line. -/
def takeHere (tabless : Bool) (mark : String) : Reader String := do
  let input ← get
  let here := input.rest.takeWhile (· != '\n')
  let lines := Text.pieces '\n' ((input.rest.drop here.length).drop 1)
  let stripped (l : List Char) := if tabless then l.dropWhile (· == '\t') else l
  let body := lines.takeWhile fun l => stripped l != mark.toList
  let after := (lines.drop body.length).drop 1
  let text := if after.isEmpty && body.getLast? == some [] then body.dropLast else body
  set { input with rest := here ++ ['\n'] ++ ['\n'].intercalate after }
  return String.ofList (text.flatMap fun l => stripped l ++ ['\n'])

/-- Text up to an unescaped backquote, with its escapes undone. -/
def spanBackquoted : Nat → Reader (List Char)
  | 0 => fail .openQuote
  | fuel + 1 => do
    match ← peek, ← peekAt 1 with
    | none, _ => fail .openQuote
    | some '\x60', _ => skip 1; return []
    | some '\\', some c =>
      skip 2
      let rest ← spanBackquoted fuel
      return if "\\$\x60".toList.contains c then c :: rest else '\\' :: c :: rest
    | some c, _ => skip 1; return c :: (← spanBackquoted fuel)

def spanFormula : Nat → Nat → Reader (List Char)
  | 0, _ => fail .openQuote
  | fuel + 1, depth => do
    match ← peek, ← peekAt 1 with
    | none, _ => fail .openQuote
    | some ')', some ')' =>
      if depth = 0 then
        skip 2
        return []
      else
        skip 1
        return ')' :: (← spanFormula fuel (depth - 1))
    | some ')', _ => skip 1; return ')' :: (← spanFormula fuel (depth - 1))
    | some '(', _ => skip 1; return '(' :: (← spanFormula fuel (depth + 1))
    | some c, _ => skip 1; return c :: (← spanFormula fuel depth)

def isSpecialParam (c : Char) : Bool := c.isDigit || "?#@*$!-".toList.contains c

def fallbacks : List (Char × Fallback) :=
  [('-', .stand), ('=', .assign), ('?', .fail), ('+', .presence)]

def readOther {α : Type} (text : List Char) (r : Reader α) : Reader α := do
  let input ← get
  match r ⟨text, input.line⟩ with
  | .ok (a, _) => return a
  | .error e => throw e

end StepFlow.Shell
