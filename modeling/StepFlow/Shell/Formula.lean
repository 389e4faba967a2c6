import StepFlow.Shell.Format

/-!
Integer formulas: sums, products, comparisons and operations on bits over numbers and variables.
-/
namespace StepFlow.Shell.Formula

inductive Token where
  | number (n : Int)
  | name (s : String)
  | sign (s : String)
  deriving DecidableEq, Repr

inductive Fault where
  | divisionByZero
  | expectingPrimary
  | expectingEnd
  deriving DecidableEq, Repr

def Fault.message : Fault → String
  | divisionByZero => "division by zero"
  | expectingPrimary => "expecting primary"
  | expectingEnd => "expecting EOF"

def digitOf (c : Char) : Nat :=
  if c.isDigit then c.toNat - '0'.toNat else c.toLower.toNat - 'a'.toNat + 10

/-- A number in base ten, or in base eight or sixteen if a zero stands before it. -/
def numberOf (cs : List Char) : Int :=
  let inBase (base : Nat) (cs : List Char) : Nat := cs.foldl (fun n c => n * base + digitOf c) 0
  match cs with
  | '0' :: 'x' :: cs => inBase 16 cs
  | '0' :: cs => inBase 8 cs
  | cs => inBase 10 cs

def doubleSigns : List String := ["<=", ">=", "==", "!=", "&&", "||", "<<", ">>"]

def tokens : Nat → List Char → Except Fault (List Token)
  | 0, _ => .error .expectingEnd
  | _ + 1, [] => .ok []
  | fuel + 1, c :: cs =>
    if c == ' ' || c == '\t' || c == '\n' then tokens fuel cs
    else if c.isDigit then
      let digits := (c :: cs).takeWhile Char.isAlphanum
      (tokens fuel ((c :: cs).drop digits.length)).map (.number (numberOf digits) :: ·)
    else if c.isAlpha || c == '_' then
      let name := (c :: cs).takeWhile fun c => c.isAlphanum || c == '_'
      (tokens fuel ((c :: cs).drop name.length)).map (.name (String.ofList name) :: ·)
    else
      let two := String.ofList ((c :: cs).take 2)
      if doubleSigns.contains two then (tokens fuel (cs.drop 1)).map (.sign two :: ·)
      else if "+-*/%()<>!&|^~".toList.contains c then (tokens fuel cs).map (.sign c.toString :: ·)
      else .error .expectingEnd

/-- The signs between operands, the weakest first. -/
def levels : List (List String) :=
  [["||"], ["&&"], ["|"], ["^"], ["&"], ["==", "!="], ["<", "<=", ">", ">="], ["<<", ">>"],
    ["+", "-"], ["*", "/", "%"]]

def truth (b : Bool) : Int := if b then 1 else 0

def onWords (op : Int64 → Int64 → Int64) (a b : Int) : Int := (op (.ofInt a) (.ofInt b)).toInt

def apply (sign : String) (a b : Int) : Except Fault Int :=
  match sign with
  | "||" => .ok (truth (a != 0 || b != 0))
  | "&&" => .ok (truth (a != 0 && b != 0))
  | "==" => .ok (truth (a == b))
  | "!=" => .ok (truth (a != b))
  | "<" => .ok (truth (a < b))
  | "<=" => .ok (truth (a ≤ b))
  | ">" => .ok (truth (a > b))
  | ">=" => .ok (truth (a ≥ b))
  | "|" => .ok (onWords (· ||| ·) a b)
  | "^" => .ok (onWords (· ^^^ ·) a b)
  | "&" => .ok (onWords (· &&& ·) a b)
  | "<<" => .ok (onWords (· <<< ·) a b)
  | ">>" => .ok (onWords (· >>> ·) a b)
  | "+" => .ok (a + b)
  | "-" => .ok (a - b)
  | "*" => .ok (a * b)
  | "/" => if b = 0 then .error .divisionByZero else .ok (a.tdiv b)
  | "%" => if b = 0 then .error .divisionByZero else .ok (a.tmod b)
  | _ => .error .expectingEnd

mutual

def level (vars : String → Int) : Nat → List (List String) → List Token →
    Except Fault (Int × List Token)
  | 0, _, _ => .error .expectingPrimary
  | fuel + 1, [], ts => operand vars fuel ts
  | fuel + 1, signs :: below, ts => do
    let (a, ts) ← level vars fuel below ts
    others vars fuel signs below a ts

def others (vars : String → Int) : Nat → List String → List (List String) → Int → List Token →
    Except Fault (Int × List Token)
  | 0, _, _, _, _ => .error .expectingEnd
  | fuel + 1, signs, below, a, .sign s :: ts =>
    if signs.contains s then do
      let (b, ts) ← level vars fuel below ts
      others vars fuel signs below (← apply s a b) ts
    else .ok (a, .sign s :: ts)
  | _ + 1, _, _, a, ts => .ok (a, ts)

def operand (vars : String → Int) : Nat → List Token → Except Fault (Int × List Token)
  | 0, _ => .error .expectingPrimary
  | _ + 1, .number n :: ts => .ok (n, ts)
  | _ + 1, .name s :: ts => .ok (vars s, ts)
  | fuel + 1, .sign "-" :: ts => do
    let (a, ts) ← operand vars fuel ts
    return (-a, ts)
  | fuel + 1, .sign "+" :: ts => operand vars fuel ts
  | fuel + 1, .sign "!" :: ts => do
    let (a, ts) ← operand vars fuel ts
    return (truth (a == 0), ts)
  | fuel + 1, .sign "~" :: ts => do
    let (a, ts) ← operand vars fuel ts
    return (-a - 1, ts)
  | fuel + 1, .sign "(" :: ts => do
    match ← level vars fuel levels ts with
    | (a, .sign ")" :: ts) => return (a, ts)
    | _ => .error .expectingEnd
  | _ + 1, _ => .error .expectingPrimary

end

def value (vars : String → Int) (text : String) : Except Fault Int := do
  let ts ← tokens (text.length + 1) text.toList
  if ts.isEmpty then return 0
  match ← level vars (12 * ts.length + 24) levels ts with
  | (a, []) => return a
  | _ => .error .expectingEnd

end StepFlow.Shell.Formula
