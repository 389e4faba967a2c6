import StepFlow.Script.Literal

/-!
Reading of printed scripts. The readers are made for what the printer writes: they expect the
blanks and the line breaks where it puts them, skip the indentation of a line, and need not refuse
what it never writes. A word decides what begins with it, since no identifier is a reserved word;
only `async` is an identifier as well, and is told apart by what comes behind it.
-/
namespace StepFlow.Script.Source
open Text StepFlow.Flow

abbrev Reader (α : Type) := List Char → Option (α × List Char)

def word (s : List Char) : String × List Char :=
  (String.ofList (s.takeWhile isWordChar), s.dropWhile isWordChar)

def comparisons : List Comparison := [.gt, .lt, .ge, .le, .eq, .ne]

def comparison? : Reader Comparison := fun s =>
  comparisons.findSome? fun c =>
    (stripStart? (' ' :: c.symbol.toList ++ [' ']) s).map fun rest => (c, rest)

def text (s : List Char) : Option (String × List Char) :=
  match Literal.stringBody '"' s with
  | .ok (t, rest) => some (String.ofList t, rest)
  | .error _ => none

def constantOrName (name : String) : Option Expr :=
  if name = "true" then some (.bool true)
  else if name = "false" then some (.bool false)
  else if name = "null" then some .null
  else if isIdentifier name then some (.ident name)
  else none

section
variable {α : Type} (ending : List Char) (item : Reader α)

def moreItems : Nat → Reader (List α)
  | 0, _ => none
  | n + 1, s =>
    match stripStart? ending s with
    | some rest => some ([], rest)
    | none => do
      let s ← stripStart? ", ".toList s
      let (a, s) ← item s
      let (others, s) ← moreItems n s
      return (a :: others, s)

def items (n : Nat) : Reader (List α) := fun s =>
  match stripStart? ending s with
  | some rest => some ([], rest)
  | none => do
    let (a, s) ← item s
    let (others, s) ← moreItems ending item n s
    return (a :: others, s)

end

section
variable (expr : Reader Expr) (stmt : Reader Stmt) (n : Nat)

def key : Reader PropKey
  | '"' :: s => do
    let (t, s) ← text s
    return (.quoted t, s)
  | s => some (.bare (word s).1, (word s).2)

def prop : Reader (PropKey × Expr) := fun s => do
  let (k, s) ← key s
  let s ← stripStart? ": ".toList s
  let (e, s) ← expr s
  return ((k, e), s)

def props : Reader (List (PropKey × Expr))
  | '}' :: s => some ([], s)
  | ' ' :: s => do
    let (p, s) ← prop expr s
    let (others, s) ← moreItems [' ', '}'] (prop expr) n s
    return (p :: others, s)
  | _ => none

def head : Reader Expr
  | [] => none
  | c :: s =>
    if c = '(' then do
      let (e, s) ← expr s
      let s ← stripStart? [')'] s
      return (e, s)
    else if c = '[' then do
      let (es, s) ← items [']'] expr n s
      return (.array es, s)
    else if c = '"' then do
      let (t, s) ← text s
      return (.str t, s)
    else if Literal.startsNumber c then
      match Literal.number (c :: s) with
      | .ok (spelling, s) => some (.num (String.ofList spelling), s)
      | .error _ => none
    else do
      let e ← constantOrName (word (c :: s)).1
      return (e, (word (c :: s)).2)

def suffixes : Nat → Expr → Reader Expr
  | k + 1, e, '.' :: s => suffixes k (.member e (word s).1) (word s).2
  | k + 1, e, '(' :: s => do
    let (args, s) ← items [')'] expr n s
    suffixes k (.call e args) s
  | _, e, s => some (e, s)

def operand : Reader Expr := fun s => do
  let (e, s) ← head expr n s
  suffixes expr n n e s

def lines : Nat → Reader (List Stmt)
  | 0, _ => none
  | k + 1, s =>
    match s.dropWhile (· == ' ') with
    | [] => some ([], [])
    | c :: rest =>
      if c = '}' then some ([], rest)
      else do
        let (a, s) ← stmt (c :: rest)
        let s ← stripStart? ['\n'] s
        let (others, s) ← lines k s
        return (a :: others, s)

def block : Reader (List Stmt)
  | '{' :: '}' :: s => some ([], s)
  | '{' :: '\n' :: s => lines stmt n s
  | _ => none

def prefixed (s : List Char) : Option (Expr × List Char) :=
  match s with
  | '{' :: s => do
    let (ps, s) ← props expr n s
    return (.object ps, s)
  | s => do
    let s ← stripStart? "await ".toList s
    let (e, s) ← operand expr n s
    return (.await e, s)

def anyExpr : Reader Expr := fun s =>
  match operand expr n s with
  | none => prefixed expr n s
  | some (left, s) =>
    match comparison? s with
    | some (c, s) => do
      let (right, s) ← operand expr n s
      return (.binary c left right, s)
    | none =>
      match stripStart? " function () ".toList s with
      | some s => do
        let (body, s) ← block stmt n s
        return (.asyncFunction body, s)
      | none => some (left, s)

def bound (bind : String → Expr → Stmt) : Reader Stmt := fun s => do
  let after ← stripStart? " = ".toList (word s).2
  let (e, after) ← expr after
  let after ← stripStart? [';'] after
  return (bind (word s).1 e, after)

def conditional : Reader Stmt := fun s => do
  let (test, s) ← expr s
  let s ← stripStart? ") ".toList s
  let (body, s) ← block stmt n s
  match stripStart? " else ".toList s with
  | none => return (.ifElse test body none, s)
  | some s =>
    let (alternate, s) ← stmt s
    return (.ifElse test body (some alternate), s)

def loop : Reader Stmt := fun s => do
  let after ← stripStart? " of ".toList (word s).2
  let (iterable, after) ← expr after
  let after ← stripStart? ") ".toList after
  let (body, after) ← block stmt n after
  return (.forOf (word s).1 iterable body, after)

def marked (s : List Char) : Option (Stmt × List Char) :=
  match stripStart? "const ".toList s with
  | some s => bound expr .const s
  | none =>
    match stripStart? "let ".toList s with
    | some s => bound expr .declare s
    | none =>
      match stripStart? "if (".toList s with
      | some s => conditional expr stmt n s
      | none =>
        match stripStart? "for (const ".toList s with
        | some s => loop expr stmt n s
        | none => do
          let (body, s) ← block stmt n s
          return (.block body, s)

def anyStmt : Reader Stmt := fun s =>
  match expr s with
  | some (e, ';' :: s) => some (.expr e, s)
  | some (.ident _, ' ' :: '=' :: _) => bound expr .assign s
  | _ => marked expr stmt n s

end

/-- The readers of what is nested less than `n` times and no longer than `n`. -/
def readers : Nat → Reader Expr × Reader Stmt
  | 0 => (fun _ => none, fun _ => none)
  | n + 1 =>
    (anyExpr (readers n).1 (readers n).2 n, anyStmt (readers n).1 (readers n).2 n)

def script (n : Nat) (s : List Char) : Option (List Stmt) :=
  (lines (readers n).2 n s).map Prod.fst

end StepFlow.Script.Source
