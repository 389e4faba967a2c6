import StepFlow.Shell.Pattern

/-!
Fields: what an expanded word comes to. Text that is quoted is kept as it is, other text may hold
patterns, and values are split at blanks.
-/
namespace StepFlow.Shell

inductive Fragment where
  | kept (s : String)
  | plain (s : String)
  | loose (s : String)
  | cut

def isBlankChar (c : Char) : Bool := c == ' ' || c == '\t' || c == '\n'

/-- Fields that are being put together: those done, last first, and the open one. -/
structure Fields where
  done : List Field := []
  current : Option Field := none

namespace Fields

def add (f : Fields) (cs : Field) : Fields := { f with current := some (f.current.getD [] ++ cs) }

def close (f : Fields) : Fields :=
  match f.current with
  | some c => ⟨c :: f.done, none⟩
  | none => f

def put (f : Fields) : Fragment → Fields
  | .kept s => f.add (s.toList.map fun c => (c, true))
  | .plain s => f.add (s.toList.map fun c => (c, false))
  | .loose s => s.toList.foldl (fun f c => if isBlankChar c then f.close else f.add [(c, false)]) f
  | .cut => { f.close with current := some [] }

def ofFragments (fs : List Fragment) : List Field := ((fs.foldl put {}).close).done.reverse

end Fields

def joinFragments (fs : List Fragment) : String :=
  String.join (fs.map fun
    | .kept s | .plain s | .loose s => s
    | .cut => " ")

def patternOf (fs : List Fragment) : Field :=
  fs.flatMap fun
    | .kept s => s.toList.map fun c => (c, true)
    | .plain s | .loose s => s.toList.map fun c => (c, false)
    | .cut => [(' ', false)]

/-- The start or end of a text that a pattern fits is cut off: the least such part or the
greatest. -/
def trimFitting (pattern : Field) (atEnd greatest : Bool) (text : String) : String :=
  let cs := text.toList
  let cuts := List.range (cs.length + 1)
  let fits (n : Nat) : Bool :=
    pattern.matches (String.ofList (if atEnd then cs.drop (cs.length - n) else cs.take n))
  match (if greatest then cuts.reverse else cuts).find? fits with
  | some n => String.ofList (if atEnd then cs.take (cs.length - n) else cs.drop n)
  | none => text

def paramValue? (s : State) (name : String) : Option String :=
  match name with
  | "?" => some (toString s.status)
  | "#" => some (toString s.args.length)
  | "$" => some (toString s.pid)
  | "@" | "*" => if s.args.isEmpty then none else some (" ".intercalate s.args)
  | "0" => some s.name
  | "!" | "-" => some ""
  | name =>
    match name.toNat? with
    | some n => s.args[n - 1]?
    | none => s.var name

def valueFragment (quoted : Bool) (value : String) : Fragment :=
  if quoted then .kept value else .loose value

def argFragments (args : List String) : List Fragment :=
  match args with
  | [] => []
  | a :: rest => .kept a :: rest.flatMap fun b => [.cut, .kept b]

end StepFlow.Shell
