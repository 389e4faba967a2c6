import StepFlow.Shell.Format

/-!
Conditions on texts, integers and files, joined by `-a`, `-o` and negation.
-/
namespace StepFlow.Shell
open Workspace

def integer (s : String) : Except String Int :=
  let cs := Text.trim s.toList
  let digits := match cs with
    | '-' :: cs => cs
    | '+' :: cs => cs
    | cs => cs
  if digits.isEmpty || !digits.all Char.isDigit then .error ("Illegal number: " ++ s)
  else .ok (intOf (String.ofList cs))

def holdsUnary (s : State) (op arg : String) : Option Bool :=
  let entry := (s.files.find arg).toOption.map Prod.snd
  match op with
  | "-n" => some (arg != "")
  | "-z" => some (arg == "")
  | "-e" => some entry.isSome
  | "-d" => some (entry.any Entry.isDirectory)
  | "-f" => some (entry.any fun e => !e.isDirectory)
  | "-r" | "-w" => some entry.isSome
  | "-x" => some (entry.any fun
      | .file _ executable => executable
      | .directory => true)
  | "-s" => some (entry.any fun
      | .file contents _ => contents != ""
      | .directory => true)
  | "-t" | "-L" | "-h" => some false
  | _ => none

def comparisons : List (String × (Int → Int → Bool)) :=
  [("-eq", fun a b => a == b), ("-ne", fun a b => a != b), ("-lt", fun a b => a < b),
    ("-le", fun a b => a ≤ b), ("-gt", fun a b => b < a), ("-ge", fun a b => b ≤ a)]

def holdsBinary (a op b : String) : Option (Except String Bool) :=
  match op with
  | "=" | "==" => some (.ok (a == b))
  | "!=" => some (.ok (a != b))
  | _ => (comparisons.lookup op).map fun compare => do
    let a ← integer a
    let b ← integer b
    return compare a b

def holds (s : State) : Nat → List String → Except String Bool
  | 0, _ => .ok false
  | _, [] => .ok false
  | _, [a] => .ok (a != "")
  | fuel + 1, "!" :: rest => (holds s fuel rest).map (!·)
  | _, [op, a] =>
    match holdsUnary s op a with
    | some h => .ok h
    | none => .error (op ++ ": unexpected operator")
  | fuel + 1, args =>
    match args with
    | [a, op, b] => (holdsBinary a op b).getD (combined fuel args)
    | _ => combined fuel args
where
  combined (fuel : Nat) (args : List String) : Except String Bool :=
    match args.idxOf? "-o" with
    | some i => return (← holds s fuel (args.take i)) || (← holds s fuel (args.drop (i + 1)))
    | none =>
      match args.idxOf? "-a" with
      | some i => return (← holds s fuel (args.take i)) && (← holds s fuel (args.drop (i + 1)))
      | none => .error (args.head?.getD "" ++ ": unexpected operator")

def testAs (name : String) : Tool := fun args s =>
  match holds s (args.length + 1) args with
  | .ok true => s.done 0
  | .ok false => s.done 1
  | .error why => s.report (name ++ ": " ++ why) 2

def bracket : Tool := fun args s =>
  match args.getLast? with
  | some "]" => testAs "[" args.dropLast s
  | _ => s.report "[: missing ]" 2

end StepFlow.Shell
