import StepFlow.Shell.State

/-!
Patterns: a star stands for any characters, a question mark for one, and brackets for one of a
set; what is quoted stands for itself. A pattern for files is matched segment by segment, and a
name that starts with a dot only by a dot.
-/
namespace StepFlow.Shell
open Workspace

/-- Characters, each with whether it is quoted. -/
abbrev Field := List (Char × Bool)

def Field.text (f : Field) : String := String.ofList (f.map Prod.fst)

def inSet (c : Char) : List Char → Bool
  | a :: '-' :: b :: rest => (a ≤ c && c ≤ b) || inSet c rest
  | a :: rest => a == c || inSet c rest
  | [] => false

def fits : Nat → Field → List Char → Bool
  | 0, _, _ => false
  | _ + 1, [], s => s.isEmpty
  | fuel + 1, ('*', false) :: p, s =>
    fits fuel p s || match s with
      | [] => false
      | _ :: s => fits fuel (('*', false) :: p) s
  | fuel + 1, ('?', false) :: p, s =>
    match s with
    | [] => false
    | _ :: s => fits fuel p s
  | fuel + 1, ('[', false) :: p, s =>
    let set := (p.takeWhile fun c => c.1 != ']').map Prod.fst
    if set.length = p.length then
      match s with
      | '[' :: s => fits fuel p s
      | _ => false
    else
      match s, set with
      | [], _ => false
      | c :: s, '!' :: set => !inSet c set && fits fuel (p.drop (set.length + 2)) s
      | c :: s, set => inSet c set && fits fuel (p.drop (set.length + 1)) s
  | fuel + 1, (a, _) :: p, s =>
    match s with
    | [] => false
    | c :: s => a == c && fits fuel p s

def Field.matches (p : Field) (s : String) : Bool :=
  fits (2 * (p.length + s.length) + 2) p s.toList

def Field.isPattern (p : Field) : Bool :=
  p.any fun (c, quoted) => !quoted && (c == '*' || c == '?' || c == '[')

def Field.segments : Field → List Field
  | [] => [[]]
  | c :: cs =>
    if c.1 == '/' then [] :: segments cs
    else match segments cs with
      | [] => [[c]]
      | f :: fs => (c :: f) :: fs

def matching (t : FileTree) (place : Place) (segment : Field) : List String :=
  (t.names place).filter fun n =>
    (!n.startsWith "." || segment.head?.any fun c => c.1 == '.') && segment.matches n

def expandPaths (t : FileTree) : Place → String → List Field → List String
  | _, done, [] => [done]
  | place, done, segment :: rest =>
    let join (n : String) := if done == "" then n else done ++ (if done == "/" then "" else "/") ++ n
    let last := rest.isEmpty
    if segment.isPattern then
      (matching t place segment).flatMap fun n =>
        let place := place ++ [n]
        if last then [join n]
        else if (t.get? place).any Entry.isDirectory then expandPaths t place (join n) rest
        else []
    else if segment.isEmpty then expandPaths t (if done == "" then [] else place)
      (if done == "" then "/" else done) rest
    else
      match t.follow place [segment.text] with
      | .error _ => []
      | .ok place =>
        if (t.get? place).isSome || !last then expandPaths t place (join segment.text) rest else []

/-- A field as the words it stands for: the files that it matches, or else itself. -/
def Field.words (t : FileTree) (f : Field) : List String :=
  if f.isPattern then
    match expandPaths t t.here "" f.segments with
    | [] => [f.text]
    | paths => paths
  else [f.text]

end StepFlow.Shell
