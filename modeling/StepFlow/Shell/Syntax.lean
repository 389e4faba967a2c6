/-!
Scripts of a small shell: words are pieces of text, parameters and commands, quoted or not;
commands are joined by pipes, by success and failure, and in lists.
-/
namespace StepFlow.Shell

inductive Fallback where
  | stand
  | assign
  | fail
  | presence
  deriving DecidableEq, Repr

mutual

/-- A piece of a word; what is quoted is neither split nor taken as a pattern. -/
inductive Piece where
  | text (s : String) (quoted : Bool)
  | param (name : String) (quoted : Bool)
  | orElse (name : String) (fallback : Fallback) (ifEmpty : Bool) (word : List Piece)
      (quoted : Bool)
  | trimmed (name : String) (atEnd greatest : Bool) (pattern : List Piece) (quoted : Bool)
  | malformed
  | length (name : String) (quoted : Bool)
  | command (body : List Item) (quoted : Bool)
  | arith (formula : List Piece) (quoted : Bool)

inductive Redirect where
  | write (fd : Nat) (append : Bool) (target : List Piece)
  | read (source : List Piece)
  | here (body : List Piece)
  | copy (fd : Nat) (source : List Piece)

inductive Command where
  | simple (line : Nat) (settings : List (String × List Piece)) (words : List (List Piece))
  | group (body : List Item)
  | subshell (body : List Item)
  | choose (branches : List (List Item × List Item)) (otherwise : List Item)
  | loop (succeeds : Bool) (test body : List Item)
  | each (name : String) (words : List (List Piece)) (body : List Item)
  | select (word : List Piece) (arms : List (List (List Piece) × List Item))
  | define (name : String) (body : Command)
  | redirected (command : Command) (redirects : List Redirect)

inductive Pipeline where
  | mk (negated : Bool) (commands : List Command)

/-- Pipelines, of which each later one runs if what came before succeeded, or if it failed. -/
inductive Item where
  | mk (first : Pipeline) (rest : List (Bool × Pipeline)) (background : Bool)

end

abbrev Word := List Piece

abbrev Script := List Item

end StepFlow.Shell
