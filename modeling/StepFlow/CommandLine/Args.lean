import StepFlow.Json.Value
import StepFlow.Run.Context

/-!
Arguments of a command line: options with values, operands, and commands. The value of an option
is looked at when the next known argument begins, so that an unknown argument is complained of
before a bad value that stands right before it. A wish for help or for the version is met where it
stands, whatever follows.
-/
namespace StepFlow.CommandLine
open Text

inductive UsageError where
  | unknownCommand (name : String)
  | missingArguments
  | unexpected (arg : String)
  | noValue (arg : String)
  | repeated (arg : String)
  | badValue (value arg reason : String)
  | needlessValue (value arg : String)
  deriving DecidableEq, Repr

def UsageError.message : UsageError → String
  | unknownCommand name => "error: unrecognized subcommand '" ++ name ++ "'"
  | missingArguments => "error: the following required arguments were not provided:"
  | unexpected arg => "error: unexpected argument '" ++ arg ++ "' found"
  | noValue arg => "error: a value is required for '" ++ arg ++ "' but none was supplied"
  | repeated arg => "error: the argument '" ++ arg ++ "' cannot be used multiple times"
  | badValue value arg reason =>
    "error: invalid value '" ++ value ++ "' for '" ++ arg ++ "': " ++ reason
  | needlessValue value arg =>
    "error: unexpected value '" ++ value ++ "' for '" ++ arg ++ "' found; no more were expected"

inductive Kind where
  | path
  | text
  | count
  | pair
  deriving DecidableEq, Repr

structure Param where
  name : Option String
  placeholder : String
  kind : Kind
  about : String
  required : Bool := false
  repeatable : Bool := false
  fallback : Option String := none
  deriving DecidableEq, Repr

def Param.display (p : Param) : String :=
  match p.name with
  | some name => "--" ++ name ++ " <" ++ p.placeholder ++ ">"
  | none =>
    (if p.required then "<" ++ p.placeholder ++ ">" else "[" ++ p.placeholder ++ "]") ++
      if p.repeatable then "..." else ""

def countLimit : Nat := (1 <<< 64) - 1

inductive CountError where
  | empty
  | badDigit
  | tooLarge
  deriving DecidableEq, Repr

def CountError.message : CountError → String
  | empty => "cannot parse integer from empty string"
  | badDigit => "invalid digit found in string"
  | tooLarge => "number too large to fit in target type"

/-- Reads the digits of a count from the left, `n` being what the digits before them write. The
first character decides that is no digit or takes the count beyond its limit. -/
def countDigits (n : Nat) : List Char → Except CountError Nat
  | [] => .ok n
  | c :: cs =>
    if !isDecimalDigit c then .error .badDigit
    else
      let n := n * 10 + (c.toNat - '0'.toNat)
      if n ≤ countLimit then countDigits n cs else .error .tooLarge

def readCount (s : String) : Except CountError Nat :=
  match s.toList with
  | [] => .error .empty
  | '+' :: c :: cs => countDigits 0 (c :: cs)
  | cs => countDigits 0 cs

def Param.refusal? (p : Param) (value : String) : Option UsageError :=
  match p.kind with
  | .path => if value == "" then some (.noValue p.display) else none
  | .text => none
  | .count =>
    match readCount value with
    | .ok _ => none
    | .error e => some (.badValue value p.display e.message)
  | .pair =>
    match Run.parsePair value with
    | .ok _ => none
    | .error e => some (.badValue value p.display e.message)

abbrev Accepted := List (Param × String)

def valueOf? (a : Accepted) (p : Param) : Option String :=
  (a.find? fun q => q.1 == p).map Prod.snd

def valuesOf (a : Accepted) (p : Param) : List String :=
  (a.filter fun q => q.1 == p).map Prod.snd

structure Pending where
  param : Param
  value : Option String := none

def accept (a : Accepted) (p : Param) (value : Option String) : Except UsageError Accepted :=
  match value with
  | none => .error (.noValue p.display)
  | some value =>
    if !p.repeatable && a.any (fun q => q.1 == p) then .error (.repeated p.display)
    else match p.refusal? value with
      | some e => .error e
      | none => .ok (a ++ [(p, value)])

def settle (a : Accepted) : Option Pending → Except UsageError Accepted
  | none => .ok a
  | some p => accept a p.param p.value

structure Parsed where
  accepted : Accepted
  pending : Option Pending
  command : Option (String × List String) := none

structure Grammar where
  name : String
  about : String
  options : List Param := []
  operands : List Param := []
  commands : List (String × String) := []
  helps : Bool := true
  version : Option String := none

inductive Halt where
  | misuse (error : UsageError)
  | help (place : Grammar)
  | version (text : String)

/-- An option that takes no value: whoever gives it wants something else than a call. -/
structure Wish where
  short : Char
  long : String
  about : String
  halt : Halt

namespace Grammar

def option? (g : Grammar) (name : String) : Option Param :=
  g.options.find? fun p => p.name == some name

def hasCommand (g : Grammar) (name : String) : Bool := g.commands.any fun c => c.1 == name

def wishes (g : Grammar) : List Wish :=
  (if g.helps then [⟨'h', "help", "Print help", .help g⟩] else []) ++
    (g.version.map fun text => ⟨'V', "version", "Print version", .version text⟩).toList

def misfit (g : Grammar) (arg : String) (afterDashes : Bool) : UsageError :=
  if g.commands.isEmpty || (afterDashes && g.hasCommand arg) then .unexpected arg
  else .unknownCommand arg

def grant (a : Accepted) (pending : Option Pending) (wish : Wish) : Except Halt Parsed :=
  match settle a pending with
  | .error e => .error (.misuse e)
  | .ok _ => .error wish.halt

/-- Reads arguments from the left; `operands` are those that are still to come. -/
def read (g : Grammar) (operands : List Param) (afterDashes : Bool) (a : Accepted)
    (pending : Option Pending) : List String → Except Halt Parsed
  | [] => .ok { accepted := a, pending }
  | arg :: rest =>
    let awaits := match pending with
      | some p => p.param.name.isSome && p.value.isNone
      | none => false
    let operand : Except Halt Parsed :=
      match operands with
      | p :: operands =>
        match settle a pending with
        | .error e => .error (.misuse e)
        | .ok a => read g operands afterDashes a (some ⟨p, some arg⟩) rest
      | [] => .error (.misuse (g.misfit arg afterDashes))
    if afterDashes then operand
    else if !awaits && g.hasCommand arg then
      .ok { accepted := a, pending, command := some (arg, rest) }
    else if arg == "--" then read g operands true a pending rest
    else
      match arg.toList with
      | '-' :: '-' :: body =>
        let name := String.ofList (body.takeWhile (· != '='))
        let value? := (splitFirst '=' body).map fun parts => String.ofList parts.2
        match g.option? name with
        | none =>
          match g.wishes.find? (·.long == name), value? with
          | none, _ => .error (.misuse (.unexpected ("--" ++ name)))
          | some _, some value => .error (.misuse (.needlessValue value ("--" ++ name)))
          | some wish, none => grant a pending wish
        | some p =>
          match settle a pending with
          | .error e => .error (.misuse e)
          | .ok a =>
            match value? with
            | none => read g operands false a (some ⟨p, none⟩) rest
            | some value =>
              match accept a p (some value) with
              | .error e => .error (.misuse e)
              | .ok a => read g operands false a none rest
      | '-' :: c :: _ =>
        match g.wishes.find? (·.short == c) with
        | none => .error (.misuse (.unexpected (String.ofList ['-', c])))
        | some wish => grant a pending wish
      | _ =>
        match awaits, pending with
        | true, some p => read g operands false a (some { p with value := some arg }) rest
        | _, _ => operand

def readAll (g : Grammar) (args : List String) : Except Halt Accepted := do
  let parsed ← g.read g.operands false [] none args
  match settle parsed.accepted parsed.pending with
  | .error e => throw (.misuse e)
  | .ok a =>
    if (g.options ++ g.operands).all fun p => !p.required || (valueOf? a p).isSome then return a
    else throw (.misuse .missingArguments)

end Grammar

end StepFlow.CommandLine
