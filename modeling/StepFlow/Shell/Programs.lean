import StepFlow.Shell.Condition
import StepFlow.Text.Basic

/-!
The small programs that every host has. Each takes its arguments and leaves a state with the status
it ends with.
-/
namespace StepFlow.Shell
open Workspace

def options (args : List String) : List String × List String :=
  args.partition fun a => a.startsWith "-" && a != "-"

/-! ### Input -/

def readRefusal : FileError → String
  | .isDirectory => "Is a directory"
  | .notDirectory => "Not a directory"
  | _ => "No such file or directory"

def readFrom (s : State) (name : String) : Except FileError Bytes :=
  if name == "-" || name == "/dev/stdin" then .ok s.input
  else if name == "/dev/null" then .ok []
  else (s.files.read name).map encodeText

/-- Goes through files, or the input if there are none, with a program that says something about
each; a failure is told as the program words it. -/
def forEachFile (names : List String) (failure : String → String → String) (status : Nat)
    (act : String → Bytes → State → State) (s : State) : State :=
  (if names.isEmpty then ["-"] else names).foldl (fun s name =>
    match readFrom s name with
    | .ok bytes => act name bytes (if name == "-" then { s with input := [] } else s)
    | .error e => s.complain (failure name (readRefusal e)) status) (s.done 0)

def bytesLines : Bytes → List Bytes
  | [] => []
  | b :: rest =>
    if b == 10 then [b] :: bytesLines rest
    else match bytesLines rest with
      | [] => [[b]]
      | l :: ls => (b :: l) :: ls

/-! ### Texts -/

def catOptions : List Char := "beEnstTuvA".toList

def catRefusal? (args : List String) : Option String :=
  (args.takeWhile (· != "--")).findSome? fun a =>
    match a.toList with
    | ['-'] => none
    | '-' :: '-' :: _ => some ("unrecognized option '" ++ a ++ "'")
    | '-' :: cs =>
      (cs.find? fun c => !catOptions.contains c).map fun c =>
        "invalid option -- '" ++ c.toString ++ "'"
    | _ => none

def cat : Tool := fun args s =>
  match catRefusal? args with
  | some why => s.complain ("cat: " ++ why ++ "\nTry 'cat --help' for more information.") 1
  | none =>
    forEachFile (options args).2 (fun name why => "cat: " ++ name ++ ": " ++ why) 1
      (fun _ bytes s => s.say 1 bytes) s

/-- A count that is given as an option: lines or bytes, and the files behind it. -/
def countOption (usual : Nat) : List String → Bool × Nat × List String
  | "-n" :: n :: files => (false, (intOf n).natAbs, files)
  | "-c" :: n :: files => (true, (intOf n).natAbs, files)
  | a :: files =>
    match a.toList with
    | '-' :: 'n' :: n => (false, (intOf (String.ofList n)).natAbs, files)
    | '-' :: 'c' :: n => (true, (intOf (String.ofList n)).natAbs, files)
    | '-' :: c :: n => (false, (intOf (String.ofList (c :: n))).natAbs, files)
    | _ => (false, usual, a :: files)
  | [] => (false, usual, [])

def head : Tool := fun args s =>
  let (inBytes, n, files) := countOption 10 args
  if files == ["/dev/zero"] && inBytes then (s.say 1 (List.replicate n 0)).done 0
  else
    let first (bytes : Bytes) : Bytes :=
      if inBytes then bytes.take n else ((bytesLines bytes).take n).flatten
    forEachFile files (fun name why => "head: cannot open '" ++ name ++ "' for reading: " ++ why) 1
      (fun _ bytes s => s.say 1 (first bytes)) s

def tail : Tool := fun args s =>
  let (inBytes, n, files) := countOption 10 args
  let last {α : Type} (as : List α) : List α := as.drop (as.length - n)
  forEachFile files (fun name why => "tail: cannot open '" ++ name ++ "' for reading: " ++ why) 1
    (fun _ bytes s => s.say 1 (if inBytes then last bytes else (last (bytesLines bytes)).flatten)) s

def isBlankByte (b : UInt8) : Bool := b == 32 || (9 ≤ b && b ≤ 13)

def countWords : Bool → Bytes → Nat
  | _, [] => 0
  | inside, b :: rest =>
    if isBlankByte b then countWords false rest
    else (if inside then 0 else 1) + countWords true rest

def wc : Tool := fun args s =>
  let (flags, files) := options args
  let counts (bytes : Bytes) : List Nat :=
    let wanted (flag : String) := flags.isEmpty || flags.contains flag
    (if wanted "-l" then [bytes.count 10] else []) ++
      (if wanted "-w" then [countWords false bytes] else []) ++
      (if wanted "-c" then [bytes.length] else [])
  let line (name : String) (ns : List Nat) : String :=
    let width := if ns.length = 1 then 0 else 7
    let shown := ns.map fun n => String.ofList (pad [] width (toString n).toList)
    " ".intercalate (shown ++ if name == "-" then [] else [name]) ++ "\n"
  forEachFile files (fun name why => "wc: " ++ name ++ ": " ++ why) 1
    (fun name bytes s => s.print (line name (counts bytes))) s

def sort : Tool := fun args s =>
  let (flags, files) := options args
  let lines (bytes : Bytes) : List String :=
    (bytesLines bytes).map fun l => decodeLossy (l.filter (· != 10))
  let sorted (ls : List String) : List String :=
    let ls := if flags.contains "-n" then ls.mergeSort fun a b => intOf a ≤ intOf b
      else ls.mergeSort fun a b => a ≤ b
    if flags.contains "-r" then ls.reverse else ls
  forEachFile files (fun name why => "sort: cannot read: " ++ name ++ ": " ++ why) 2
    (fun _ bytes s => s.print (String.join ((sorted (lines bytes)).map (· ++ "\n")))) s

def byteSet (set : String) : Bytes :=
  spread ((unescape false (set.length + 1) set.toList).1)
where
  spread : Bytes → Bytes
    | a :: 45 :: b :: rest =>
      ((List.range (b.toNat + 1 - a.toNat)).map fun i => UInt8.ofNat (a.toNat + i)) ++ spread rest
    | a :: rest => a :: spread rest
    | [] => []

def tr : Tool := fun args s =>
  let said (bytes : Bytes) : State := ({ s with input := [] }.say 1 bytes).done 0
  match args with
  | ["-d", set] => said (s.input.filter fun b => !(byteSet set).contains b)
  | [source, target] =>
    let sources := byteSet source
    let targets := byteSet target
    said (s.input.map fun b =>
      match sources.idxOf? b with
      | some i => (targets[i]?.or targets.getLast?).getD b
      | none => b)
  | _ => s.complain "tr: missing operand\nTry 'tr --help' for more information." 1

def seq : Tool := fun args s =>
  let (first, step, last) := match args.map intOf with
    | [b] => (1, 1, b)
    | [a, b] => (a, 1, b)
    | [a, d, b] => (a, d, b)
    | _ => (1, 1, 0)
  let count := if step = 0 then 0 else ((last - first).fdiv step + 1).toNat
  let number (i : Nat) : Int := first + step * i
  (s.print (String.join ((List.range count).map fun i => toString (number i) ++ "\n"))).done 0

def basename : Tool := fun args s =>
  match args with
  | [] => s.complain "basename: missing operand\nTry 'basename --help' for more information." 1
  | path :: ending =>
    let name := (segments path).getLast?.getD "/"
    let ending := ending.head?.getD ""
    let kept := if name == ending then name else (name.dropSuffix ending).toString
    (s.print (kept ++ "\n")).done 0

def dirname : Tool := fun args s =>
  let dir (path : String) : String :=
    let above := "/".intercalate (segments path).dropLast
    if isAbsolute path then "/" ++ above else if above == "" then "." else above
  (s.print (String.join (args.map fun path => dir path ++ "\n"))).done 0

/-! ### Time -/

def duration? (s : String) : Option Nat :=
  let (digits, factor) := match s.toList.getLast? with
    | some 's' => (s.toList.dropLast, 1)
    | some 'm' => (s.toList.dropLast, 60)
    | some 'h' => (s.toList.dropLast, 3600)
    | some 'd' => (s.toList.dropLast, 86400)
    | _ => (s.toList, 1)
  let whole := digits.takeWhile Char.isDigit
  let value (cs : List Char) : Nat := cs.foldl (fun n c => n * 10 + (c.toNat - '0'.toNat)) 0
  match digits.drop whole.length with
  | [] => if whole.isEmpty then none else some (value whole * 1000000 * factor)
  | '.' :: fraction =>
    if fraction.all Char.isDigit && !(whole.isEmpty && fraction.isEmpty) then
      let micros := value ((fraction ++ List.replicate 6 '0').take 6)
      some ((value whole * 1000000 + micros) * factor)
    else none
  | _ => none

def sleep : Tool
  | [], s => s.complain "sleep: missing operand\nTry 'sleep --help' for more information." 1
  | args, s =>
    match args.find? fun a => (duration? a).isNone with
    | some a => s.complain ("sleep: invalid time interval '" ++ a ++
        "'\nTry 'sleep --help' for more information.") 1
    | none => (s.act (.wait ((args.filterMap duration?).foldl Nat.add 0))).done 0

/-! ### Files -/

def pwd : Tool := fun _ s => (s.print (State.placeText s.files.here ++ "\n")).done 0

def ls : Tool := fun args s =>
  let (flags, paths) := options args
  let has (c : Char) : Bool := flags.any fun f => f.toList.contains c
  let paths := if paths.isEmpty then ["."] else paths
  let lines (place : Place) : String :=
    let names := s.files.names place
    let names := if has 'a' then ["."] ++ [".."] ++ names
      else if has 'A' then names
      else names.filter fun n => !n.startsWith "."
    String.join (names.map (· ++ "\n"))
  paths.foldl (fun s path =>
    match s.files.find path with
    | .ok (place, .directory) => s.print (if has 'd' then path ++ "\n" else lines place)
    | .ok (_, .file ..) => s.print (path ++ "\n")
    | .error _ => s.complain ("ls: cannot access '" ++ path ++ "': No such file or directory") 2)
    (s.done 0)

def mkdir : Tool := fun args s =>
  let (flags, paths) := options args
  paths.foldl (fun s path =>
    let (files, refusal) := if flags.contains "-p" then s.files.makeDirectories path
      else match s.files.makeDirectory (s.files.start path) (segments path) with
        | .ok files => (files, none)
        | .error e => (s.files, some e)
    match refusal with
    | none => { s with files }
    | some e =>
      let why := if (s.files.find path).toOption.isSome then "File exists" else readRefusal e
      s.complain ("mkdir: cannot create directory '" ++ path ++ "': " ++ why) 1) (s.done 0)

def touch : Tool := fun args s =>
  (options args).2.foldl (fun s path =>
    if s.files.contains path then s
    else match s.files.write path "" with
      | .ok files => { s with files }
      | .error e => s.complain ("touch: cannot touch '" ++ path ++ "': " ++ readRefusal e) 1)
    (s.done 0)

def rm : Tool := fun args s =>
  let (flags, paths) := options args
  let has (c : Char) : Bool := flags.any fun f => f.toList.contains c
  let refused (path why : String) (s : State) : State :=
    s.complain ("rm: cannot remove '" ++ path ++ "': " ++ why) 1
  paths.foldl (fun s path =>
    match s.files.find path with
    | .ok (place, .file ..) => { s with files := s.files.erase place }
    | .ok (place, .directory) =>
      if has 'r' || has 'R' then { s with files := s.files.erase place }
      else refused path "Is a directory" s
    | .error e => if has 'f' then s else refused path (readRefusal e) s) (s.done 0)

def tee : Tool := fun args s =>
  let bytes := s.input
  let s := (options args).2.foldl (fun s path =>
    if path == "/dev/stderr" then s.say 2 bytes
    else match s.files.write path (decodeLossy bytes) with
      | .ok files => { s with files }
      | .error e => s.complain ("tee: " ++ path ++ ": " ++ readRefusal e) 1) (s.done 0)
  { s with input := [] }.say 1 bytes

def programs : List (String × Tool) :=
  [("echo", echoPlain), ("printf", printf), ("true", fun _ s => s.done 0),
    ("false", fun _ s => s.done 1), ("test", testAs "test"), ("[", bracket), ("sleep", sleep),
    ("cat", cat), ("head", head), ("tail", tail), ("wc", wc), ("sort", sort), ("tr", tr),
    ("seq", seq), ("tee", tee), ("basename", basename), ("dirname", dirname), ("pwd", pwd),
    ("ls", ls), ("mkdir", mkdir), ("touch", touch), ("rm", rm)]

end StepFlow.Shell
