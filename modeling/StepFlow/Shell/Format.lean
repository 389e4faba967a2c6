import StepFlow.Shell.State

/-!
Text with escapes, and output by a format.
-/
namespace StepFlow.Shell

abbrev Tool := List String → State → State

/-! ### Escapes -/

def octalValue (digits : List Char) : UInt8 :=
  UInt8.ofNat (digits.foldl (fun n c => n * 8 + (c.toNat - '0'.toNat)) 0)

def isOctal (c : Char) : Bool := '0' ≤ c && c ≤ '7'

def controls : List (Char × UInt8) :=
  [('a', 7), ('b', 8), ('f', 12), ('n', 10), ('r', 13), ('t', 9), ('v', 11), ('\\', 92)]

/-- Text with its escapes replaced, and whether it goes on afterwards. An octal number has three
digits at most; a zero may stand before them if `zeroFirst`. -/
def unescape (zeroFirst : Bool) : Nat → List Char → Bytes × Bool
  | 0, _ => ([], true)
  | _ + 1, [] => ([], true)
  | fuel + 1, '\\' :: c :: rest =>
    let (bytes, after) : Option Bytes × List Char :=
      match controls.lookup c with
      | some b => (some [b], rest)
      | none =>
        if c == 'c' then (none, rest)
        else if isOctal c then
          let withZero := zeroFirst && c == '0'
          let digits := (if withZero then rest else c :: rest).take 3 |>.takeWhile isOctal
          let used := if withZero then digits.length else digits.length - 1
          (some [octalValue digits], rest.drop used)
        else (some (encodeText (String.ofList ['\\', c])), rest)
    match bytes with
    | none => ([], false)
    | some b =>
      let (more, on) := unescape zeroFirst fuel after
      (b ++ more, on)
  | fuel + 1, c :: rest =>
    let (more, on) := unescape zeroFirst fuel rest
    (encodeText c.toString ++ more, on)

/-- The shell's own way: escapes are replaced. -/
def echoEscaped : Tool := fun args s =>
  let (newline, args) := match args with
    | "-n" :: rest => (false, rest)
    | args => (true, args)
  let text := (" ".intercalate args).toList
  let (bytes, on) := unescape true (text.length + 1) text
  (s.say 1 (bytes ++ if newline && on then [10] else [])).done 0

def isEchoOption (arg : String) : Bool :=
  match arg.toList with
  | '-' :: c :: cs => (c :: cs).all fun c => "neE".toList.contains c
  | _ => false

/-- The program of its own: escapes are replaced on demand. -/
def echoPlain : Tool := fun args s =>
  let options := (args.takeWhile isEchoOption).flatMap String.toList
  let text := " ".intercalate (args.dropWhile isEchoOption)
  let escaped := (options.filter fun c => c == 'e' || c == 'E').getLast? == some 'e'
  let (bytes, on) := if escaped then unescape true (text.length + 1) text.toList
    else (encodeText text, true)
  (s.say 1 (bytes ++ if on && !options.contains 'n' then [10] else [])).done 0

/-! ### Formatted output -/

def intOf (s : String) : Int :=
  let (sign, digits) : Int × List Char := match s.toList with
    | '-' :: cs => (-1, cs)
    | '+' :: cs => (1, cs)
    | cs => (1, cs)
  sign * ((digits.takeWhile Char.isDigit).foldl (fun n c => n * 10 + (c.toNat - '0'.toNat)) 0 : Nat)

def pad (flags : List Char) (width : Nat) (s : List Char) : List Char :=
  let missing := width - s.length
  if flags.contains '-' then s ++ List.replicate missing ' '
  else if flags.contains '0' then
    match s with
    | '-' :: cs => '-' :: (List.replicate missing '0' ++ cs)
    | cs => List.replicate missing '0' ++ cs
  else List.replicate missing ' ' ++ s

def convert (kind : Char) (flags : List Char) (width : Nat) (precision : Option Nat)
    (arg : String) : Bytes :=
  let text (s : List Char) := encodeText (String.ofList (pad flags width s))
  match kind with
  | 's' => text (match precision with
      | some n => arg.toList.take n
      | none => arg.toList)
  | 'b' => (unescape true (arg.length + 1) arg.toList).1
  | 'c' => text (arg.toList.take 1)
  | 'x' => text (Nat.toDigits 16 (intOf arg).toNat)
  | 'o' => text (Nat.toDigits 8 (intOf arg).toNat)
  | _ => text (toString (intOf arg)).toList

/-- One pass over a format; the arguments that are left, and whether any was asked for. -/
def formatOnce : Nat → List Char → List String → Bytes × List String × Bool
  | 0, _, args => ([], args, false)
  | _ + 1, [], args => ([], args, false)
  | fuel + 1, '%' :: '%' :: rest, args =>
    let (more, args, asked) := formatOnce fuel rest args
    (37 :: more, args, asked)
  | fuel + 1, '%' :: rest, args =>
    let flags := rest.takeWhile fun c => "-0+ #".toList.contains c
    let rest := rest.drop flags.length
    let width := rest.takeWhile Char.isDigit
    let rest := rest.drop width.length
    let (precision, rest) := match rest with
      | '.' :: cs =>
        let digits := cs.takeWhile Char.isDigit
        (some (intOf (String.ofList digits)).toNat, cs.drop digits.length)
      | cs => (none, cs)
    match rest with
    | [] => ([37], args, false)
    | kind :: rest =>
      let bytes := convert kind flags (intOf (String.ofList width)).toNat precision
        (args.head?.getD "")
      let (more, args, _) := formatOnce fuel rest (args.drop 1)
      (bytes ++ more, args, true)
  | fuel + 1, '\\' :: c :: rest, args =>
    let digits := if isOctal c then (c :: rest).take 3 |>.takeWhile isOctal else [c]
    let (bytes, _) := unescape false 9 ('\\' :: digits)
    let bytes := if c == '"' then [34] else bytes
    let (more, args, asked) := formatOnce fuel (rest.drop (digits.length - 1)) args
    (bytes ++ more, args, asked)
  | fuel + 1, c :: rest, args =>
    let (more, args, asked) := formatOnce fuel rest args
    (encodeText c.toString ++ more, args, asked)

def formatAll (format : List Char) : Nat → List String → Bytes
  | 0, _ => []
  | fuel + 1, args =>
    let (bytes, left, asked) := formatOnce (format.length + 1) format args
    if left.isEmpty || !asked then bytes else bytes ++ formatAll format fuel left

def printf : Tool
  | [], s => s.complain "printf: usage: printf format [arg ...]" 2
  | format :: args, s =>
    let (format, args) := match format, args with
      | "--", f :: args => (f, args)
      | f, args => (f, args)
    (s.say 1 (formatAll format.toList (args.length + 1) args)).done 0

end StepFlow.Shell
