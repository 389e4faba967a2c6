import StepFlow.Shell.Reader

/-!
Reading scripts: words, redirections and commands. Every reader takes some fuel; a reader that calls
others gives them less, and a few times the length of the text is enough for all of it.
-/
namespace StepFlow.Shell
open Reader

mutual

def dollar : Nat → Bool → Reader Word
  | 0, _ => refuse
  | fuel + 1, quoted => do
    match ← peek with
    | some '(' =>
      if (← peekAt 1) == some '(' then
        skip 2
        let text ← spanFormula fuel 0
        return [.arith (← readOther text (quotedPieces fuel)) quoted]
      skip 1
      let body ← items fuel
      expectBracket fuel
      return [.command body quoted]
    | some c =>
      if c == '\x7b' then
        skip 1
        return [← braced fuel quoted]
      else if isNameStart c then return [.param (← spanWhile isNameChar) quoted]
      else if isSpecialParam c then
        skip 1
        return [.param c.toString quoted]
      else return [.text "$" quoted]
    | none => return [.text "$" quoted]

def braced : Nat → Bool → Reader Piece
  | 0, _ => refuse
  | fuel + 1, quoted => do
    if (← peek) == some '#' && (← peekAt 1) != some '\x7d' then
      skip 1
      let name ← spanWhile fun c => isNameChar c
      if (← peek) == some '\x7d' then skip 1 else refuse
      return .length name quoted
    let name ← spanWhile isNameChar
    let name ← if name.isEmpty then
        match ← peek with
        | some c => skip 1; pure c.toString
        | none => fail .openBrace
      else pure name
    if (← peek) == some '\x7d' then
      skip 1
      return .param name quoted
    let ifEmpty := (← peek) == some ':'
    if ifEmpty then skip 1
    let sign ← peek
    match sign.bind (List.lookup · fallbacks) with
    | some fallback =>
      skip 1
      return .orElse name fallback ifEmpty (← bracedWord fuel quoted) quoted
    | none =>
      if !ifEmpty && (sign == some '#' || sign == some '%') then
        let greatest := (← peekAt 1) == sign
        skip (if greatest then 2 else 1)
        return .trimmed name (sign == some '%') greatest (← bracedWord fuel false) quoted
      let _ ← bracedWord fuel quoted
      return .malformed

def bracedWord : Nat → Bool → Reader Word
  | 0, _ => refuse
  | fuel + 1, quoted => do
    match ← peek with
    | none => fail .openBrace
    | some c =>
      if c == '\x7d' then
        skip 1
        return []
      let here ← piece fuel quoted
      return here ++ (← bracedWord fuel quoted)

/-- Text in double quotes, up to the end of the text or an unescaped quote. -/
def quotedPieces : Nat → Reader Word
  | 0 => refuse
  | fuel + 1 => do
    match ← peek with
    | none => return []
    | some '"' => return []
    | _ =>
      let here ← piece fuel true
      return here ++ (← quotedPieces fuel)

def piece : Nat → Bool → Reader Word
  | 0, _ => refuse
  | fuel + 1, quoted => do
    match ← peek, ← peekAt 1 with
    | none, _ => refuse
    | some '$', _ => skip 1; dollar fuel quoted
    | some '\x60', _ =>
      skip 1
      let text ← spanBackquoted fuel
      return [.command (← readOther text (items fuel)) quoted]
    | some '\\', none => skip 1; return [.text "\\" true]
    | some '\\', some '\n' => skip 2; return []
    | some '\\', some c =>
      skip 2
      if quoted && !"$\x60\"\\".toList.contains c then
        return [.text (String.ofList ['\\', c]) true]
      return [.text c.toString true]
    | some c, _ =>
      if quoted then
        let s ← spanWhile fun c => !"$\x60\\\"\x7d".toList.contains c
        if s.isEmpty then
          skip 1
          return [.text c.toString true]
        return [.text s true]
      else if c == '\'' then
        skip 1
        let s ← spanWhile (· != '\'')
        if (← peek).isNone then fail .openQuote
        skip 1
        return [.text s true]
      else if c == '"' then
        skip 1
        let ps ← quotedPieces fuel
        if (← peek).isNone then fail .openQuote
        skip 1
        return .text "" true :: ps
      else
        let s ← spanWhile isPlain
        if s.isEmpty then
          skip 1
          return [.text c.toString false]
        return [.text s false]

def pieces : Nat → Reader Word
  | 0 => return []
  | fuel + 1 => do
    match ← peek with
    | none => return []
    | some c =>
      if endsWord c then return []
      let here ← piece fuel false
      return here ++ (← pieces fuel)

/-- A word, behind blanks; there must be one. -/
def word : Nat → Reader Word
  | 0 => refuse
  | fuel + 1 => do
    skipBlanks fuel
    match ← peek with
    | none => refuse
    | some c => if endsWord c then refuse else pieces fuel

def redirect? : Nat → Reader (Option Redirect)
  | 0 => return none
  | fuel + 1 => do
    let digits := (← get).rest.takeWhile Char.isDigit
    let start ← peekAt digits.length
    let fd (usual : Nat) := if digits.isEmpty then usual
      else (String.ofList digits).toNat?.getD usual
    match start, ← peekAt (digits.length + 1) with
    | some '>', some '>' =>
      skip (digits.length + 2)
      return some (.write (fd 1) true (← word fuel))
    | some '>', some '&' =>
      skip (digits.length + 2)
      return some (.copy (fd 1) (← word fuel))
    | some '>', some '|' =>
      skip (digits.length + 2)
      return some (.write (fd 1) false (← word fuel))
    | some '>', _ =>
      skip (digits.length + 1)
      return some (.write (fd 1) false (← word fuel))
    | some '<', some '<' =>
      skip (digits.length + 2)
      let tabless := (← peek) == some '-'
      if tabless then skip 1
      skipBlanks fuel
      let mark ← bareWord
      skip mark.length
      let plain := mark.toList.filter fun c => !"'\"\\".toList.contains c
      let body ← takeHere tabless (String.ofList plain)
      if plain.length < mark.length then return some (.here [.text body true])
      return some (.here (← readOther body.toList (hereBody fuel)))
    | some '<', some '&' =>
      skip (digits.length + 2)
      return some (.copy (fd 0) (← word fuel))
    | some '<', _ =>
      skip (digits.length + 1)
      return some (.read (← word fuel))
    | _, _ => return none

/-- Input that stands in the script, with what is to be replaced in it. -/
def hereBody : Nat → Reader Word
  | 0 => return []
  | fuel + 1 => do
    match ← peek with
    | none => return []
    | some '"' =>
      skip 1
      return .text "\"" true :: (← hereBody fuel)
    | _ =>
      let here ← piece fuel true
      return here ++ (← hereBody fuel)

def redirects : Nat → Reader (List Redirect)
  | 0 => return []
  | fuel + 1 => do
    skipBlanks fuel
    match ← redirect? fuel with
    | none => return []
    | some r => return r :: (← redirects fuel)

def simple : Nat → List (String × Word) → List Word → List Redirect →
    Reader (List (String × Word) × List Word × List Redirect)
  | 0, settings, words, rs => return (settings, words, rs)
  | fuel + 1, settings, words, rs => do
    skipBlanks fuel
    match ← redirect? fuel with
    | some r => simple fuel settings words (rs ++ [r])
    | none =>
      match ← peek with
      | none => return (settings, words, rs)
      | some c =>
        if endsWord c then
          if c == '(' then refuse
          return (settings, words, rs)
        let name := (← get).rest.takeWhile isNameChar
        let isSetting := words.isEmpty && name.head?.any isNameStart &&
          (← peekAt name.length) == some '='
        if isSetting then
          skip (name.length + 1)
          let value ← pieces fuel
          simple fuel (settings ++ [(String.ofList name, value)]) words rs
        else
          let w ← pieces fuel
          simple fuel settings (words ++ [w]) rs

def branches : Nat → Reader (List (Script × Script) × Script)
  | 0 => refuse
  | fuel + 1 => do
    let test ← items fuel
    expectWord fuel "then"
    let body ← items fuel
    skipLines fuel
    match ← bareWord with
    | "elif" =>
      skip 4
      let (others, otherwise) ← branches fuel
      return ((test, body) :: others, otherwise)
    | "else" =>
      skip 4
      let otherwise ← items fuel
      expectWord fuel "fi"
      return ([(test, body)], otherwise)
    | _ =>
      expectWord fuel "fi"
      return ([(test, body)], [])

def words : Nat → Reader (List Word)
  | 0 => return []
  | fuel + 1 => do
    skipBlanks fuel
    match ← peek with
    | none => return []
    | some c =>
      if endsWord c then return []
      let w ← pieces fuel
      return w :: (← words fuel)

def patterns : Nat → Reader (List Word)
  | 0 => refuse
  | fuel + 1 => do
    let w ← word fuel
    skipBlanks fuel
    match ← peek with
    | some '|' => skip 1; return w :: (← patterns fuel)
    | some ')' => skip 1; return [w]
    | _ => refuse

def arms : Nat → Reader (List (List Word × Script))
  | 0 => refuse
  | fuel + 1 => do
    skipLines fuel
    if (← bareWord) == "esac" then
      skip 4
      return []
    if (← peek) == some '(' then skip 1
    let ps ← patterns fuel
    let body ← items fuel
    skipLines fuel
    if ← looksAt ";;" then skip 2
    else if (← bareWord) != "esac" then refuseFor (some (shown ";;"))
    return (ps, body) :: (← arms fuel)

def body : Nat → Reader Script
  | 0 => refuse
  | fuel + 1 => do
    expectWord fuel "do"
    let b ← items fuel
    expectWord fuel "done"
    return b

def command : Nat → Reader Command
  | 0 => refuse
  | fuel + 1 => do
    skipBlanks fuel
    if (← peek) == some '(' then
      skip 1
      let b ← items fuel
      expectBracket fuel
      return .redirected (.subshell b) (← redirects fuel)
    match ← bareWord with
    | "\x7b" =>
      skip 1
      let b ← items fuel
      expectWord fuel "\x7d"
      return .redirected (.group b) (← redirects fuel)
    | "if" =>
      skip 2
      let (bs, otherwise) ← branches fuel
      return .redirected (.choose bs otherwise) (← redirects fuel)
    | "while" =>
      skip 5
      let test ← items fuel
      let b ← body fuel
      return .redirected (.loop true test b) (← redirects fuel)
    | "until" =>
      skip 5
      let test ← items fuel
      let b ← body fuel
      return .redirected (.loop false test b) (← redirects fuel)
    | "for" =>
      skip 3
      skipBlanks fuel
      let name ← spanWhile isNameChar
      skipLines fuel
      let ws ← if (← bareWord) == "in" then
          skip 2
          words fuel
        else pure [[.param "@" true]]
      skipBlanks fuel
      if (← peek) == some ';' then skip 1
      let b ← body fuel
      return .redirected (.each name ws b) (← redirects fuel)
    | "case" =>
      skip 4
      let w ← word fuel
      expectWord fuel "in"
      let as ← arms fuel
      return .redirected (.select w as) (← redirects fuel)
    | w =>
      if reserved.contains w && w != "in" then refuse
      let name := (← get).rest.takeWhile isNameChar
      let behind := (← get).rest.drop name.length
      let blanks := behind.takeWhile (· == ' ')
      if name.head?.any isNameStart && behind[blanks.length]? == some '(' then
        skip (name.length + blanks.length + 1)
        skipBlanks fuel
        if (← peek) == some ')' then skip 1 else refuseFor (some (shown ")"))
        skipLines fuel
        return .define (String.ofList name) (← command fuel)
      let line := (← get).line
      let (settings, ws, rs) ← simple fuel [] [] []
      if settings.isEmpty && ws.isEmpty && rs.isEmpty then refuse
      return .redirected (.simple line settings ws) rs

def piped : Nat → Reader (List Command)
  | 0 => return []
  | fuel + 1 => do
    skipBlanks fuel
    if (← peek) == some '|' && (← peekAt 1) != some '|' then
      skip 1
      skipLines fuel
      let c ← command fuel
      return c :: (← piped fuel)
    return []

def pipeline : Nat → Reader Pipeline
  | 0 => refuse
  | fuel + 1 => do
    skipBlanks fuel
    let negated := (← bareWord) == "!"
    if negated then skip 1
    let c ← command fuel
    return .mk negated (c :: (← piped fuel))

def joined : Nat → Reader (List (Bool × Pipeline))
  | 0 => return []
  | fuel + 1 => do
    skipBlanks fuel
    let both ← looksAt "&&"
    if both || (← looksAt "||") then
      skip 2
      skipLines fuel
      let p ← pipeline fuel
      return (both, p) :: (← joined fuel)
    return []

def endsItems : Nat → Reader Bool
  | 0 => return true
  | _ + 1 => do
    match ← peek with
    | none => return true
    | some ')' => return true
    | some ';' => return (← peekAt 1) == some ';'
    | some _ => return closing.contains (← bareWord)

def item : Nat → Reader Item
  | 0 => refuse
  | fuel + 1 => do
    let first ← pipeline fuel
    let rest ← joined fuel
    skipBlanks fuel
    match ← peek with
    | some '&' => skip 1; return .mk first rest true
    | some ';' =>
      if (← peekAt 1) != some ';' then skip 1
      return .mk first rest false
    | some '\n' | some ')' | none => return .mk first rest false
    | some _ => refuse

def items : Nat → Reader Script
  | 0 => return []
  | fuel + 1 => do
    skipLines fuel
    if ← endsItems (fuel + 1) then return []
    let i ← item fuel
    return i :: (← items fuel)

end

/-- Commands up to the end of a line that ends none of them. -/
def lineItems (enough : Nat) : Nat → Reader Script
  | 0 => return []
  | fuel + 1 => do
    skipBlanks enough
    match ← peek with
    | none => return []
    | some '\n' => skip 1; return []
    | some _ =>
      let i ← item enough
      return i :: (← lineItems enough fuel)

/-- The commands of a script, line by line, up to the line with the first fault. -/
def readScript (text : String) : Script × Option Fault :=
  go (text.length + 1) ⟨text.toList, 1⟩
where
  go : Nat → Input → Script × Option Fault
    | 0, _ => ([], none)
    | fuel + 1, input =>
      if input.rest.isEmpty then ([], none)
      else
        let enough := 8 * (input.rest.length + 4)
        match lineItems enough enough input with
        | .error e => ([], some e)
        | .ok (is, rest) =>
          let (more, fault) := go fuel rest
          (is ++ more, fault)

end StepFlow.Shell
