import StepFlow.Text.CharClass

/-!
Names of a script. An identifier begins with a word start, goes on with word characters and is no
reserved word. `sanitize` makes a name of any text: every character outside a word becomes an
underscore, and an underscore goes in front where the text is empty or begins with a digit.
-/
namespace StepFlow.Script
open Text

def reservedWords : List String :=
  ["await", "break", "case", "catch", "class", "const", "continue", "debugger", "default",
    "delete", "do", "else", "enum", "export", "extends", "false", "finally", "for", "function",
    "if", "import", "in", "instanceof", "let", "new", "null", "return", "super", "switch", "this",
    "throw", "true", "try", "typeof", "var", "void", "while", "with", "yield"]

def isReserved (name : String) : Bool := reservedWords.contains name

def isWord : List Char → Bool
  | [] => false
  | c :: rest => isWordStart c && rest.all isWordChar

def isIdentifier (name : String) : Bool := isWord name.toList && !isReserved name

def sanitizeChars (s : List Char) : List Char :=
  let kept := s.map fun c => if isWordChar c then c else '_'
  match kept with
  | [] => ['_']
  | c :: _ => if isNumeric c then '_' :: kept else kept

def sanitize (s : String) : String := String.ofList (sanitizeChars s.toList)

def groupAlias (group version : String) : String := sanitize (group ++ "_v" ++ version)

def codeAlias (id : String) : String := sanitize ("code_" ++ id)

end StepFlow.Script
