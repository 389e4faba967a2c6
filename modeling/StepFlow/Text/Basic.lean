import StepFlow.Text.CharClass

/-!
Operations on text as a list of characters: blanks around it, its pieces between separators, and
its length in UTF-8 bytes.
-/
namespace StepFlow.Text

def skipBlanks (s : List Char) : List Char := s.dropWhile isBlank

def dropBlankEnd (s : List Char) : List Char := (s.reverse.dropWhile isBlank).reverse

def trim (s : List Char) : List Char := dropBlankEnd (skipBlanks s)

/-- The pieces of a text between the occurrences of a separator; one more piece than
separators. -/
def pieces (sep : Char) : List Char → List (List Char)
  | [] => [[]]
  | c :: rest =>
    if c = sep then [] :: pieces sep rest
    else match pieces sep rest with
      | [] => [[c]]
      | first :: others => (c :: first) :: others

def splitFirst (sep : Char) : List Char → Option (List Char × List Char)
  | [] => none
  | c :: rest =>
    if c = sep then some ([], rest)
    else (splitFirst sep rest).map fun (before, after) => (c :: before, after)

def utf8Length : List Char → Nat
  | [] => 0
  | c :: s => c.utf8Size + utf8Length s

def stripStart? : List Char → List Char → Option (List Char)
  | [], s => some s
  | _ :: _, [] => none
  | c :: start, d :: s => if c = d then stripStart? start s else none

/-- Text with every occurrence of a non-empty `mark` replaced, from left to right. -/
def replaceAll (mark fresh s : List Char) : List Char :=
  go s.length s
where
  go : Nat → List Char → List Char
    | 0, s => s
    | _ + 1, [] => []
    | n + 1, c :: rest =>
      match stripStart? mark (c :: rest) with
      | some after => fresh ++ go n after
      | none => c :: go n rest

def natDigits (n : Nat) : List Char := Nat.toDigits 10 n

end StepFlow.Text
