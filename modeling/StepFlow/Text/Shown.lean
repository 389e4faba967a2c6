import StepFlow.Text.CharClass
import StepFlow.Text.HiddenTable

/-!
Text as a message shows it: in double quotes, with every character visible. The quote, the backslash
and the common controls have an escape of their own; any other character that would not be seen
stands there as its number.
-/
namespace StepFlow.Text

/-- A character that is not seen, or not as itself, between others. -/
def isHidden (c : Char) : Bool := inRanges hiddenRanges c.toNat

/-- A character by its number, in hexadecimal digits without leading zeros. -/
def showNumber (c : Char) : List Char :=
  ['\\', 'u', '{'] ++ Nat.toDigits 16 c.toNat ++ ['}']

def showChar (c : Char) : List Char :=
  if c = '"' then ['\\', '"']
  else if c = '\\' then ['\\', '\\']
  else if c = '\n' then ['\\', 'n']
  else if c = '\r' then ['\\', 'r']
  else if c = '\t' then ['\\', 't']
  else if c = '\x00' then ['\\', '0']
  else if isHidden c then showNumber c
  else [c]

def showText (s : String) : String :=
  String.ofList ('"' :: s.toList.flatMap showChar ++ ['"'])

end StepFlow.Text
