import StepFlow.Text.Quoted

/-!
What stands for a character inside quotes: a backslash with one more character, a code of four
digits, or the character itself. Whatever is said of quoted text is said of these three forms.
-/
namespace StepFlow.Text

/-- The characters that a backslash and one more character stand for, each with that character. -/
def shortEscapes : List (Char × Char) :=
  [('"', '"'), ('\\', '\\'), ('\n', 'n'), ('\r', 'r'), ('\t', 't'), ('\x08', 'b'), ('\x0c', 'f')]

inductive Escaped (c : Char) : List Char → Prop where
  | short {d : Char} (listed : (c, d) ∈ shortEscapes) : Escaped c ['\\', d]
  | coded (control : c.toNat < 0x20) :
      Escaped c ['\\', 'u', '0', '0', hexDigit (c.toNat / 16), hexDigit (c.toNat % 16)]
  | plain (quote : c ≠ '"') (backslash : c ≠ '\\') (visible : 0x20 ≤ c.toNat) : Escaped c [c]

theorem escapeChar_escaped (c : Char) : Escaped c (escapeChar c) := by
  by_cases quote : c = '"'
  · subst quote
    exact .short (by decide)
  by_cases backslash : c = '\\'
  · subst backslash
    exact .short (by decide)
  by_cases newline : c = '\n'
  · subst newline
    exact .short (by decide)
  by_cases carriage : c = '\r'
  · subst carriage
    exact .short (by decide)
  by_cases tab : c = '\t'
  · subst tab
    exact .short (by decide)
  by_cases backspace : c = '\x08'
  · subst backspace
    exact .short (by decide)
  by_cases feed : c = '\x0c'
  · subst feed
    exact .short (by decide)
  rw [escapeChar, if_neg quote, if_neg backslash, if_neg newline, if_neg carriage, if_neg tab,
    if_neg backspace, if_neg feed]
  by_cases control : c.toNat < 0x20
  · rw [if_pos control]
    exact .coded control
  · rw [if_neg control]
    exact .plain quote backslash (Nat.le_of_not_lt control)

end StepFlow.Text
