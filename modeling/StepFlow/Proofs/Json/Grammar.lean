import StepFlow.Json.Reader

/-!
The grammar of JSON: which texts write which tree. A bracket, a comma and a colon take the blanks on
either side of them, and nothing else does but the whole text. In a string an escape stands for a
UTF-16 unit, so a character beyond the first `0x10000` takes two escapes, and no half of a pair is
ever written alone.
-/
namespace StepFlow.Json
open Text

/-- What a text says: a number as it is spelled, the members of an object as they stand. -/
inductive Tree where
  | null
  | bool (value : Bool)
  | number (spelling : String)
  | string (value : String)
  | array (items : List Tree)
  | object (members : List (String × Tree))
  deriving Repr, Inhabited

def Spaces (s : List Char) : Prop := ∀ c ∈ s, isSpace c = true

instance (s : List Char) : Decidable (Spaces s) :=
  decidable_of_iff (s.all isSpace = true) List.all_eq_true

def Digits (s : List Char) : Prop := ∀ c ∈ s, isDecimalDigit c = true

instance (s : List Char) : Decidable (Digits s) :=
  decidable_of_iff (s.all isDecimalDigit = true) List.all_eq_true

/-- The digits before the point: no zero stands in front of others. -/
inductive WholeText : List Char → Prop where
  | zero : WholeText ['0']
  | led {lead : Char} {digits : List Char} (digit : isDecimalDigit lead = true)
      (nonzero : lead ≠ '0') (others : Digits digits) : WholeText (lead :: digits)

inductive FractionText : List Char → Prop where
  | none : FractionText []
  | point {digits : List Char} (each : Digits digits) (some : digits ≠ []) :
      FractionText ('.' :: digits)

inductive ExponentText : List Char → Prop where
  | none : ExponentText []
  | marked {mark : Char} {sign digits : List Char} (mark_ok : mark = 'e' ∨ mark = 'E')
      (sign_ok : sign = [] ∨ sign = ['+'] ∨ sign = ['-']) (each : Digits digits)
      (some : digits ≠ []) : ExponentText (mark :: (sign ++ digits))

inductive NumberText : List Char → Prop where
  | mk {sign whole fraction scale : List Char} (minus : sign = [] ∨ sign = ['-'])
      (whole_ok : WholeText whole) (fraction_ok : FractionText fraction)
      (scale_ok : ExponentText scale) : NumberText (sign ++ whole ++ fraction ++ scale)

/-- The high and the low surrogate that encode a character beyond the first `0x10000`. -/
def highUnit (c : Char) : Nat := 0xD800 + (c.toNat - 0x10000) / 0x400

def lowUnit (c : Char) : Nat := 0xDC00 + (c.toNat - 0x10000) % 0x400

def UnitText (unit : Nat) (text : List Char) : Prop :=
  ∃ h₁ h₂ h₃ h₄, hexValue? h₁ h₂ h₃ h₄ = some unit ∧ text = ['\\', 'u', h₁, h₂, h₃, h₄]

inductive CharText : Char → List Char → Prop where
  | plain {c : Char} (printable : 0x20 ≤ c.toNat) (quote : c ≠ '"') (backslash : c ≠ '\\') :
      CharText c [c]
  | short {c d : Char} (escape : simpleEscape? d = some c) : CharText c ['\\', d]
  | unit {c : Char} {text : List Char} (written : UnitText c.toNat text) : CharText c text
  | pair {c : Char} {high low : List Char} (beyond : 0x10000 ≤ c.toNat)
      (first : UnitText (highUnit c) high) (second : UnitText (lowUnit c) low) :
      CharText c (high ++ low)

inductive CharsText : List Char → List Char → Prop where
  | nil : CharsText [] []
  | cons {c : Char} {cs text rest : List Char} (first : CharText c text)
      (others : CharsText cs rest) : CharsText (c :: cs) (text ++ rest)

inductive StringText : String → List Char → Prop where
  | mk {value : String} {text : List Char} (inner : CharsText value.toList text) :
      StringText value ('"' :: (text ++ ['"']))

inductive TokenText (c : Char) : List Char → Prop where
  | mk {before behind : List Char} (left : Spaces before) (right : Spaces behind) :
      TokenText c (before ++ c :: behind)

inductive CommaText : List (List Char) → List Char → Prop where
  | one (text : List Char) : CommaText [text] text
  | more {text comma rest : List Char} {texts : List (List Char)} (token : TokenText ',' comma)
      (others : CommaText texts rest) : CommaText (text :: texts) (text ++ comma ++ rest)

inductive BracketText (opening closing : Char) : List (List Char) → List Char → Prop where
  | empty {before behind : List Char} (opens : TokenText opening before)
      (closes : TokenText closing behind) : BracketText opening closing [] (before ++ behind)
  | filled {texts : List (List Char)} {before inner behind : List Char}
      (opens : TokenText opening before) (commas : CommaText texts inner)
      (closes : TokenText closing behind) :
      BracketText opening closing texts (before ++ inner ++ behind)

mutual

inductive TreeText : Tree → List Char → Prop where
  | null : TreeText .null "null".toList
  | yes : TreeText (.bool true) "true".toList
  | no : TreeText (.bool false) "false".toList
  | number {text : List Char} (written : NumberText text) :
      TreeText (.number (String.ofList text)) text
  | string {value : String} {text : List Char} (written : StringText value text) :
      TreeText (.string value) text
  | array {items : List (Tree × List Char)} {text : List Char}
      (each : ∀ item ∈ items, TreeText item.1 item.2)
      (brackets : BracketText '[' ']' (items.map Prod.snd) text) :
      TreeText (.array (items.map Prod.fst)) text
  | object {members : List ((String × Tree) × List Char)} {text : List Char}
      (each : ∀ item ∈ members, MemberText item.1 item.2)
      (braces : BracketText '{' '}' (members.map Prod.snd) text) :
      TreeText (.object (members.map Prod.fst)) text

inductive MemberText : String × Tree → List Char → Prop where
  | mk {key : String} {tree : Tree} {keyText colon text : List Char}
      (name : StringText key keyText) (token : TokenText ':' colon)
      (value : TreeText tree text) : MemberText (key, tree) (keyText ++ colon ++ text)

end

inductive DocumentText (tree : Tree) : List Char → Prop where
  | mk {before text behind : List Char} (left : Spaces before) (value : TreeText tree text)
      (right : Spaces behind) : DocumentText tree (before ++ text ++ behind)

section
variable {c : Char}

theorem char_range (c : Char) : c.toNat < 0x110000 ∧
    isHighSurrogate c.toNat = false ∧ isLowSurrogate c.toNat = false := by
  have valid : c.toNat < 0xD800 ∨ 0xDFFF < c.toNat ∧ c.toNat < 0x110000 := c.valid
  simp only [isHighSurrogate, isLowSurrogate, Bool.and_eq_false_iff, decide_eq_false_iff_not]
  omega

theorem units_pair (beyond : 0x10000 ≤ c.toNat) :
    isHighSurrogate (highUnit c) = true ∧ isLowSurrogate (lowUnit c) = true ∧
      surrogatePair (highUnit c) (lowUnit c) = c := by
  obtain ⟨below, _⟩ := char_range c
  have code : 0x10000 + (highUnit c - 0xD800) * 0x400 + (lowUnit c - 0xDC00) =
      c.toNat := by
    simp only [highUnit, lowUnit]
    omega
  refine ⟨?_, ?_, by rw [surrogatePair, code, Char.ofNat_toNat]⟩
  · simp only [isHighSurrogate, Bool.and_eq_true, decide_eq_true_eq]
    unfold highUnit
    omega
  · simp only [isLowSurrogate, Bool.and_eq_true, decide_eq_true_eq]
    unfold lowUnit
    omega

end

end StepFlow.Json
