import StepFlow.Proofs.Json.Grammar
import StepFlow.Proofs.Script.Accepted

/-!
Every JSON text is a literal with the same meaning. The two grammars differ in where they put
blanks: a literal takes them in front of its parts only, JSON on both sides of a bracket, a comma
and a colon. So a text of JSON is a text of a literal with blanks behind it, and within a list those
go to the comma or the bracket that follows. Of a string the pieces are given, character by
character.
-/
namespace StepFlow.Script.Literal
open Text
open Json (Tree)

mutual

def mirror : Tree → Expr
  | .null => .null
  | .bool value => .bool value
  | .number spelling => .num spelling
  | .string value => .str value
  | .array items => .array (mirrorItems items)
  | .object members => .object (mirrorMembers members)

def mirrorItems : List Tree → List Expr
  | [] => []
  | item :: items => mirror item :: mirrorItems items

def mirrorMembers : List (String × Tree) → List (PropKey × Expr)
  | [] => []
  | (key, value) :: members => (.quoted key, mirror value) :: mirrorMembers members

end

def mirrorMember (member : String × Tree) : PropKey × Expr := (.quoted member.1, mirror member.2)

theorem mirrorItems_map (items : List Tree) : mirrorItems items = items.map mirror := by
  induction items with
  | nil => rfl
  | cons item items ih => rw [mirrorItems, ih, List.map_cons]

theorem mirrorMembers_map (members : List (String × Tree)) :
    mirrorMembers members = members.map mirrorMember := by
  induction members with
  | nil => rfl
  | cons member members ih => rw [mirrorMembers, ih, List.map_cons, mirrorMember]

theorem space_blank {c : Char} (space : Json.isSpace c = true) : isBlank c = true := by
  simp only [Json.isSpace, Bool.or_eq_true, beq_iff_eq] at space
  rcases space with ((rfl | rfl) | rfl) | rfl <;> decide

theorem spaces_blanks {s : List Char} (spaces : Json.Spaces s) : Blanks s :=
  fun c member => space_blank (spaces c member)

section
variable {s : List Char}

theorem wholeText_some (whole : Json.WholeText s) : s ≠ [] ∧ Decimal s := by
  cases whole with
  | zero => exact ⟨List.cons_ne_nil _ _, by decide⟩
  | led digit _ others =>
    exact ⟨List.cons_ne_nil _ _, List.forall_mem_cons.mpr ⟨digit, others⟩⟩

theorem exponentText_isExponent (scale : Json.ExponentText s) : IsExponent s := by
  cases scale with
  | none => exact .none
  | marked mark_ok sign_ok each some => exact .marked mark_ok sign_ok each some

theorem numberText_isNumeral (written : Json.NumberText s) : IsNumeral s := by
  obtain @⟨sign, whole, fraction, scale, minus, whole_ok, fraction_ok, scale_ok⟩ := written
  obtain ⟨some, digits⟩ := wholeText_some whole_ok
  have base : IsMantissa (whole ++ fraction) := by
    cases fraction_ok with
    | none => simpa using IsMantissa.whole digits some
    | point each _ => exact .pointed digits each (.inl some)
  rw [List.append_assoc sign]
  exact .mk minus base (exponentText_isExponent scale_ok)

end

section
variable {c d : Char}

theorem simpleEscape_unescape (escape : Json.simpleEscape? d = some c) :
    d ≠ 'u' ∧ unescape d = c := by
  revert escape
  fun_cases Json.simpleEscape? d <;> rintro ⟨⟩ <;> subst d <;> decide

/-- Pieces in front of others, with a text in front of theirs, that decode to one character. -/
def Writes (c : Char) (text : List Char) (own : List Piece) : Prop :=
  (∀ {pieces inner}, BodyText '"' pieces inner → BodyText '"' (own ++ pieces) (text ++ inner)) ∧
    ∀ pieces, decodePieces (own ++ pieces) = c :: decodePieces pieces

theorem charText_writes {text : List Char} (written : Json.CharText c text) :
    ∃ own, Writes c text own := by
  cases written with
  | plain _ quote backslash =>
    exact ⟨[.char c], fun others => .plain quote backslash others, fun _ => rfl⟩
  | short escape =>
    obtain ⟨unicode, rfl⟩ := simpleEscape_unescape escape
    exact ⟨[.char (unescape _)], fun others => .escaped unicode others, fun _ => rfl⟩
  | unit written =>
    obtain ⟨h₁, h₂, h₃, h₄, digits, rfl⟩ := written
    obtain ⟨_, high, low⟩ := Json.char_range c
    refine ⟨[.unit c.toNat], fun others => .unit digits others, fun pieces => ?_⟩
    have alone : loneUnit c.toNat = c := by simp [loneUnit, high, low]
    rw [List.singleton_append, decodePieces_unit high, alone]
  | pair beyond first second =>
    obtain ⟨h₁, h₂, h₃, h₄, digits, rfl⟩ := first
    obtain ⟨l₁, l₂, l₃, l₄, digits', rfl⟩ := second
    obtain ⟨high, low, pair⟩ := Json.units_pair beyond
    refine ⟨[.unit (Json.highUnit c), .unit (Json.lowUnit c)],
      fun others => .unit digits (.unit digits' others), fun pieces => ?_⟩
    simp [decodePieces, high, low, pair]

theorem charsText_body {cs text : List Char} (written : Json.CharsText cs text) :
    ∃ pieces, BodyText '"' pieces text ∧ decodePieces pieces = cs := by
  induction written with
  | nil => exact ⟨[], .done, rfl⟩
  | cons first _ ih =>
    obtain ⟨own, body, decode⟩ := charText_writes first
    obtain ⟨pieces, others, rfl⟩ := ih
    exact ⟨own ++ pieces, body others, decode pieces⟩

theorem string_mirrored {value : String} {text : List Char}
    (written : Json.StringText value text) : StringText value text := by
  obtain ⟨inner⟩ := written
  obtain ⟨pieces, body, decode⟩ := charsText_body inner
  have whole : String.ofList (decodePieces pieces) = value := by rw [decode, String.ofList_toList]
  exact whole ▸ .mk (.inl rfl) body

end

def Padded {α : Type} (G : α → List Char → Prop) (a : α) (text : List Char) : Prop :=
  ∃ inner behind, text = inner ++ behind ∧ Blanks behind ∧ G a inner

theorem padded_of {α : Type} {G : α → List Char → Prop} {a : α} {text : List Char}
    (written : G a text) : Padded G a text :=
  ⟨text, [], by simp, (fun _ none => by cases none), written⟩

section
variable {α β : Type} {G : α → List Char → Prop} {f : β → α} {opening closing : Char}
  {texts : List (List Char)} {text : List Char}
  (blank : ∀ {c a text}, isBlank c = true → G a text → G a (c :: text))
include blank

/-- The blanks behind an item go to what follows it, and those behind a comma to the item after
it. -/
theorem commas_listed (commas : Json.CommaText texts text) {gap : List Char} (closes : Blanks gap) :
    ∀ (items : List (β × List Char)), texts = items.map Prod.snd →
      (∀ item ∈ items, Padded G (f item.1) item.2) → ∀ {front : List Char}, Blanks front →
      Listed G closing ((items.map Prod.fst).map f) (front ++ text ++ gap ++ [closing]) := by
  induction commas with
  | one text =>
    intro items same each front left
    obtain ⟨⟨b, text⟩, rfl, rfl⟩ := List.map_eq_singleton_iff.mp same.symm
    obtain ⟨inner, behind, rfl, right, written⟩ := each _ List.mem_cons_self
    have own : G (f b) (front ++ inner) := behind_blanks blank left written
    refine ⟨[(f b, front ++ inner)], rfl, by simpa using own, ?_⟩
    simpa using EnclosedText.filled (.one (front ++ inner)) (blanks_append right closes)
  | more token _ ih =>
    intro items same each front left
    obtain ⟨⟨b, text⟩, others, rfl, rfl, more⟩ := List.map_eq_cons_iff.mp same.symm
    obtain ⟨⟨inner, behind, rfl, right, written⟩, later⟩ := List.forall_mem_cons.mp each
    obtain ⟨before, after⟩ := token
    obtain ⟨listed, as, those, enclosed⟩ := ih others more.symm later (spaces_blanks after)
    have own : G (f b) (front ++ inner) := behind_blanks blank left written
    have gap := blanks_append right (spaces_blanks before)
    have whole : EnclosedText closing ((front ++ inner) :: listed.map Prod.snd) _ :=
      enclosed_more gap enclosed
    refine ⟨(f b, front ++ inner) :: listed, by simp [as],
      List.forall_mem_cons.mpr ⟨own, those⟩, ?_⟩
    simpa using whole

theorem brackets_listed {items : List (β × List Char)}
    (brackets : Json.BracketText opening closing (items.map Prod.snd) text)
    (each : ∀ item ∈ items, Padded G (f item.1) item.2) :
    ∃ front inner behind, text = front ++ opening :: inner ++ behind ∧ Blanks front ∧
      Blanks behind ∧ Listed G closing ((items.map Prod.fst).map f) inner := by
  generalize whole : items.map Prod.snd = texts at brackets
  cases brackets with
  | empty opens closes =>
    obtain rfl := List.map_eq_nil_iff.mp whole
    obtain @⟨front, before, left, before_ok⟩ := opens
    obtain @⟨after, behind, after_ok, right⟩ := closes
    have gap := blanks_append (spaces_blanks before_ok) (spaces_blanks after_ok)
    exact ⟨front, before ++ after ++ [closing], behind, by simp, spaces_blanks left,
      spaces_blanks right, [], rfl, (fun _ none => by cases none), .empty gap⟩
  | @filled _ _ inner _ opens commas closes =>
    obtain @⟨front, before, left, before_ok⟩ := opens
    obtain @⟨after, behind, after_ok, right⟩ := closes
    refine ⟨front, before ++ inner ++ after ++ [closing], behind, by simp, spaces_blanks left,
      spaces_blanks right, ?_⟩
    exact commas_listed blank commas (spaces_blanks after_ok) items whole.symm each
      (spaces_blanks before_ok)

end

section
variable {text : List Char}

theorem array_mirrored {items : List (Tree × List Char)}
    (brackets : Json.BracketText '[' ']' (items.map Prod.snd) text)
    (each : ∀ item ∈ items, Padded ValueText (mirror item.1) item.2) :
    Padded ValueText (mirror (.array (items.map Prod.fst))) text := by
  obtain ⟨front, inner, behind, rfl, left, right, those, same, written, enclosed⟩ :=
    brackets_listed (fun first value => ValueText.blank first value) brackets each
  rw [mirror, mirrorItems_map, same]
  exact ⟨front ++ '[' :: inner, behind, rfl, right,
    behind_blanks .blank left (.array written enclosed)⟩

theorem object_mirrored {members : List ((String × Tree) × List Char)}
    (braces : Json.BracketText '{' '}' (members.map Prod.snd) text)
    (each : ∀ item ∈ members, Padded PropertyText (mirrorMember item.1) item.2) :
    Padded ValueText (mirror (.object (members.map Prod.fst))) text := by
  obtain ⟨front, inner, behind, rfl, left, right, those, same, written, enclosed⟩ :=
    brackets_listed (fun first property => PropertyText.blank first property) braces each
  rw [mirror, mirrorMembers_map, same]
  exact ⟨front ++ '{' :: inner, behind, rfl, right,
    behind_blanks .blank left (.object written enclosed)⟩

theorem member_mirrored {key : String} {tree : Tree} {keyText colon : List Char}
    (name : Json.StringText key keyText) (token : Json.TokenText ':' colon)
    (value : Padded ValueText (mirror tree) text) :
    Padded PropertyText (mirrorMember (key, tree)) (keyText ++ colon ++ text) := by
  obtain ⟨before, after⟩ := token
  obtain ⟨inner, behind, rfl, right, written⟩ := value
  have whole := PropertyText.pair (.string (string_mirrored name)) (spaces_blanks before)
    (behind_blanks .blank (spaces_blanks after) written)
  exact ⟨_, behind, by simp, right, whole⟩

end

/-- A JSON text of a tree is a text of the literal that says the same, but for blanks around it. -/
theorem treeText_mirrored {tree : Tree} {text : List Char} (written : Json.TreeText tree text) :
    Padded ValueText (mirror tree) text := by
  refine @Json.TreeText.rec (fun tree text _ => Padded ValueText (mirror tree) text)
    (fun member text _ => Padded PropertyText (mirrorMember member) text) ?null ?yes ?no ?number
    ?string ?array ?object ?member tree text written
  case null => exact padded_of .null
  case yes => exact padded_of .yes
  case no => exact padded_of .no
  case number => exact fun written => padded_of (.numeral (numberText_isNumeral written))
  case string => exact fun written => padded_of (.string (string_mirrored written))
  case array => exact fun _ brackets each => array_mirrored brackets each
  case object => exact fun _ braces each => object_mirrored braces each
  case member => exact fun name token _ value => member_mirrored name token value

/-- A JSON text is read as the literal that says the same. -/
theorem parse_document {tree : Tree} {source : String}
    (written : Json.DocumentText tree source.toList) : parse source = .ok (mirror tree) := by
  generalize whole : source.toList = s at written
  obtain ⟨left, value, right⟩ := written
  obtain ⟨inner, behind, rfl, gap, own⟩ := treeText_mirrored value
  have blanks := blanks_append gap (spaces_blanks right)
  have stops := blanks_stop blanks ends_nil
  rw [List.append_nil] at stops
  refine parse_ok_iff.mpr ⟨_, ?_, blanks⟩
  rw [whole, ← List.append_assoc, List.append_assoc (_ ++ inner)]
  exact valueText_read (behind_blanks .blank (spaces_blanks left) own) _ stops

def nestedText : String := "\x7b\"\\u00e9\\uD83D\\uDE00\" :\n[-0.5e+3, []]\x7d "

def nestedTree : Tree := .object [("é😀", .array [.number "-0.5e+3", .array []])]

theorem nestedText_written : Json.DocumentText nestedTree nestedText.toList := by
  have none : Json.Spaces [] := by decide
  have space : Json.Spaces [' '] := by decide
  have line : Json.Spaces ['\n'] := by decide
  have five : Json.Digits ['5'] := by decide
  have three : Json.Digits ['3'] := by decide
  have chars : Json.CharsText "é😀".toList _ :=
    .cons (.unit ⟨'0', '0', 'e', '9', by decide, rfl⟩)
      (.cons (.pair (by decide) ⟨'D', '8', '3', 'D', by decide, rfl⟩
        ⟨'D', 'E', '0', '0', by decide, rfl⟩) .nil)
  have number : Json.NumberText "-0.5e+3".toList :=
    .mk (.inr rfl) .zero (.point five (by decide))
      (.marked (.inl rfl) (.inr (.inl rfl)) three (by decide))
  have empty : Json.TreeText (.array []) "[]".toList :=
    @Json.TreeText.array [] _ (by simp) (.empty (.mk none none) (.mk none none))
  have list : Json.TreeText (.array [.number "-0.5e+3", .array []]) "[-0.5e+3, []]".toList :=
    @Json.TreeText.array [(_, _), (_, _)] _ (by simpa using ⟨.number number, empty⟩)
      (.filled (.mk none none) (.more (.mk none space) (.one _)) (.mk none none))
  have member : Json.MemberText ("é😀", _) _ := .mk (.mk chars) (.mk space line) list
  exact .mk none (@Json.TreeText.object [(_, _)] _ (by simpa using member)
    (.filled (.mk none none) (.one _) (.mk none none))) space

theorem nestedText_parsed : Json.DocumentText nestedTree nestedText.toList ∧
    parse nestedText = .ok (.object [(.quoted "é😀", .array [.num "-0.5e+3", .array []])]) :=
  ⟨nestedText_written, parse_document nestedText_written⟩

end StepFlow.Script.Literal
