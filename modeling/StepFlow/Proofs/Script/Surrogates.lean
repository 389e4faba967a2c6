import StepFlow.Proofs.Json.Grammar
import StepFlow.Proofs.Script.Accepted

/-!
Escaped code units in a string. Whether an escaped surrogate is one half of a pair is told by its
neighbours alone: no unit is both a high and a low surrogate, so no unit can belong to two pairs. So
what an item stands for is stated item by item, and the reader, which looks one item ahead, agrees.
Where there are only escapes this is UTF-16 with a replacement for each surrogate that is not part
of the encoding of a character.
-/
namespace StepFlow.Script.Literal
open Text
open Json (highUnit lowUnit char_range units_pair)

def caseDigit (upper : Bool) (n : Nat) : Char :=
  if upper && 10 ≤ n then Char.ofNat ('A'.toNat + (n - 10)) else hexDigit n

/-- A character as it stands, or a code unit as four hexadecimal digits behind `\u`. -/
inductive Item where
  | plain (c : Char)
  | escape (unit : UInt16) (upper : Fin 4 → Bool)

namespace Item

def text : Item → List Char
  | plain c => [c]
  | escape unit upper =>
    ['\\', 'u', caseDigit (upper 0) (unit.toNat / 4096),
      caseDigit (upper 1) (unit.toNat / 256 % 16), caseDigit (upper 2) (unit.toNat / 16 % 16),
      caseDigit (upper 3) (unit.toNat % 16)]

/-- A quote of the string's own kind and a backslash do not stand for themselves. -/
def Fits (close : Char) : Item → Prop
  | plain c => c ≠ close ∧ c ≠ '\\'
  | escape _ _ => True

def unit? : Item → Option Nat
  | plain _ => none
  | escape unit _ => some unit.toNat

/-- What an item stands for between the units before and after it. Behind a high surrogate a low
one stands for nothing more: the pair stands at the place of the high one. -/
def yield (before after : Option Nat) : Item → List Char
  | plain c => [c]
  | escape unit _ =>
    if isHighSurrogate unit.toNat then
      match after with
      | some low => if isLowSurrogate low then [surrogatePair unit.toNat low] else [replacement]
      | none => [replacement]
    else if isLowSurrogate unit.toNat then
      if before.any isHighSurrogate then [] else [replacement]
    else [Char.ofNat unit.toNat]

def piece : Item → Piece
  | plain c => .char c
  | escape unit _ => .unit unit.toNat

end Item

def quotedItems (close : Char) (items : List Item) : String :=
  String.ofList (close :: (items.flatMap Item.text ++ [close]))

def itemsValue (before : Option Nat) : List Item → List Char
  | [] => []
  | item :: items =>
    item.yield before (items.head?.bind Item.unit?) ++ itemsValue item.unit? items

def Alone (unit : Nat) (next : Option Nat) : Prop :=
  isHighSurrogate unit = true → ∀ low, next = some low → isLowSurrogate low = false

def utf16 (c : Char) : List Nat :=
  if c.toNat < 0x10000 then [c.toNat] else [highUnit c, lowUnit c]

/-- Units read as characters: a surrogate that encodes none together with its neighbour is
replaced. -/
inductive LossyUtf16 : List Nat → List Char → Prop where
  | done : LossyUtf16 [] []
  | char {c : Char} {units : List Nat} {chars : List Char} (others : LossyUtf16 units chars) :
      LossyUtf16 (utf16 c ++ units) (c :: chars)
  | lone {unit : Nat} {units : List Nat} {chars : List Char}
      (surrogate : isHighSurrogate unit = true ∨ isLowSurrogate unit = true)
      (alone : Alone unit units.head?) (others : LossyUtf16 units chars) :
      LossyUtf16 (unit :: units) (replacement :: chars)

section
variable {unit low : Nat} {units : List Nat} {chars : List Char} {pieces : List Piece}

theorem high_not_low (high : isHighSurrogate unit = true) : isLowSurrogate unit = false := by
  simp only [isHighSurrogate, isLowSurrogate, Bool.and_eq_true, Bool.and_eq_false_iff,
    decide_eq_true_eq, decide_eq_false_iff_not] at high ⊢
  omega

def nextUnit : List Piece → Option Nat
  | .unit unit :: _ => some unit
  | _ => none

theorem decodePieces_lone (alone : Alone unit (nextUnit pieces)) :
    decodePieces (.unit unit :: pieces) = loneUnit unit :: decodePieces pieces := by
  cases high : isHighSurrogate unit with
  | false => exact decodePieces_unit high
  | true =>
    match pieces with
    | [] => rfl
    | .char c :: rest => simp [decodePieces]
    | .unit low :: rest => simp [decodePieces, alone high low rfl]

theorem not_alone {next : Option Nat} (pair : ¬ Alone unit next) :
    isHighSurrogate unit = true ∧ ∃ low, next = some low ∧ isLowSurrogate low = true := by
  simpa [Alone] using pair

theorem decodePieces_pair (high : isHighSurrogate unit = true)
    (paired : isLowSurrogate low = true) :
    decodePieces (.unit unit :: .unit low :: pieces) =
      surrogatePair unit low :: decodePieces pieces := by
  simp [decodePieces, high, paired]

theorem toNat_ofNat {n : Nat} (valid : n.isValidChar) : (Char.ofNat n).toNat = n := by
  rw [Char.ofNat, dif_pos valid]
  rfl

theorem utf16_pair (high : isHighSurrogate unit = true) (paired : isLowSurrogate low = true) :
    utf16 (surrogatePair unit low) = [unit, low] := by
  simp only [isHighSurrogate, isLowSurrogate, Bool.and_eq_true, decide_eq_true_eq] at high paired
  have code : (surrogatePair unit low).toNat =
      0x10000 + (unit - 0xD800) * 0x400 + (low - 0xDC00) :=
    toNat_ofNat (Or.inr (by omega))
  have first : 0xD800 + ((surrogatePair unit low).toNat - 0x10000) / 0x400 = unit := by omega
  have second : 0xDC00 + ((surrogatePair unit low).toNat - 0x10000) % 0x400 = low := by omega
  rw [utf16, if_neg (by omega), highUnit, lowUnit, first, second]

theorem utf16_single {unit : Nat} (bounded : unit < 0x10000) (high : isHighSurrogate unit = false)
    (single : isLowSurrogate unit = false) : utf16 (Char.ofNat unit) = [unit] := by
  simp only [isHighSurrogate, isLowSurrogate, Bool.and_eq_false_iff,
    decide_eq_false_iff_not] at high single
  have code : (Char.ofNat unit).toNat = unit := toNat_ofNat (by rw [Nat.isValidChar]; omega)
  rw [utf16, code, if_pos bounded]

/-- The units of a character decode to it. -/
theorem decodePieces_utf16 (c : Char) :
    decodePieces ((utf16 c).map Piece.unit ++ pieces) = c :: decodePieces pieces := by
  obtain ⟨_, high, single⟩ := char_range c
  by_cases small : c.toNat < 0x10000
  · have lone : loneUnit c.toNat = c := by simp [loneUnit, high, single]
    rw [utf16, if_pos small, List.map_singleton, List.singleton_append, decodePieces_unit high,
      lone]
  · obtain ⟨high, paired, pair⟩ := units_pair (Nat.le_of_not_lt small)
    rw [utf16, if_neg small, List.map_cons, List.map_singleton, List.cons_append,
      List.singleton_append, decodePieces_pair high paired, pair]

theorem nextUnit_units (units : List Nat) : nextUnit (units.map Piece.unit) = units.head? := by
  cases units <;> rfl

theorem lossy_decoded (lossy : LossyUtf16 units chars) :
    decodePieces (units.map Piece.unit) = chars := by
  induction lossy with
  | done => rfl
  | char _ ih => rw [List.map_append, decodePieces_utf16, ih]
  | @lone unit units chars surrogate alone _ ih =>
    have replaced : loneUnit unit = replacement := by simp [loneUnit, surrogate]
    rw [List.map_cons, decodePieces_lone ((nextUnit_units units).symm ▸ alone), ih, replaced]

theorem lossy_lone (bounded : unit < 0x10000) (alone : Alone unit units.head?)
    (others : LossyUtf16 units chars) : LossyUtf16 (unit :: units) (loneUnit unit :: chars) := by
  by_cases surrogate : isHighSurrogate unit = true ∨ isLowSurrogate unit = true
  · have replaced : loneUnit unit = replacement := by simp [loneUnit, surrogate]
    exact replaced ▸ .lone surrogate alone others
  · simp only [not_or, Bool.not_eq_true] at surrogate
    obtain ⟨high, single⟩ := surrogate
    have plain : loneUnit unit = Char.ofNat unit := by simp [loneUnit, high, single]
    have char := LossyUtf16.char (c := Char.ofNat unit) others
    rw [utf16_single bounded high single] at char
    exact plain ▸ char

theorem lossy_pair (high : isHighSurrogate unit = true) (paired : isLowSurrogate low = true)
    (others : LossyUtf16 units chars) :
    LossyUtf16 (unit :: low :: units) (surrogatePair unit low :: chars) := by
  have pair := LossyUtf16.char (c := surrogatePair unit low) others
  rwa [utf16_pair high paired] at pair

theorem decoded_lossy : ∀ units : List Nat, (∀ unit ∈ units, unit < 0x10000) →
    LossyUtf16 units (decodePieces (units.map Piece.unit))
  | [], _ => .done
  | unit :: units, bounded => by
    obtain ⟨own, bounded⟩ := List.forall_mem_cons.mp bounded
    by_cases alone : Alone unit units.head?
    · rw [List.map_cons, decodePieces_lone ((nextUnit_units units).symm ▸ alone)]
      exact lossy_lone own alone (decoded_lossy units bounded)
    · obtain ⟨high, low, next, is⟩ := not_alone alone
      obtain ⟨rest, rfl⟩ := List.head?_eq_some_iff.mp next
      rw [List.map_cons, List.map_cons, decodePieces_pair high is]
      exact lossy_pair high is (decoded_lossy rest (List.forall_mem_cons.mp bounded).2)

end

section
variable {before after : Option Nat} {unit : UInt16} {upper : Fin 4 → Bool} {items : List Item}

theorem low_not_high {unit : Nat} (low : isLowSurrogate unit = true) :
    isHighSurrogate unit = false :=
  Bool.eq_false_iff.mpr fun high => by simp [high_not_low high] at low

theorem yield_alone (alone : Alone unit.toNat after) (free : ∀ u, before = some u →
    Alone u (some unit.toNat)) :
    (Item.escape unit upper).yield before after = [loneUnit unit.toNat] := by
  cases high : isHighSurrogate unit.toNat with
  | true =>
    cases after with
    | none => simp [Item.yield, loneUnit, high]
    | some low => simp [Item.yield, loneUnit, high, alone high low rfl]
  | false =>
    cases low : isLowSurrogate unit.toNat with
    | false => simp [Item.yield, loneUnit, high, low]
    | true =>
      have unpaired : before.any isHighSurrogate = false := by
        cases before with
        | none => rfl
        | some u => exact Bool.eq_false_iff.mpr fun first => by simp [free u rfl first _ rfl] at low
      simp [Item.yield, loneUnit, high, low, unpaired]

theorem nextUnit_items (items : List Item) :
    nextUnit (items.map Item.piece) = items.head?.bind Item.unit? := by
  match items with
  | [] | .plain _ :: _ | .escape _ _ :: _ => rfl

theorem next_escape {low : Nat} (next : items.head?.bind Item.unit? = some low) :
    ∃ (second : UInt16) (upper : Fin 4 → Bool) (rest : List Item),
      items = .escape second upper :: rest ∧ second.toNat = low := by
  obtain ⟨item, first, is⟩ := Option.bind_eq_some_iff.mp next
  obtain ⟨rest, rfl⟩ := List.head?_eq_some_iff.mp first
  cases item with
  | plain c => cases is
  | escape second upper => exact ⟨second, upper, rest, rfl, Option.some.inj is⟩

theorem decodePieces_items : ∀ (items : List Item) (before : Option Nat),
    (∀ u, before = some u → Alone u (items.head?.bind Item.unit?)) →
      decodePieces (items.map Item.piece) = itemsValue before items
  | [], _, _ => rfl
  | .plain c :: items, before, _ => by
    have others := decodePieces_items items none fun _ none => by cases none
    rw [List.map_cons, itemsValue, Item.piece, decodePieces, others]
    rfl
  | .escape unit upper :: items, before, free => by
    by_cases alone : Alone unit.toNat (items.head?.bind Item.unit?)
    · have others := decodePieces_items items (some unit.toNat) fun u same => by
        cases same
        exact alone
      rw [List.map_cons, itemsValue, Item.piece,
        decodePieces_lone ((nextUnit_items items).symm ▸ alone), others, yield_alone alone free]
      rfl
    · obtain ⟨high, low, next, is⟩ := not_alone alone
      obtain ⟨second, upper, rest, rfl, rfl⟩ := next_escape next
      have others := decodePieces_items rest (some second.toNat) fun u same high => by
        cases same
        simp [low_not_high is] at high
      simp [itemsValue, Item.yield, Item.unit?, Item.piece, decodePieces_pair high is, others,
        high, is, low_not_high is]

theorem caseDigit_value (upper : Bool) {n : Nat} (digit : n < 16) :
    hexDigitValue? (caseDigit upper n) = some n := by
  revert upper n
  decide

theorem escape_value (unit : UInt16) (upper : Fin 4 → Bool) :
    hexValue? (caseDigit (upper 0) (unit.toNat / 4096))
      (caseDigit (upper 1) (unit.toNat / 256 % 16)) (caseDigit (upper 2) (unit.toNat / 16 % 16))
      (caseDigit (upper 3) (unit.toNat % 16)) = some unit.toNat := by
  have bounded := unit.toNat_lt
  rw [hexValue?, caseDigit_value _ (by omega), caseDigit_value _ (by omega),
    caseDigit_value _ (by omega), caseDigit_value _ (by omega)]
  refine congrArg some ?_
  omega

theorem items_body {close : Char} (fits : ∀ item ∈ items, item.Fits close) :
    BodyText close (items.map Item.piece) (items.flatMap Item.text) := by
  induction items with
  | nil => exact .done
  | cons item items ih =>
    have others := ih fun next member => fits next (List.mem_cons_of_mem _ member)
    cases item with
    | plain c =>
      obtain ⟨quote, backslash⟩ := fits _ List.mem_cons_self
      exact .plain quote backslash others
    | escape unit upper => exact .unit (escape_value unit upper) others

theorem unit?_escape {item : Item} {unit : Nat} (is : item.unit? = some unit) :
    item.piece = .unit unit ∧ unit < 0x10000 := by
  cases item with
  | plain c => cases is
  | escape u upper =>
    cases is
    exact ⟨rfl, u.toNat_lt⟩

theorem escapes_units {units : List Nat} (escapes : items.map Item.unit? = units.map some) :
    items.map Item.piece = units.map Piece.unit ∧ ∀ unit ∈ units, unit < 0x10000 := by
  induction items generalizing units with
  | nil => simp_all
  | cons item items ih =>
    obtain ⟨unit, units, rfl, first, others⟩ := List.map_eq_cons_iff.mp escapes.symm
    obtain ⟨piece, bounded⟩ := unit?_escape first.symm
    obtain ⟨pieces, each⟩ := ih others.symm
    exact ⟨by rw [List.map_cons, List.map_cons, piece, pieces],
      List.forall_mem_cons.mpr ⟨bounded, each⟩⟩

/-- A string of items is read as what they stand for, and escapes alone are read as UTF-16. -/
theorem string_decodes {quote : Char} (is : quote = '"' ∨ quote = '\'')
    (fits : ∀ item ∈ items, item.Fits quote) :
    parse (quotedItems quote items) = .ok (.str (String.ofList (itemsValue none items))) ∧
      ∀ units : List Nat, items.map Item.unit? = units.map some →
        ∀ chars, LossyUtf16 units chars ↔ chars = itemsValue none items := by
  have decoded := decodePieces_items items none fun _ none => by cases none
  constructor
  · have written := ValueText.string (.mk is (items_body fits))
    have read := valueText_read written [] ends_nil
    rw [decoded, List.append_nil] at read
    exact parse_ok_iff.mpr ⟨[], by rwa [quotedItems, String.toList_ofList],
      fun _ member => by cases member⟩
  · intro units escapes chars
    obtain ⟨pieces, bounded⟩ := escapes_units escapes
    rw [← decoded, pieces]
    exact ⟨fun lossy => (lossy_decoded lossy).symm, fun same => same ▸ decoded_lossy units bounded⟩

def halvedItems : List Item :=
  [.escape 0xD83D fun _ => true, .escape 0xD83D fun _ => false, .escape 0xDE00 fun _ => true,
    .escape 0xDE00 fun _ => true, .escape 0xD83D fun _ => true, .plain 'n', .escape 0xE9 (· == 2)]

theorem halvedItems_decoded : (∀ item ∈ halvedItems, item.Fits '\'') ∧
    quotedItems '\'' halvedItems = "'\\uD83D\\ud83d\\uDE00\\uDE00\\uD83Dn\\u00E9'" ∧
    parse (quotedItems '\'' halvedItems) = .ok (.str "\uFFFD😀\uFFFD\uFFFDné") := by
  have fits : ∀ item ∈ halvedItems, item.Fits '\'' := by
    simp [halvedItems, Item.Fits]
  have value : String.ofList (itemsValue none halvedItems) = "\uFFFD😀\uFFFD\uFFFDné" := by decide
  exact ⟨fits, by decide, value ▸ (string_decodes (.inr rfl) fits).1⟩

end

end StepFlow.Script.Literal
