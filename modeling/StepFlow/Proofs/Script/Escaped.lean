import StepFlow.Proofs.Script.Surrogates

/-!
Escapes read one by one. A string is read into pieces first and decoded afterwards, but it can also
be decoded on the way: an escaped high surrogate makes a pair with the escape behind it if that is a
low surrogate, and otherwise stands alone, with the text behind it still unread.
-/
namespace StepFlow.Script.Literal
open Text

/-- The number that `n` hexadecimal digits go on to write behind `code`, if there are so many. -/
def hexCode : Nat → Nat → List Char → Option Nat
  | 0, code, _ => some code
  | _ + 1, _, [] => none
  | n + 1, code, c :: s => (hexDigitValue? c).bind fun digit => hexCode n (code * 16 + digit) s

def lowAhead : List Char → Option Nat
  | '\\' :: 'u' :: s => (hexCode 4 0 s).filter isLowSurrogate
  | _ => none

def escapedChar (s : List Char) : Reading Char :=
  match hexCode 4 0 s with
  | none => fail .invalidEscape (afterHex 4 s)
  | some code =>
    if isHighSurrogate code then
      match lowAhead (afterHex 4 s) with
      | some low => .ok (surrogatePair code low, afterHex 4 ((afterHex 4 s).drop 2))
      | none => .ok (replacement, afterHex 4 s)
    else .ok (loneUnit code, afterHex 4 s)

section
variable {s : List Char} {code : Nat}

theorem hexDigit_small {c : Char} {digit : Nat} (is : hexDigitValue? c = some digit) :
    digit < 16 := by
  have shifted : ∀ {first last : Char}, first ≤ c ∧ c ≤ last →
      c.toNat - first.toNat ≤ last.toNat - first.toNat := fun bounds =>
    Nat.sub_le_sub_right (UInt32.le_iff_toNat_le.mp (Char.le_def.mp bounds.2)) _
  unfold hexDigitValue? at is
  split at is
  · rename_i bounds
    cases is
    exact Nat.lt_of_le_of_lt (shifted bounds) (by decide)
  · split at is
    · rename_i bounds
      cases is
      exact Nat.lt_of_le_of_lt (Nat.add_le_add_right (shifted bounds) 10) (by decide)
    · split at is
      · rename_i bounds
        cases is
        exact Nat.lt_of_le_of_lt (Nat.add_le_add_right (shifted bounds) 10) (by decide)
      · cases is

theorem hexCode_four {h₁ h₂ h₃ h₄ : Char} (after : List Char) :
    hexCode 4 0 (h₁ :: h₂ :: h₃ :: h₄ :: after) = hexValue? h₁ h₂ h₃ h₄ := by
  simp [hexCode, hexValue?, bind, pure]

theorem hexCode_digits (read : hexCode 4 0 s = some code) : ∃ h₁ h₂ h₃ h₄,
    s = h₁ :: h₂ :: h₃ :: h₄ :: afterHex 4 s ∧ hexValue? h₁ h₂ h₃ h₄ = some code := by
  match s with
  | h₁ :: h₂ :: h₃ :: h₄ :: after =>
    refine ⟨h₁, h₂, h₃, h₄, ?_, hexCode_four after ▸ read⟩
    simp only [hexCode, Option.bind_eq_some_iff] at read
    obtain ⟨_, first, _, second, _, third, _, fourth, _⟩ := read
    simp [afterHex, first, second, third, fourth]
  | [] | [_] | [_, _] | [_, _, _] => simp [hexCode] at read

theorem hexCode_unit (read : hexCode 4 0 s = some code) : code < 0x10000 := by
  obtain ⟨h₁, h₂, h₃, h₄, _, digits⟩ := hexCode_digits read
  simp only [hexValue?, Option.bind_eq_bind, Option.bind_eq_some_iff] at digits
  obtain ⟨a, first, b, second, c, third, d, fourth, value⟩ := digits
  have first := hexDigit_small first
  have second := hexDigit_small second
  have third := hexDigit_small third
  have fourth := hexDigit_small fourth
  cases value
  omega

theorem lowAhead_some {low : Nat} (ahead : lowAhead s = some low) :
    ∃ t, s = '\\' :: 'u' :: t ∧ hexCode 4 0 t = some low ∧ isLowSurrogate low = true := by
  unfold lowAhead at ahead
  split at ahead
  · rename_i t
    obtain ⟨digits, is⟩ := Option.filter_eq_some_iff.mp ahead
    exact ⟨t, rfl, digits, is⟩
  · cases ahead

theorem lowAhead_none (other : ¬ ∃ t, s = '\\' :: 'u' :: t) : lowAhead s = none := by
  unfold lowAhead
  split
  · exact absurd ⟨_, rfl⟩ other
  · rfl

theorem escapedChar_reads (s : List Char) : Reads (fun _ => True) s (escapedChar s) := by
  have behind := afterHex_suffix 4 s
  unfold escapedChar
  split
  · exact behind
  · split
    · split
      · exact ⟨trivial, (afterHex_suffix 4 _).trans ((List.drop_suffix 2 _).trans behind)⟩
      · exact ⟨trivial, behind⟩
    · exact ⟨trivial, behind⟩

theorem valid_unit (bounded : code < 0x10000) (high : isHighSurrogate code = false)
    (low : isLowSurrogate code = false) : code.isValidChar := by
  simp only [isHighSurrogate, isLowSurrogate, Bool.and_eq_false_iff,
    decide_eq_false_iff_not] at high low
  rw [Nat.isValidChar]
  omega

end

section
variable {close : Char} {s t : List Char} {code : Nat}

theorem pieces_unit (plain : close ≠ '\\') (read : hexCode 4 0 s = some code) :
    stringPieces close ('\\' :: 'u' :: s) =
      withItem (.unit code) (stringPieces close (afterHex 4 s)) := by
  obtain ⟨h₁, h₂, h₃, h₄, split, digits⟩ := hexCode_digits read
  generalize afterHex 4 s = after at split ⊢
  subst split
  exact stringPieces_unit plain digits

theorem pieces_invalid (plain : close ≠ '\\') (none : hexCode 4 0 s = none) :
    stringPieces close ('\\' :: 'u' :: s) = fail .invalidEscape (afterHex 4 s) := by
  rw [stringPieces.eq_def]
  simp only [plain.symm, if_false, if_true]
  split
  · rename_i h₁ h₂ h₃ h₄ after
    rw [← hexCode_four after, none]
  · rfl

theorem nextUnit_escaped {pieces : List Piece} {rest : List Char}
    (read : stringPieces close s = .ok (pieces, rest)) (next : nextUnit pieces = some code) :
    ∃ t, s = '\\' :: 'u' :: t ∧ hexCode 4 0 t = some code := by
  obtain ⟨text, rfl, body⟩ := stringPieces_split read
  cases body with
  | done | plain | escaped => cases next
  | unit digits _ =>
    cases next
    exact ⟨_, rfl, (hexCode_four _).trans digits⟩

theorem ahead_alone {pieces : List Piece} {rest : List Char} (none : lowAhead s = none)
    (read : stringPieces close s = .ok (pieces, rest)) : Alone code (nextUnit pieces) := by
  intro _ low next
  obtain ⟨t, rfl, digits⟩ := nextUnit_escaped read next
  simpa [lowAhead, digits, Option.filter] using none

/-- The first piece can be decoded before the others are read. -/
theorem body_piece {piece : Piece} {d : Char}
    (first : stringPieces close s = withItem piece (stringPieces close t))
    (decodes : ∀ pieces rest, stringPieces close t = .ok (pieces, rest) →
      decodePieces (piece :: pieces) = d :: decodePieces pieces) :
    stringBody close s = withItem d (stringBody close t) := by
  rw [stringBody, first, stringBody]
  cases read : stringPieces close t with
  | error fault => rfl
  | ok pair => simp only [withItem, decodes _ _ read]

theorem body_char {piece : Char}
    (first : stringPieces close s = withItem (.char piece) (stringPieces close t)) :
    stringBody close s = withItem piece (stringBody close t) :=
  body_piece first fun _ _ _ => by rw [decodePieces]

theorem body_pair {low : Nat} (plain : close ≠ '\\') (read : hexCode 4 0 s = some code)
    (high : isHighSurrogate code = true) (split : afterHex 4 s = '\\' :: 'u' :: t)
    (next : hexCode 4 0 t = some low) (paired : isLowSurrogate low = true) :
    stringBody close ('\\' :: 'u' :: s) =
      withItem (surrogatePair code low) (stringBody close (afterHex 4 t)) := by
  rw [stringBody, pieces_unit plain read, split, pieces_unit plain next, stringBody]
  cases stringPieces close (afterHex 4 t) with
  | error fault => rfl
  | ok pair => simp only [withItem, decodePieces_pair high paired]

theorem body_escape (plain : close ≠ '\\') (s : List Char) :
    stringBody close ('\\' :: 'u' :: s) =
      match escapedChar s with
      | .ok (d, rest) => withItem d (stringBody close rest)
      | .error fault => .error fault := by
  rw [escapedChar]
  cases read : hexCode 4 0 s with
  | none =>
    rw [stringBody, pieces_invalid plain read]
    rfl
  | some code =>
    have unit := pieces_unit plain read
    dsimp only
    cases high : isHighSurrogate code with
    | false => exact body_piece unit fun _ _ _ => decodePieces_unit high
    | true =>
      cases ahead : lowAhead (afterHex 4 s) with
      | some low =>
        obtain ⟨t, split, digits, is⟩ := lowAhead_some ahead
        rw [body_pair plain read high split digits is, split]
        rfl
      | none =>
        have replaced : loneUnit code = replacement := by simp [loneUnit, high]
        exact body_piece unit fun _ _ body =>
          replaced ▸ decodePieces_lone (ahead_alone ahead body)

end

end StepFlow.Script.Literal
