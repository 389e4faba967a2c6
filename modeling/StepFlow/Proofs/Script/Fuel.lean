import StepFlow.Proofs.Script.Reading

/-!
Literals without fuel. A reader is called with at most three nested calls for each character that
it can still read, so with that many its answer does not depend on the number. The readers with
enough of them for their text obey one rule for each way a value, a list or an object can begin and
go on.
-/
namespace StepFlow.Script.Literal
open Text

section
variable {s rest : List Char}

theorem behind_shorter {c : Char} (skipped : skipBlanks s = c :: rest) :
    rest.length < s.length := by
  have le := (skipBlanks_suffix s).length_le
  rw [skipped, List.length_cons] at le
  omega

theorem expect_shorter {wanted : Char} {taken : Unit} (took : expect wanted s = .ok (taken, rest)) :
    rest.length < s.length := by
  unfold expect at took
  split at took
  · cases took
  · rename_i skipped
    split at took
    · cases took
      exact behind_shorter skipped
    · cases took

end

/-- One nested call more than enough changes nothing. -/
structure Settled (n : Nat) : Prop where
  value : ∀ s : List Char, 3 * s.length + 1 ≤ n → value (n + 1) s = value n s
  items : ∀ s : List Char, 3 * s.length + 3 ≤ n → items (n + 1) s = items n s
  properties : ∀ s : List Char, 3 * s.length + 3 ≤ n → properties (n + 1) s = properties n s
  property : ∀ s : List Char, 3 * s.length + 2 ≤ n → property (n + 1) s = property n s

theorem enclosed_congr {α : Type} {P : α → Prop} {close : Char} {unterminated : Cause}
    {stray : Char → Cause} {item item' : List Char → Reading α}
    {others others' : List Char → Reading (List α)} {s : List Char}
    (item_reads : ∀ t, Reads P t (item t))
    (item_same : ∀ t, t.length ≤ s.length → item' t = item t)
    (others_same : ∀ t, t.length < s.length → others' t = others t) :
    enclosed close unterminated stray item' others' s =
      enclosed close unterminated stray item others s := by
  have le := (skipBlanks_suffix s).length_le
  unfold enclosed
  rw [item_same _ le]
  cases first : item (skipBlanks s) with
  | error fault => rfl
  | ok pair =>
    obtain ⟨a, after⟩ := pair
    have left := (reads_ok (item_reads _) first).2.length_le
    dsimp only
    cases skipped : skipBlanks after with
    | nil => rfl
    | cons c rest =>
      have shorter := behind_shorter skipped
      simp only [others_same rest (by omega)]

section
variable {n : Nat} (below : Settled n) {s : List Char}
include below

theorem value_settles (enough : 3 * s.length + 1 ≤ n + 1) :
    value (n + 1 + 1) s = value (n + 1) s := by
  conv => lhs; rw [value]
  conv => rhs; rw [value]
  cases skipped : skipBlanks s with
  | nil => rfl
  | cons c rest =>
    have shorter := behind_shorter skipped
    simp only [below.properties rest (by omega), below.items rest (by omega),
      below.value rest (by omega)]

theorem items_settles (enough : 3 * s.length + 3 ≤ n + 1) :
    items (n + 1 + 1) s = items (n + 1) s := by
  rw [items_enclosed, items_enclosed]
  exact enclosed_congr (sound n).value (fun t le => below.value t (by omega))
    fun t lt => below.items t (by omega)

theorem properties_settles (enough : 3 * s.length + 3 ≤ n + 1) :
    properties (n + 1 + 1) s = properties (n + 1) s := by
  rw [properties_enclosed, properties_enclosed]
  exact enclosed_congr (sound n).property (fun t le => below.property t (by omega))
    fun t lt => below.properties t (by omega)

theorem property_settles (enough : 3 * s.length + 2 ≤ n + 1) :
    property (n + 1 + 1) s = property (n + 1) s := by
  conv => lhs; rw [property]
  conv => rhs; rw [property]
  cases named : key s with
  | error fault => rfl
  | ok pair =>
    obtain ⟨⟨k, shorthand⟩, after⟩ := pair
    have left := (reads_ok (key_reads s) named).2.length_le
    have le := (skipBlanks_suffix after).length_le
    dsimp only
    cases took : expect ':' (skipBlanks after) with
    | error fault => rfl
    | ok pair =>
      obtain ⟨_, after⟩ := pair
      have shorter := expect_shorter took
      simp only [below.value after (by omega)]

end

/-- The readers of literals do not depend on fuel beyond what their text needs. -/
theorem settled (n : Nat) : Settled n := by
  induction n with
  | zero => constructor <;> intro s enough <;> omega
  | succ n below =>
    exact ⟨fun _ => value_settles below, fun _ => items_settles below,
      fun _ => properties_settles below, fun _ => property_settles below⟩

def readValue (s : List Char) : Reading Expr := value (fuelFor s) s

def readItems (s : List Char) : Reading (List Expr) := items (fuelFor s) s

def readProperties (s : List Char) : Reading (List (PropKey × Expr)) := properties (fuelFor s) s

def readProperty (s : List Char) : Reading (PropKey × Expr) := property (fuelFor s) s

theorem same_beyond {α : Type} {f : Nat → α} {least m n : Nat}
    (next : ∀ k, least ≤ k → f (k + 1) = f k) (first : least ≤ m) (second : least ≤ n) :
    f m = f n := by
  have least_same : ∀ k, least ≤ k → f k = f least := by
    intro k le
    induction le with
    | refl => rfl
    | step le ih => rw [next _ le, ih]
  rw [least_same m first, least_same n second]

section
variable {n : Nat} {s : List Char}

theorem value_enough (enough : 3 * s.length + 1 ≤ n) : value n s = readValue s :=
  same_beyond (f := (value · s)) (fun k le => (settled k).value s le) enough (by simp [fuelFor])

theorem items_enough (enough : 3 * s.length + 3 ≤ n) : items n s = readItems s :=
  same_beyond (f := (items · s)) (fun k le => (settled k).items s le) enough (by simp [fuelFor])

theorem properties_enough (enough : 3 * s.length + 3 ≤ n) : properties n s = readProperties s :=
  same_beyond (f := (properties · s)) (fun k le => (settled k).properties s le) enough
    (by simp [fuelFor])

theorem property_enough (enough : 3 * s.length + 2 ≤ n) : property n s = readProperty s :=
  same_beyond (f := (property · s)) (fun k le => (settled k).property s le) enough
    (by simp [fuelFor])

end

theorem readValue_eq (s : List Char) :
    readValue s =
      match skipBlanks s with
      | [] => fail .unexpectedEnd []
      | c :: rest =>
        if c = '{' then
          match readProperties rest with
          | .ok (props, after) => .ok (.object props, after)
          | .error fault => .error fault
        else if c = '[' then
          match readItems rest with
          | .ok (es, after) => .ok (.array es, after)
          | .error fault => .error fault
        else if c = '(' then
          match readValue rest with
          | .ok (e, after) =>
            match expect ')' after with
            | .ok (_, after) => .ok (e, after)
            | .error fault => .error fault
          | .error fault => .error fault
        else if isQuote c then
          match stringBody c rest with
          | .ok (text, after) => .ok (.str (String.ofList text), after)
          | .error fault => .error fault
        else if startsNumber c then
          match number (c :: rest) with
          | .ok (spelling, after) => .ok (.num (String.ofList spelling), after)
          | .error fault => .error fault
        else if isWordStart c then word (c :: rest)
        else fail (.unexpected c) (c :: rest) := by
  conv => lhs; rw [readValue, fuelFor, value]
  cases skipped : skipBlanks s with
  | nil => rfl
  | cons c rest =>
    have shorter := behind_shorter skipped
    have objects := properties_enough (s := rest) (n := 3 * s.length + 2) (by omega)
    have lists := items_enough (s := rest) (n := 3 * s.length + 2) (by omega)
    have nested := value_enough (s := rest) (n := 3 * s.length + 2) (by omega)
    dsimp only
    exact objects ▸ lists ▸ nested ▸ rfl

theorem readItems_eq (s : List Char) : readItems s =
    enclosed ']' .unterminatedList .expectedInList readValue readItems s := by
  rw [readItems, fuelFor, items_enclosed]
  exact (enclosed_congr (sound _).value (fun t le => (value_enough (by omega)).symm)
    fun t lt => (items_enough (by omega)).symm).symm

theorem readProperties_eq (s : List Char) : readProperties s =
    enclosed '}' .unterminatedObject .expectedInObject readProperty readProperties s := by
  rw [readProperties, fuelFor, properties_enclosed]
  exact (enclosed_congr (sound _).property (fun t le => (property_enough (by omega)).symm)
    fun t lt => (properties_enough (by omega)).symm).symm

theorem readProperty_eq (s : List Char) :
    readProperty s =
      match key s with
      | .error fault => .error fault
      | .ok ((k, shorthand), after) =>
        let after := skipBlanks after
        match shorthand, atPropertyEnd after with
        | some name, true =>
          if isIdentifier name then .ok ((k, .ident name), after)
          else fail (.reservedShorthand name) after
        | _, _ =>
          match expect ':' after with
          | .error fault => .error fault
          | .ok (_, after) =>
            match readValue after with
            | .ok (e, after) => .ok ((k, e), after)
            | .error fault => .error fault := by
  conv => lhs; rw [readProperty, fuelFor, property]
  cases named : key s with
  | error fault => rfl
  | ok pair =>
    obtain ⟨⟨k, shorthand⟩, after⟩ := pair
    have left := (reads_ok (key_reads s) named).2.length_le
    have le := (skipBlanks_suffix after).length_le
    dsimp only
    cases took : expect ':' (skipBlanks after) with
    | error fault => rfl
    | ok pair =>
      obtain ⟨_, after⟩ := pair
      have shorter := expect_shorter took
      have nested := value_enough (s := after) (n := 3 * s.length + 2) (by omega)
      dsimp only
      exact nested ▸ rfl

theorem whole_eq (s : List Char) :
    whole s =
      match readValue s with
      | .error fault => .error fault
      | .ok (e, after) =>
        match skipBlanks after with
        | [] => .ok e
        | c :: rest => .error ⟨.unexpectedAfterValue c, c :: rest⟩ := rfl

end StepFlow.Script.Literal
