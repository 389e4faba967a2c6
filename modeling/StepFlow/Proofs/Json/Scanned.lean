import StepFlow.Json.Decoder
import StepFlow.Proofs.Json.Printed

/-!
Scans of printed values. An array is gone through item by item and an object with a tag member by
member, so the laws of what stands within carry over to the whole. In the other direction, the
items that a scan gives have each been read somewhere in the text.
-/
namespace StepFlow.Json
open Text

section
variable {α β κ : Type} {s s' rest : List Char} {a : α}

theorem scan_next {step : Scan α} (taken : step s = .ok (a, s')) (next : α → Scan β) :
    (step >>= next) s = next a s' := by
  simp only [bind, StateT.bind, taken, Except.bind]

theorem scan_read {reading : List Char → Reading α} (taken : reading s = .ok (a, s')) :
    Scan.read reading s = .ok (a, s') := by
  simp only [Scan.read, taken]

theorem scan_peek {c : Char} (other : isSpace c = false) :
    Scan.peek (c :: s) = .ok (some c, c :: s) := by
  simp only [Scan.peek, skipSpace_other other, List.head?_cons]

theorem scan_decoded {decoding : Decoding α} (decoded : decoding = .ok a) :
    Scan.ofDecoding decoding s = .ok (a, s) := by
  rw [decoded]
  rfl

theorem scan_enter {c : Char} (room : Nat) (body : Nat → Scan α) :
    Scan.enter (room + 1) body (c :: s) = body room s := rfl

/-- A reader of items that gives back what the text of a value was printed from. -/
def ReadsBack (item : Scan α) (encode : α → Json) (a : α) : Prop :=
  ∀ rest, Follows rest → item ((encode a).print ++ rest) = .ok (a, rest)

variable {item : Scan α} {encode : α → Json}

theorem moreItems_scanned {as : List α} (exact : ∀ a ∈ as, (encode a).Exact)
    (reads : ∀ a ∈ as, ReadsBack item encode a) {fuel : Nat} (enough : as.length < fuel)
    (rest : List Char) :
    Scan.items item fuel false (printMoreItems (as.map encode) ++ ']' :: rest) =
      .ok (as, rest) := by
  induction as generalizing fuel with
  | nil =>
    obtain ⟨fuel, rfl⟩ : ∃ less, fuel = less + 1 := ⟨fuel - 1, by omega⟩
    rw [Scan.items, List.map_nil, printMoreItems, List.nil_append,
      scan_next (scan_read (nextItem_end false rest))]
    rfl
  | cons a as ih =>
    rw [List.length_cons] at enough
    obtain ⟨fuel, rfl⟩ : ∃ less, fuel = less + 1 := ⟨fuel - 1, by omega⟩
    obtain ⟨c, t, starts, blank, goesOn⟩ := print_starts (encode a) (exact a List.mem_cons_self)
    have goes : nextItem false (',' :: ((encode a).print ++
        (printMoreItems (as.map encode) ++ ']' :: rest))) =
        .ok (true, (encode a).print ++ (printMoreItems (as.map encode) ++ ']' :: rest)) := by
      rw [starts]
      exact nextItem_more blank goesOn
    have first := reads a List.mem_cons_self _ (follows_items (as.map encode) rest)
    have more := ih (fun b member => exact b (List.mem_cons_of_mem _ member))
      (fun b member => reads b (List.mem_cons_of_mem _ member)) (Nat.lt_of_succ_lt_succ enough)
    rw [Scan.items, List.map_cons, printMoreItems, List.append_assoc, List.cons_append,
      scan_next (scan_read goes)]
    simp only [if_true]
    rw [scan_next first, scan_next more]
    rfl

theorem items_scanned {as : List α} (exact : ∀ a ∈ as, (encode a).Exact)
    (reads : ∀ a ∈ as, ReadsBack item encode a) {fuel : Nat} (enough : as.length < fuel)
    (rest : List Char) :
    Scan.items item fuel true (printItems (as.map encode) ++ ']' :: rest) = .ok (as, rest) := by
  obtain ⟨fuel, rfl⟩ : ∃ less, fuel = less + 1 := ⟨fuel - 1, by omega⟩
  cases as with
  | nil =>
    rw [Scan.items, List.map_nil, printItems, List.nil_append,
      scan_next (scan_read (nextItem_end true rest))]
    rfl
  | cons a as =>
    rw [List.length_cons] at enough
    obtain ⟨c, t, starts, blank, goesOn⟩ := print_starts (encode a) (exact a List.mem_cons_self)
    have goes : nextItem true ((encode a).print ++
        (printMoreItems (as.map encode) ++ ']' :: rest)) =
        .ok (true, (encode a).print ++ (printMoreItems (as.map encode) ++ ']' :: rest)) := by
      rw [starts]
      exact nextItem_first blank goesOn
    have first := reads a List.mem_cons_self _ (follows_items (as.map encode) rest)
    have more := moreItems_scanned (fun b member => exact b (List.mem_cons_of_mem _ member))
      (fun b member => reads b (List.mem_cons_of_mem _ member)) (Nat.lt_of_succ_lt_succ enough) rest
    rw [Scan.items, List.map_cons, printItems, List.append_assoc, scan_next (scan_read goes)]
    simp only [if_true]
    rw [scan_next first, scan_next more]
    rfl

theorem length_printMoreItems (js : List Json) : js.length ≤ (printMoreItems js).length := by
  induction js with
  | nil => exact Nat.le_refl 0
  | cons j js ih =>
    simp only [printMoreItems, List.length_cons, List.length_append]
    omega

theorem array_scanned {item : Nat → Scan α} {room : Nat} {as : List α}
    (exact : ∀ a ∈ as, (encode a).Exact) (reads : ∀ a ∈ as, ReadsBack (item room) encode a)
    (rest : List Char) :
    Scan.array (room + 1) item ((Json.arr (as.map encode)).print ++ rest) = .ok (as, rest) := by
  have enough : as.length < (printItems (as.map encode) ++ ']' :: rest).length + 1 := by
    cases as with
    | nil => exact Nat.succ_pos _
    | cons a as =>
      have := length_printMoreItems (as.map encode)
      rw [List.length_map] at this
      obtain ⟨c, t, starts, _⟩ := print_starts (encode a) (exact a List.mem_cons_self)
      simp only [List.map_cons, printItems, starts, List.length_append, List.length_cons]
      omega
  rw [Scan.array, print, List.append_assoc, List.cons_append, List.cons_append, scan_enter]
  exact items_scanned exact reads enough rest

theorem string_scanned (expected : String) (room : Nat) (text : String) (rest : List Char) :
    Scan.string expected room (quote text ++ rest) = .ok (text, rest) := by
  rw [quote_append, Scan.string, scan_next (scan_peek rfl)]
  exact scan_read (stringValue_escape text rest)

theorem kind_scanned {t : Tagging κ} {name : String} {kind : κ}
    (known : t.kinds.lookup name = some kind) (room : Nat) (rest : List Char) :
    t.scanKind room (quote name ++ rest) = .ok (kind, rest) := by
  have named : variantOf t.kinds none name = .ok kind := by simp [variantOf, known]
  rw [Tagging.scanKind, scan_next (string_scanned _ room name rest)]
  exact scan_decoded named

/-- Going through these members a reader comes from one state to another, whatever stands behind
each of them. -/
inductive Fills {σ : Type} (member : σ → String → Scan σ) :
    σ → List (String × Json) → σ → Prop where
  | nil (state : σ) : Fills member state [] state
  | cons {state next last : σ} {name : String} {j : Json} {ms : List (String × Json)}
      (own : ∀ rest, Follows rest →
        member state name (':' :: (j.print ++ rest)) = .ok (next, rest))
      (more : Fills member next ms last) : Fills member state ((name, j) :: ms) last

variable {σ : Type} {state last : σ} {ms : List (String × Json)}

theorem moreMembers_scanned {member : σ → String → Scan σ} (fills : Fills member state ms last) :
    ∀ {fuel}, ms.length < fuel → ∀ rest : List Char,
    Scan.members member fuel false state (printMoreMembers ms ++ '}' :: rest) =
      .ok (last, rest) := by
  induction fills with
  | nil state =>
    intro fuel enough rest
    obtain ⟨fuel, rfl⟩ : ∃ less, fuel = less + 1 := ⟨fuel - 1, by omega⟩
    rw [Scan.members, printMoreMembers, List.nil_append,
      scan_next (scan_read (nextKey_end false rest))]
    rfl
  | @cons state next last name j ms own more ih =>
    intro fuel enough rest
    rw [List.length_cons] at enough
    obtain ⟨fuel, rfl⟩ : ∃ less, fuel = less + 1 := ⟨fuel - 1, by omega⟩
    simp only [printMoreMembers, List.append_assoc, List.cons_append]
    rw [Scan.members, scan_next (scan_read (nextKey_more name _))]
    simp only
    rw [scan_next (own _ (follows_members ms rest)), ih (Nat.lt_of_succ_lt_succ enough)]

theorem members_scanned {member : σ → String → Scan σ} (fills : Fills member state ms last)
    {fuel : Nat} (enough : ms.length < fuel) (rest : List Char) :
    Scan.members member fuel true state (printMembers ms ++ '}' :: rest) = .ok (last, rest) := by
  obtain ⟨fuel, rfl⟩ : ∃ less, fuel = less + 1 := ⟨fuel - 1, by omega⟩
  cases fills with
  | nil =>
    rw [Scan.members, printMembers, List.nil_append,
      scan_next (scan_read (nextKey_end true rest))]
    rfl
  | @cons _ _ _ name j ms own more =>
    rw [List.length_cons] at enough
    simp only [printMembers, List.append_assoc, List.cons_append]
    rw [Scan.members, scan_next (scan_read (nextKey_first name _))]
    simp only
    rw [scan_next (own _ (follows_members ms rest)),
      moreMembers_scanned more (Nat.lt_of_succ_lt_succ enough)]

theorem length_printMoreMembers (ms : List (String × Json)) :
    ms.length ≤ (printMoreMembers ms).length := by
  induction ms with
  | nil => exact Nat.le_refl 0
  | cons m ms ih =>
    simp only [printMoreMembers, List.length_cons, List.length_append]
    omega

theorem object_scanned {member : Nat → σ → String → Scan σ} {room : Nat}
    (fills : Fills (member room) state ms last) (rest : List Char) :
    Scan.object (room + 1) state member ((Json.obj ms).print ++ rest) = .ok (last, rest) := by
  have enough : ms.length < (printMembers ms ++ '}' :: rest).length + 1 := by
    cases ms with
    | nil => exact Nat.succ_pos _
    | cons m ms =>
      have := length_printMoreMembers ms
      simp only [printMembers, List.length_append, List.length_cons]
      omega
  rw [Scan.object, print, List.append_assoc, List.cons_append, List.cons_append, scan_enter]
  exact members_scanned fills enough rest

theorem Fills.append {member : σ → String → Scan σ} {next : σ} {others : List (String × Json)}
    (first : Fills member state ms next) (second : Fills member next others last) :
    Fills member state (ms ++ others) last := by
  induction first with
  | nil => exact second
  | cons own _ ih => exact .cons own (ih second)

theorem kept_fill {member : σ × List (String × Json) → String → Scan (σ × List (String × Json))}
    {room : Nat} (keeps : ∀ m ∈ ms, ∀ kept, member (state, kept) m.1 = do
      Scan.read expectColon
      return (state, (m.1, ← Scan.read (nextValue room)) :: kept))
    (exact : ExactMembers ms) (fits : depthMembers ms ≤ room) (kept : List (String × Json)) :
    Fills member (state, kept) ms (state, ms.reverse ++ kept) := by
  induction ms generalizing kept with
  | nil => exact .nil _
  | cons m ms ih =>
    obtain ⟨exact, exactMore⟩ := exact
    obtain ⟨fits, fitMore⟩ := Nat.max_le.mp fits
    have more := ih (fun m member => keeps m (List.mem_cons_of_mem _ member)) exactMore fitMore
      (m :: kept)
    rw [List.reverse_cons, List.append_assoc]
    refine .cons (fun rest follows => ?_) more
    rw [keeps m List.mem_cons_self, scan_next (scan_read (expectColon_colon _)),
      scan_next (scan_read (nextValue_print exact fits follows))]
    rfl

theorem tagged_scanned {t : Tagging κ} {name : String} {kind : κ} {room : Nat}
    (known : t.kinds.lookup name = some kind)
    (others : ∀ m ∈ ms, m.1 ≠ t.tag) (exact : ExactMembers ms) (fits : depthMembers ms ≤ room)
    (rest : List Char) :
    t.scan (room + 1) ((Json.obj ((t.tag, .str name) :: ms)).print ++ rest) =
      .ok ((kind, .obj ms), rest) := by
  have tag : ∀ rest, Follows rest →
      t.scanMember room (none, []) t.tag (':' :: ((Json.str name).print ++ rest)) =
        .ok ((some kind, []), rest) := by
    intro rest _
    rw [print, Tagging.scanMember, if_pos rfl, scan_next (scan_read (expectColon_colon _)),
      scan_next (kind_scanned known room _)]
    rfl
  have keeps : ∀ m ∈ ms, ∀ kept, t.scanMember room (some kind, kept) m.1 = do
      Scan.read expectColon
      return (some kind, (m.1, ← Scan.read (nextValue room)) :: kept) := by
    intro m member kept
    rw [Tagging.scanMember, if_neg (others m member)]
  have whole : Scan.object (room + 1) (none, []) t.scanMember
      ((Json.obj ((t.tag, .str name) :: ms)).print ++ rest) =
      .ok ((some kind, ms.reverse ++ []), rest) :=
    object_scanned (.cons tag (kept_fill keeps exact fits [])) rest
  have peek : Scan.peek ((Json.obj ((t.tag, .str name) :: ms)).print ++ rest) =
      .ok (some '{', (Json.obj ((t.tag, .str name) :: ms)).print ++ rest) := scan_peek rfl
  rw [Tagging.scan, scan_next peek]
  simp only
  rw [scan_next whole, List.append_nil, List.reverse_reverse]
  rfl

theorem scan_bind {step : Scan α} {next : α → Scan β} {b : β}
    (taken : (step >>= next) s = .ok (b, s')) :
    ∃ a between, step s = .ok (a, between) ∧ next a between = .ok (b, s') := by
  simp only [bind, StateT.bind, Except.bind] at taken
  split at taken
  · cases taken
  · rename_i taken_first
    exact ⟨_, _, taken_first, taken⟩

theorem items_each {item : Scan α} {P : α → Prop}
    (each : ∀ {s a s'}, item s = .ok (a, s') → P a) {fuel : Nat} {first : Bool} {as : List α}
    (taken : Scan.items item fuel first s = .ok (as, s')) : ∀ a ∈ as, P a := by
  induction fuel generalizing first as s s' with
  | zero => cases taken
  | succ fuel ih =>
    obtain ⟨goesOn, between, -, taken⟩ := scan_bind taken
    cases goesOn with
    | false =>
      cases taken
      exact fun a member => (List.not_mem_nil member).elim
    | true =>
      obtain ⟨a, between, own, taken⟩ := scan_bind taken
      obtain ⟨more, between, others, taken⟩ := scan_bind taken
      cases taken
      intro b member
      rcases List.mem_cons.mp member with rfl | member
      · exact each own
      · exact ih others b member

theorem array_each {item : Nat → Scan α} {P : α → Prop} {room : Nat} {as : List α}
    (each : ∀ {room s a s'}, item room s = .ok (a, s') → P a)
    (taken : Scan.array room item s = .ok (as, s')) : ∀ a ∈ as, P a := by
  cases room with
  | zero => cases taken
  | succ room =>
    obtain ⟨_, _, -, taken⟩ := scan_bind taken
    obtain ⟨_, _, -, taken⟩ := scan_bind taken
    exact items_each each taken

end

end StepFlow.Json
