import StepFlow.Proofs.Json.Flattened

/-!
Decoders that take back from a text what was printed into it. The laws of parts carry over to lists,
to optional values and to records, whose fields are read one after the other; behind each value the
text may go on.
-/
namespace StepFlow.Json
open Text

section
variable {α β σ : Type} {d : Decoder α} {encode : α → Json} {a : α} {room : Nat}

theorem variant_readsBack {known : List (String × α)} {other : Option α} {name : String}
    (written : encode a = .str name) (named : variantOf known other name = .ok a) :
    ReadsBack ((Decoder.variant known other).scan room) encode a := by
  intro rest _
  rw [written, print, quote_append]
  simp only [Decoder.variant]
  rw [scan_next (scan_peek rfl)]
  simp only
  have taken : Scan.take ('"' :: (escape name.toList ++ '"' :: rest)) =
      .ok ((), escape name.toList ++ '"' :: rest) := rfl
  rw [scan_next taken, scan_next (scan_read (stringValue_escape name rest))]
  exact scan_decoded named

theorem buffered_readsBack {decode : Json → Decoding α} (exact : (encode a).Exact)
    (fits : (encode a).depth ≤ room) (decoded : decode (encode a) = .ok a) :
    ReadsBack ((Decoder.buffered decode).scan room) encode a := by
  intro rest follows
  simp only [Decoder.buffered]
  rw [scan_next (scan_read (nextValue_print exact fits follows))]
  exact scan_decoded decoded

theorem list_readsBack {as : List α} (exact : ∀ a ∈ as, (encode a).Exact)
    (reads : ∀ a ∈ as, ReadsBack (d.scan room) encode a) :
    ReadsBack (d.list.scan (room + 1)) (fun as => .arr (as.map encode)) as := by
  intro rest _
  have peek : Scan.peek ((Json.arr (as.map encode)).print ++ rest) =
      .ok (some '[', (Json.arr (as.map encode)).print ++ rest) := scan_peek rfl
  simp only [Decoder.list]
  rw [scan_next peek]
  exact array_scanned exact reads rest

/-- Only `null` begins with the letter that an optional value is told to be absent by. -/
theorem print_starts_given {j : Json} (exact : j.Exact) (given : j ≠ .null) :
    ∃ c t, j.print = c :: t ∧ isSpace c = false ∧ c ≠ 'n' := by
  obtain ⟨c, t, starts, blank, _⟩ := print_starts j exact
  refine ⟨c, t, starts, blank, ?_⟩
  rintro rfl
  cases j with
  | null => exact given rfl
  | bool value => cases value <;> simp [print] at starts
  | str value => simp [print, quote] at starts
  | arr items => simp [print] at starts
  | obj members => simp [print] at starts
  | num value =>
    cases value with
    | double x => exact exact
    | int n =>
      obtain ⟨digit, more, written, decimal⟩ := natDigits_starts n.natAbs
      rw [print, Number.print, written] at starts
      split at starts
      · simp at starts
      · obtain ⟨rfl, -⟩ := List.cons.inj starts
        simp [isDecimalDigit] at decimal

theorem option_scan (room : Nat) : d.option.scan room = (do
    if (← Scan.peek) = some 'n' then
      Scan.read (expectWord "null".toList)
      return none
    else some <$> d.scan room) := by
  refine bind_congr fun c => ?_
  split
  · rw [if_pos rfl]
  · rename_i other
    rw [if_neg other]

theorem option_readsBack (exact : (encode a).Exact) (given : encode a ≠ .null)
    (reads : ReadsBack (d.scan room) encode a) :
    ReadsBack (d.option.scan room) (fun o => o.elim .null encode) (some a) := by
  intro rest follows
  obtain ⟨c, t, starts, blank, other⟩ := print_starts_given exact given
  have peek : Scan.peek ((encode a).print ++ rest) = .ok (some c, (encode a).print ++ rest) := by
    rw [starts]
    exact scan_peek blank
  dsimp only [Option.elim_some]
  rw [option_scan, scan_next peek, if_neg fun none => other (Option.some.inj none)]
  simp only [Functor.map, StateT.map, reads rest follows, bind, Except.bind]
  rfl

variable {r : Record} {slot : σ → String → Slot σ} {init state last : σ}
  {finish : Form → σ → Decoding β} {b : β} {name : String} {ms : List (String × Json)}

def Record.member (r : Record) (slot : σ → String → Slot σ) (room : Nat) (state : σ)
    (name : String) : Scan σ :=
  (r.slotOf slot state name).scanMember room state

theorem decoder_scan (room : Nat) : (r.decoder init slot finish).scan room = (do
    match ← Scan.peek with
    | some '{' =>
      let state ← Scan.object room init (r.member slot)
      Scan.ofDecoding (finish .object state)
    | some '[' => Scan.enter room fun room => do
      let state ← Record.scanElements slot room r.fields true init
      Scan.ofDecoding (finish .array state)
    | _ => Scan.refuseForm r.expected room) := rfl

theorem Fills.field {store : α → σ} (known : r.fields.contains name = true)
    (free : slot state name = once name none d store) (reads : ReadsBack (d.scan room) encode a)
    (more : Fills (r.member slot room) (store a) ms last) :
    Fills (r.member slot room) state ((name, encode a) :: ms) last := by
  refine .cons (fun rest follows => ?_) more
  rw [Record.member, Record.slotOf, if_pos known, free]
  exact once_scanned name reads follows

theorem Fills.optional {store : Option α → σ} {given : Option α}
    (known : r.fields.contains name = true)
    (free : slot state name = once name none d.option store)
    (exact : ∀ a ∈ given, (encode a).Exact ∧ encode a ≠ .null)
    (reads : ∀ a ∈ given, ReadsBack (d.scan room) encode a)
    (stored : (given.elim state fun a => store (some a)) = last) :
    Fills (r.member slot room) state (Json.optional name encode given) last := by
  cases given with
  | none => exact stored ▸ .nil state
  | some a =>
    obtain ⟨exact, written⟩ := exact a rfl
    -- stated before it is used: what is stored is the optional value, not the value in it
    have own := option_readsBack exact written (reads a rfl)
    have field := Fills.field known free own (.nil _)
    exact stored ▸ field

theorem record_readsBack {encode : β → Json} (written : encode b = .obj ms)
    (fills : Fills (r.member slot room) init ms state)
    (finished : finish .object state = .ok b) :
    ReadsBack ((r.decoder init slot finish).scan (room + 1)) encode b := by
  intro rest _
  have peek : Scan.peek ((Json.obj ms).print ++ rest) =
      .ok (some '{', (Json.obj ms).print ++ rest) := scan_peek rfl
  have whole : Scan.object (room + 1) init (r.member slot) ((Json.obj ms).print ++ rest) =
      .ok (state, rest) := object_scanned fills rest
  rw [written, decoder_scan, scan_next peek]
  simp only
  rw [scan_next whole]
  exact scan_decoded finished

end

end StepFlow.Json
