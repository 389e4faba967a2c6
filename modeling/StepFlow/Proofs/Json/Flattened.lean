import StepFlow.Proofs.Json.Restored
import StepFlow.Proofs.Json.Scanned

/-!
Whole texts of types that share one object with their tag or with another record. The tag is told
apart from the members behind it; a record takes its own members and leaves the others, in their
order, to the type that it shares the object with.
-/
namespace StepFlow.Json

section
variable {α β σ κ : Type} {d : Decoder α} {a : α}

theorem decodeText_compact {j : Json} (scanned : d.scan maxDepth j.print = .ok (a, [])) :
    decodeText d j.compact = .ok a := by
  rw [decodeText, compact, String.toList_ofList]
  simp only [StateT.run, scanned, bind, Except.bind]
  rfl

theorem readsBack_text {encode : α → Json} (reads : ReadsBack (d.scan maxDepth) encode a) :
    decodeText d (encode a).compact = .ok a := by
  have scanned := reads [] follows_nil
  rw [List.append_nil] at scanned
  exact decodeText_compact scanned

variable {ms own : List (String × Json)}

theorem tagged_text {t : Tagging κ} {name : String} {kind : κ} {content : κ → Json → Decoding α}
    (known : t.kinds.lookup name = some kind) (others : ∀ m ∈ ms, m.1 ≠ t.tag)
    (exact : ExactMembers ms) (fits : depthMembers ms < maxDepth)
    (decoded : content kind (.obj ms) = .ok a) :
    decodeText (t.decoder content) (Json.obj ((t.tag, .str name) :: ms)).compact = .ok a := by
  refine decodeText_compact ?_
  have split : t.scan maxDepth (Json.obj ((t.tag, .str name) :: ms)).print =
      .ok ((kind, .obj ms), []) := by
    simpa [maxDepth] using tagged_scanned known others exact (Nat.le_of_lt_succ fits) []
  simp only [Tagging.decoder]
  rw [scan_next split]
  exact scan_decoded decoded

variable {r : Record} {slot : σ → String → Slot σ} {init state : σ} {room : Nat}
  {finish : σ → List (String × Json) → Decoding β} {b : β}

def Record.flatMember (r : Record) (slot : σ → String → Slot σ) (room : Nat) :
    σ × List (String × Json) → String → Scan (σ × List (String × Json))
  | (state, others), name => do
    if r.fields.contains name then
      (·, others) <$> (slot state name).scanMember room state
    else
      Scan.read expectColon
      return (state, (name, ← Scan.read (nextValue room)) :: others)

theorem flatDecoder_scan (room : Nat) :
    (r.flatDecoder init slot finish).scan room = (do
      match ← Scan.peek with
      | some '{' =>
        let (state, others) ← Scan.object room (init, []) (r.flatMember slot)
        Scan.ofDecoding (finish state others.reverse)
      | _ => Scan.refuseForm r.expected room) := rfl

theorem once_scanned (name : String) {encode : α → Json} {store : α → σ} {rest : List Char}
    (reads : ReadsBack (d.scan room) encode a) (follows : Follows rest) :
    (once name none d store).scanMember room state (':' :: ((encode a).print ++ rest)) =
      .ok (store a, rest) := by
  have value : (d.map store).scan room ((encode a).print ++ rest) = .ok (store a, rest) := by
    simp only [Decoder.map, Functor.map, StateT.map, reads rest follows, bind, Except.bind]
    rfl
  rw [once, Slot.scanMember, scan_next (scan_read (expectColon_colon _))]
  · exact value
  · intro _ taken
    cases taken

theorem own_scanned {next : σ} {others : List (String × Json)} {name : String}
    {s rest : List Char} (known : r.fields.contains name = true)
    (scanned : (slot state name).scanMember room state s = .ok (next, rest)) :
    r.flatMember slot room (state, others) name s = .ok ((next, others), rest) := by
  rw [Record.flatMember, if_pos known]
  simp only [Functor.map, StateT.map, scanned, bind, Except.bind]
  rfl

theorem string_readsBack (room : Nat) (text : String) :
    ReadsBack (Decoder.string.scan room) .str text := fun rest _ =>
  string_scanned "a string" room text rest

theorem flat_scanned (fills : Fills (r.flatMember slot room) (init, []) own (state, []))
    (others : ∀ m ∈ ms, r.fields.contains m.1 = false) (exact : ExactMembers ms)
    (fits : depthMembers ms ≤ room) (finished : finish state ms = .ok b) (rest : List Char) :
    (r.flatDecoder init slot finish).scan (room + 1) ((Json.obj (own ++ ms)).print ++ rest) =
      .ok (b, rest) := by
  have keeps : ∀ m ∈ ms, ∀ kept, r.flatMember slot room (state, kept) m.1 = do
      Scan.read expectColon
      return (state, (m.1, ← Scan.read (nextValue room)) :: kept) := by
    intro m member kept
    rw [Record.flatMember, others m member, if_neg Bool.false_ne_true]
  have whole : Scan.object (room + 1) (init, []) (r.flatMember slot)
      ((Json.obj (own ++ ms)).print ++ rest) = .ok ((state, ms.reverse ++ []), rest) :=
    object_scanned (fills.append (kept_fill keeps exact fits [])) rest
  have peek : Scan.peek ((Json.obj (own ++ ms)).print ++ rest) =
      .ok (some '{', (Json.obj (own ++ ms)).print ++ rest) := scan_peek rfl
  rw [flatDecoder_scan, scan_next peek]
  simp only
  rw [scan_next whole]
  simp only [List.append_nil, List.reverse_reverse]
  exact scan_decoded finished

theorem flat_text (fills : Fills (r.flatMember slot (maxDepth - 1)) (init, []) own (state, []))
    (others : ∀ m ∈ ms, r.fields.contains m.1 = false) (exact : ExactMembers ms)
    (fits : depthMembers ms < maxDepth) (finished : finish state ms = .ok b) :
    decodeText (r.flatDecoder init slot finish) (Json.obj (own ++ ms)).compact = .ok b := by
  have whole := flat_scanned fills others exact (Nat.le_of_lt_succ fits) finished []
  rw [List.append_nil] at whole
  exact decodeText_compact whole

end

end StepFlow.Json
