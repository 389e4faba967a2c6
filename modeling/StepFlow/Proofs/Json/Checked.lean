import StepFlow.Proofs.Json.Scanned

/-!
Values that are checked once they are decoded. Of a JSON value and of a text alike, what the check
lets pass is what comes out, and what it refuses is refused for the reason that it gives. A record
that shares its object with another type may be checked in its last step or behind it.
-/
namespace StepFlow.Json

section
variable {α β γ σ : Type}

def Decoder.checked (d : Decoder β) (check : β → Decoding γ) : Decoder γ where
  ofJson j := do check (← d.ofJson j)
  scan room := do Scan.ofDecoding (check (← d.scan room))

theorem ofDecoding_bind (decoding : Decoding α) (next : α → Decoding β) :
    Scan.ofDecoding (decoding >>= next) =
      Scan.ofDecoding decoding >>= fun a => Scan.ofDecoding (next a) := by
  cases decoding <;> rfl

theorem refuseForm_bind (expected : String) (room : Nat) (next : α → Scan β) :
    Scan.refuseForm expected room >>= next = Scan.refuseForm expected room := by
  simp only [Scan.refuseForm, bind_assoc]
  refine bind_congr fun c => ?_
  split
  · rfl
  · rfl
  · rw [bind_assoc]
    rfl

variable {r : Record} {slot : σ → String → Slot σ} {init : σ}
  {finish : σ → List (String × Json) → Decoding β} {check : β → Decoding γ}

theorem flatDecoder_checked :
    r.flatDecoder init slot (fun state ms => finish state ms >>= check) =
      (r.flatDecoder init slot finish).checked check := by
  refine (Decoder.mk.injEq ..).mpr ⟨funext fun j => ?_, funext fun room => ?_⟩
  · cases j with
    | obj ms => exact (bind_assoc (m := Except DecodeError) _ _ _).symm
    | _ => rfl
  · simp only [Record.flatDecoder, bind_assoc]
    refine bind_congr fun c => ?_
    split
    · simp only [bind_assoc, ofDecoding_bind]
    · rw [refuseForm_bind]

theorem decodeText_ok_iff {d : Decoder α} {text : String} {a : α} : decodeText d text = .ok a ↔
    ∃ rest, d.scan maxDepth text.toList = .ok (a, rest) ∧ skipSpace rest = [] := by
  simp only [decodeText, StateT.run]
  cases scanned : d.scan maxDepth text.toList with
  | error e => simp [bind, Except.bind]
  | ok pair =>
    obtain ⟨a', rest⟩ := pair
    simp only [Except.ok.injEq, Prod.mk.injEq, and_assoc, exists_and_left, exists_eq_left']
    cases left : skipSpace rest <;> simp [bind, Except.bind, endOfText, left]

variable {d : Decoder β} {text : String} {b : β} {c : γ} {e : DecodeError}

/-- A check comes after the reading, and lets through what it makes of the value read. -/
theorem checked_text_ok_iff : decodeText (d.checked check) text = .ok c ↔
    ∃ b, decodeText d text = .ok b ∧ check b = .ok c := by
  simp only [decodeText_ok_iff]
  constructor
  · rintro ⟨rest, scanned, ended⟩
    obtain ⟨b, between, own, decoded⟩ := scan_bind scanned
    cases checked : check b with
    | error e =>
      rw [checked] at decoded
      cases decoded
    | ok c' =>
      rw [checked] at decoded
      cases decoded
      exact ⟨b, ⟨rest, own, ended⟩, checked⟩
  · rintro ⟨b, ⟨rest, scanned, ended⟩, checked⟩
    refine ⟨rest, ?_, ended⟩
    simp only [Decoder.checked]
    rw [scan_next scanned]
    exact scan_decoded checked

theorem checked_text_error (decoded : decodeText d text = .ok b) (refused : check b = .error e) :
    ∃ left, decodeText (d.checked check) text = .error (.data e left) := by
  obtain ⟨rest, scanned, _⟩ := decodeText_ok_iff.mp decoded
  refine ⟨Text.utf8Length rest, ?_⟩
  simp only [decodeText, StateT.run, Decoder.checked]
  rw [scan_next scanned, refused]
  rfl

end

end StepFlow.Json
