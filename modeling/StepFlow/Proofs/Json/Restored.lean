import StepFlow.Json.Decoder

/-!
Decoders that undo an encoder. What a type is encoded to is decoded to the same value; the laws of
parts carry over to lists, to optional values and to the fields of a record, one field at a time.
-/
namespace StepFlow.Json
open Text

def Decoder.Restores {α : Type} (d : Decoder α) (encode : α → Json) (a : α) : Prop :=
  d.ofJson (encode a) = .ok a

section
variable {α σ κ : Type} {d : Decoder α} {encode : α → Json} {a : α} {j : Json}

theorem string_restored (s : String) : Decoder.string.Restores .str s := rfl

theorem items_restored {as : List α} (each : ∀ a ∈ as, d.Restores encode a) :
    Decoder.decodeItems d.ofJson (as.map encode) = .ok as := by
  induction as with
  | nil => rfl
  | cons a as ih =>
    have own : d.ofJson (encode a) = .ok a := each a List.mem_cons_self
    have more := ih fun b member => each b (List.mem_cons_of_mem _ member)
    simp only [List.map_cons, Decoder.decodeItems, own, more]
    rfl

theorem list_restored {as : List α} (each : ∀ a ∈ as, d.Restores encode a) :
    d.list.Restores (fun as => .arr (as.map encode)) as :=
  items_restored each

theorem option_some (written : j ≠ .null) (decoded : d.ofJson j = .ok a) :
    d.option.ofJson j = .ok (some a) := by
  cases j <;> first | exact absurd rfl written | simp [Decoder.option, decoded, Except.map]

theorem join_map_some (a : Option α) : (a.map some).join = a := by
  cases a <;> rfl

theorem put_once (name : String) {store : α → σ} {state : σ} (decoded : d.ofJson j = .ok a) :
    (once name none d store).put state j = .ok (store a) := by
  simp [once, Slot.put, Decoder.map, decoded, Except.map]

variable {r : Record} {slot : σ → String → Slot σ} {state state' : σ} {name : String}
  {ms : List (String × Json)}

theorem putMembers_known (known : r.fields.contains name = true)
    (put : (slot state name).put state j = .ok state') :
    r.putMembers slot state ((name, j) :: ms) = r.putMembers slot state' ms := by
  rw [Record.putMembers, Record.slotOf, if_pos known, put]
  rfl

theorem putMembers_unknown (unknown : ∀ m ∈ ms, r.fields.contains m.1 = false) :
    r.putMembers slot state ms = .ok state := by
  induction ms with
  | nil => rfl
  | cons m ms ih =>
    obtain ⟨name, j⟩ := m
    have other : ¬ r.fields.contains name = true := by
      simpa using unknown (name, j) List.mem_cons_self
    rw [Record.putMembers, Record.slotOf, if_neg other]
    exact ih fun m member => unknown m (List.mem_cons_of_mem _ member)

variable {t : Tagging κ} {kind : κ} {content : κ → Json → Decoding α}

theorem find_others (others : ∀ m ∈ ms, m.1 ≠ t.tag) : t.find (some kind) ms = .ok kind := by
  induction ms with
  | nil => rfl
  | cons m ms ih =>
    obtain ⟨name, j⟩ := m
    rw [Tagging.find, if_neg (others (name, j) List.mem_cons_self)]
    exact ih fun m member => others m (List.mem_cons_of_mem _ member)

theorem tagged_restored (known : t.kinds.lookup name = some kind)
    (others : ∀ m ∈ ms, m.1 ≠ t.tag) (decoded : content kind (.obj ms) = .ok a) :
    (t.decoder content).ofJson (.obj ((t.tag, .str name) :: ms)) = .ok a := by
  have own : t.kindOf (.str name) = .ok kind := by simp [Tagging.kindOf, variantOf, known]
  have found : t.find none ((t.tag, .str name) :: ms) = .ok kind := by
    rw [Tagging.find, if_pos rfl]
    simp only [own, bind, Except.bind]
    exact find_others others
  have kept : t.others ((t.tag, .str name) :: ms) = ms := by
    rw [Tagging.others, List.filter_cons_of_neg (by simp)]
    exact List.filter_eq_self.mpr fun m member => by simpa using others m member
  simp only [Tagging.decoder, Tagging.split, found, kept, bind, Except.bind]
  exact decoded

end

end StepFlow.Json
