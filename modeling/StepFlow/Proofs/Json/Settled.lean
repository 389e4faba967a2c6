import StepFlow.Json.Value

/-!
Free-form values: the keys of every object ascend. Every value is settled to one, and one that
is free-form already stays as it is.
-/
namespace StepFlow.Json

mutual

def FreeForm : Json → Prop
  | .arr items => FreeItems items
  | .obj members => FreeMembers members
  | _ => True

def FreeItems : List Json → Prop
  | [] => True
  | item :: items => item.FreeForm ∧ FreeItems items

def FreeMembers : List (String × Json) → Prop
  | [] => True
  | (key, value) :: members =>
    (∀ m ∈ members, key < m.1) ∧ value.FreeForm ∧ FreeMembers members

end

section
variable {key : String} {value : Json} {placed ms : List (String × Json)}

theorem putSorted_mem {m : String × Json} (member : m ∈ putSorted key value placed) :
    m = (key, value) ∨ m ∈ placed := by
  induction placed with
  | nil => exact Or.inl (List.mem_singleton.mp member)
  | cons first placed ih =>
    obtain ⟨k, v⟩ := first
    rw [putSorted] at member
    split at member
    · exact List.mem_cons.mp member
    · split at member
      · exact (List.mem_cons.mp member).imp_right (List.mem_cons_of_mem _)
      · rcases List.mem_cons.mp member with rfl | later
        · exact Or.inr List.mem_cons_self
        · exact (ih later).imp_right (List.mem_cons_of_mem _)

theorem putSorted_ascends (ascends : placed.Pairwise fun a b => a.1 < b.1) :
    (putSorted key value placed).Pairwise fun a b => a.1 < b.1 := by
  induction placed with
  | nil => exact List.pairwise_singleton _ _
  | cons first placed ih =>
    obtain ⟨k, v⟩ := first
    obtain ⟨least, others⟩ := List.pairwise_cons.mp ascends
    rw [putSorted]
    split
    · rename_i before
      refine List.pairwise_cons.mpr ⟨fun m member => ?_, ascends⟩
      rcases List.mem_cons.mp member with rfl | later
      · exact before
      · exact String.lt_trans before (least m later)
    · rename_i behind
      split
      · rename_i same
        exact List.pairwise_cons.mpr ⟨same ▸ least, others⟩
      · rename_i different
        have after : k < key := by
          rcases Std.lt_trichotomy key k with before | same | after
          · exact absurd before behind
          · exact absurd same different
          · exact after
        refine List.pairwise_cons.mpr ⟨fun m member => ?_, ih others⟩
        rcases putSorted_mem member with rfl | later
        · exact after
        · exact least m later

theorem freeMembers_iff :
    FreeMembers ms ↔ (ms.Pairwise fun a b => a.1 < b.1) ∧ ∀ m ∈ ms, m.2.FreeForm := by
  induction ms with
  | nil => simp [FreeMembers]
  | cons m ms ih =>
    rw [FreeMembers, ih, List.pairwise_cons, List.forall_mem_cons]
    exact ⟨fun ⟨least, own, later, others⟩ => ⟨⟨least, later⟩, own, others⟩,
      fun ⟨⟨least, later⟩, own, others⟩ => ⟨least, own, later, others⟩⟩

theorem putSorted_free (free : FreeMembers placed) (own : value.FreeForm) :
    FreeMembers (putSorted key value placed) := by
  obtain ⟨ascends, each⟩ := freeMembers_iff.mp free
  refine freeMembers_iff.mpr ⟨putSorted_ascends ascends, fun m member => ?_⟩
  rcases putSorted_mem member with rfl | before
  · exact own
  · exact each m before

theorem lookup_member (k other : String) (v : Json) (ms : List (String × Json)) :
    ((other, v) :: ms).lookup k = if k = other then some v else ms.lookup k := by
  by_cases asked : k = other
  · simp [asked]
  · simp [List.lookup_cons, asked, beq_false_of_ne asked]

theorem lookup_putSorted (k : String) :
    (putSorted key value placed).lookup k = if k = key then some value else placed.lookup k := by
  induction placed with
  | nil => rw [putSorted, lookup_member]
  | cons first placed ih =>
    obtain ⟨other, v⟩ := first
    rw [putSorted]
    split
    · rw [lookup_member]
    · split
      · rename_i same
        subst same
        by_cases asked : k = key <;> simp only [lookup_member, asked, if_true, if_false]
      · rename_i different
        by_cases here : k = other
        · simp only [lookup_member, here, Ne.symm different, if_true, if_false]
        · simp only [lookup_member, here, if_false, ih]

theorem mem_iff_lookup (ascends : placed.Pairwise fun a b => a.1 < b.1) :
    (key, value) ∈ placed ↔ placed.lookup key = some value := by
  induction placed with
  | nil => simp
  | cons first placed ih =>
    obtain ⟨k, v⟩ := first
    obtain ⟨least, others⟩ := List.pairwise_cons.mp ascends
    rw [lookup_member, List.mem_cons, Prod.mk.injEq]
    by_cases here : key = k
    · subst here
      have absent : (key, value) ∉ placed := fun later => String.lt_irrefl key (least _ later)
      simp [absent, eq_comm]
    · simp [here, ih others]

theorem putSorted_last (ascends : ∀ m ∈ placed, m.1 < key) :
    putSorted key value placed = placed ++ [(key, value)] := by
  induction placed with
  | nil => rfl
  | cons first placed ih =>
    have before := ascends first List.mem_cons_self
    have other : key ≠ first.1 := fun same => String.lt_irrefl key (same ▸ before)
    rw [putSorted, if_neg (String.lt_asymm before), if_neg other,
      ih fun m member => ascends m (List.mem_cons_of_mem _ member)]
    rfl

end

mutual

theorem settle_free : ∀ j : Json, j.settle.FreeForm
  | .null | .bool _ | .num _ | .str _ => trivial
  | .arr items => settleItems_free items
  | .obj members => settleMembers_free members trivial

theorem settleItems_free : ∀ items : List Json, FreeItems (settleItems items)
  | [] => trivial
  | item :: items => ⟨settle_free item, settleItems_free items⟩

theorem settleMembers_free : ∀ (members : List (String × Json)) {placed : List (String × Json)},
    FreeMembers placed → FreeMembers (settleMembers placed members)
  | [], _, free => free
  | (_, value) :: members, _, free =>
    settleMembers_free members (putSorted_free free (settle_free value))

end

mutual

theorem settle_of_free : ∀ j : Json, j.FreeForm → j.settle = j
  | .null, _ | .bool _, _ | .num _, _ | .str _, _ => rfl
  | .arr items, free => congrArg Json.arr (settleItems_of_free items free)
  | .obj members, free => congrArg Json.obj (settleMembers_of_free members free nofun)

theorem settleItems_of_free : ∀ items : List Json, FreeItems items → settleItems items = items
  | [], _ => rfl
  | item :: items, free => by
    rw [settleItems, settle_of_free item free.1, settleItems_of_free items free.2]

theorem settleMembers_of_free : ∀ (members : List (String × Json))
    {placed : List (String × Json)}, FreeMembers members →
    (∀ p ∈ placed, ∀ m ∈ members, p.1 < m.1) → settleMembers placed members = placed ++ members
  | [], placed, _, _ => (List.append_nil placed).symm
  | (key, value) :: members, placed, ⟨least, own, free⟩, behind => by
    have last : putSorted key value placed = placed ++ [(key, value)] :=
      putSorted_last fun p inside => behind p inside (key, value) List.mem_cons_self
    have next : ∀ p ∈ placed ++ [(key, value)], ∀ m ∈ members, p.1 < m.1 := by
      intro p inside m member
      rcases List.mem_append.mp inside with before | own
      · exact behind p before m (List.mem_cons_of_mem _ member)
      · cases List.mem_singleton.mp own
        exact least m member
    rw [settleMembers, settle_of_free value own, last, settleMembers_of_free members free next,
      List.append_assoc]
    rfl

end

/-- A value is in free form just when settling changes nothing. -/
theorem freeForm_iff {j : Json} : j.FreeForm ↔ j.settle = j :=
  ⟨settle_of_free j, fun same => same ▸ settle_free j⟩

theorem settle_settle (j : Json) : j.settle.settle = j.settle := settle_of_free _ (settle_free j)

end StepFlow.Json
