import Mathlib
import StepFlow.Proofs.Json.Settled
import StepFlow.Proofs.Text.Pieces
import StepFlow.Run.Context

/-!
From the pairs of a command line to the arguments of a program. The context keeps the last value of
each key, under ascending keys, and each truthy value makes one argument. A key that was split off
at the first equals sign holds none, so an argument can be told apart again where it was put
together.
-/
namespace StepFlow.Run
open Json Text

def lastValue (pairs : List (String × Json)) (key : String) : Option Json :=
  pairs.reverse.lookup key

def pairValue (text : String) : Json :=
  match readSettled text with
  | .ok j => j
  | .error _ => .str text

inductive ShownAs : Json → String → Prop where
  | text (s : String) : ShownAs (.str s) s
  | other {j : Json} (noText : ∀ s, j ≠ .str s) : ShownAs j j.compact

def SplitsInto (arg : String) (entry : String × Json) : Prop :=
  ∃ rest shown, arg.toList = '-' :: rest ∧
    splitFirst '=' rest = some (entry.1.toList, shown.toList) ∧ ShownAs entry.2 shown

section
variable {raw key : String} {value : Json} {pairs : List (String × Json)} {c : Context}

theorem parsePair_parts (parsed : parsePair raw = .ok (key, value)) :
    ∃ text, raw = key ++ "=" ++ text ∧ key ≠ "" ∧ '=' ∉ key.toList ∧ value = pairValue text := by
  unfold parsePair at parsed
  split at parsed
  · cases parsed
  · cases parsed
  · rename_i before after named split
    obtain ⟨whole, apart⟩ := splitFirst_eq_some_iff.mp split
    cases parsed
    refine ⟨String.ofList after, ?_, ?_, by simpa using apart, rfl⟩
    · rw [← String.toList_inj, whole]
      simp [String.toList_append]
    · intro empty
      have none : before = [] := by simpa using empty
      exact named none

theorem ofPairs_snoc (pairs : List (String × Json)) (key : String) (value : Json) :
    Context.ofPairs (pairs ++ [(key, value)]) = putSorted key value (Context.ofPairs pairs) := by
  simp [Context.ofPairs]

theorem ofPairs_ascends (pairs : List (String × Json)) :
    (Context.ofPairs pairs).Pairwise fun a b => a.1 < b.1 := by
  induction pairs using List.reverseRecOn with
  | nil => exact List.Pairwise.nil
  | append_singleton pairs pair ih =>
    rw [ofPairs_snoc]
    exact putSorted_ascends ih

theorem lastValue_snoc (pairs : List (String × Json)) (pair : String × Json) (key : String) :
    lastValue (pairs ++ [pair]) key =
      if key = pair.1 then some pair.2 else lastValue pairs key := by
  rw [lastValue, List.reverse_append, List.reverse_singleton, List.singleton_append, lookup_member,
    lastValue]

theorem lookup_ofPairs (pairs : List (String × Json)) (key : String) :
    (Context.ofPairs pairs).lookup key = lastValue pairs key := by
  induction pairs using List.reverseRecOn with
  | nil => rfl
  | append_singleton pairs pair ih =>
    rw [ofPairs_snoc, lookup_putSorted, ih, lastValue_snoc]

theorem lastValue_mem (last : lastValue pairs key = some value) : (key, value) ∈ pairs := by
  obtain ⟨before, after, split, -⟩ := List.lookup_eq_some_iff.mp last
  exact List.mem_reverse.mp (split ▸ List.mem_append_right before List.mem_cons_self)

theorem givesArgument_isTruthy (j : Json) : givesArgument j = j.isTruthy := by
  cases j with
  | num n => cases n <;> rfl
  | _ => rfl

theorem arguments_map (c : Context) : arguments c =
    (c.filter fun entry => entry.2.isTruthy).map fun entry => argument entry.1 entry.2 := by
  induction c with
  | nil => rfl
  | cons entry c ih =>
    simp only [arguments, givesArgument_isTruthy] at ih ⊢
    cases truthy : entry.2.isTruthy <;> simp [truthy, ih]

theorem shownAs_renderValue (j : Json) : ShownAs j (renderValue j) := by
  cases j with
  | str s => exact .text s
  | _ => exact .other (by simp)

theorem argument_splits (apart : '=' ∉ key.toList) (value : Json) :
    SplitsInto (argument key value) (key, value) := by
  refine ⟨key.toList ++ '=' :: (renderValue value).toList, renderValue value, ?_,
    splitFirst_eq_some_iff.mpr ⟨rfl, apart⟩, shownAs_renderValue value⟩
  simp [argument, String.toList_append]

theorem accepted_apart {raws : List String}
    (accepted : List.Forall₂ (fun raw pair => parsePair raw = .ok pair) raws pairs) :
    ∀ pair ∈ pairs, '=' ∉ pair.1.toList := by
  induction accepted with
  | nil => simp
  | cons parsed _ ih =>
    obtain ⟨text, -, -, apart, -⟩ := parsePair_parts parsed
    exact List.forall_mem_cons.mpr ⟨apart, ih⟩

/-- Of pairs that are all accepted the arguments split into each key and its last value, if that is
truthy, in the order of the keys. -/
theorem pairs_reach_program {raws : List String}
    (accepted : List.Forall₂ (fun raw pair => parsePair raw = .ok pair) raws pairs) :
    ∃ entries : List (String × Json),
      (entries.Pairwise fun a b => a.1 < b.1) ∧
      (∀ key value, (key, value) ∈ entries ↔
        lastValue pairs key = some value ∧ value.isTruthy = true) ∧
      List.Forall₂ SplitsInto (arguments (Context.ofPairs pairs)) entries := by
  have ascends := ofPairs_ascends pairs
  have kept : ∀ key value, (key, value) ∈ Context.ofPairs pairs ↔
      lastValue pairs key = some value := by
    intro key value
    rw [mem_iff_lookup ascends, lookup_ofPairs]
  refine ⟨(Context.ofPairs pairs).filter fun entry => entry.2.isTruthy, ascends.filter _, ?_, ?_⟩
  · intro key value
    rw [List.mem_filter, kept]
  · rw [arguments_map, List.forall₂_map_left_iff, List.forall₂_same]
    intro entry member
    have last := (kept entry.1 entry.2).mp (List.mem_of_mem_filter member)
    exact argument_splits (accepted_apart accepted entry (lastValue_mem last)) entry.2

def typedPairs : List (String × Json) :=
  [("b", .arr [.num (.int 1)]), ("a", .str "x=y"), ("c", .num (.int 0)), ("b", .bool true)]

theorem typedPairs_accepted : List.Forall₂ (fun raw pair => parsePair raw = .ok pair)
    ["b=[1]", "a=x=y", "c=0", "b=true"] typedPairs :=
  .cons (by cbv) (.cons (by cbv) (.cons (by cbv) (.cons (by cbv) .nil)))

theorem typedPairs_reach_program :
    List.Forall₂ (fun raw pair => parsePair raw = .ok pair)
      ["b=[1]", "a=x=y", "c=0", "b=true"] typedPairs ∧
    arguments (Context.ofPairs typedPairs) = ["-a=x=y", "-b=true"] ∧
    ∃ entries : List (String × Json),
      (entries.Pairwise fun a b => a.1 < b.1) ∧
      (∀ key value, (key, value) ∈ entries ↔
        lastValue typedPairs key = some value ∧ value.isTruthy = true) ∧
      List.Forall₂ SplitsInto (arguments (Context.ofPairs typedPairs)) entries :=
  ⟨typedPairs_accepted, by cbv, pairs_reach_program typedPairs_accepted⟩

end

end StepFlow.Run
