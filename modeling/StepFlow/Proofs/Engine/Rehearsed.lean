import StepFlow.Engine.Rehearsal
import StepFlow.Proofs.Engine.Interleaving

/-!
The turns of a rehearsal are made of moves. A call that goes on until it has to wait takes one step
after the other, a control call looks and acts at once, and so does a time limit that passes: what
holds however all these are interleaved holds of the order that a rehearsal takes them in.
-/
namespace StepFlow.Engine
open Run

section
variable {σ : Type} {s : System σ} {h : Rehearsal σ}

structure Shows (s : System σ) (h : Rehearsal σ) : Prop where
  world : h.world = s.world
  shared : h.shared = s.shared
  events : h.events = s.log

theorem shows_rest (shows : Shows s h) (c : Call) : Shows s (h.rest c) := by
  obtain ⟨world, shared, events⟩ := shows
  unfold Rehearsal.rest
  split
  · split <;> exact ⟨world, shared, events⟩
  · exact ⟨world, shared, events⟩

theorem shows_obey (shows : Shows s h) (c : Call) (order : Option LimitOrder) :
    Shows s (h.obey c order) := by
  obtain ⟨world, shared, events⟩ := shows
  cases order with
  | none => exact ⟨world, shared, events⟩
  | some order => cases order <;> exact ⟨world, shared, events⟩

theorem obey_config (h : Rehearsal σ) (c : Call) (order : Option LimitOrder) :
    (h.obey c order).config = h.config := by
  cases order with
  | none => rfl
  | some order => cases order <;> rfl

variable [World σ]

theorem go_reaches (fuel : Nat) {i : Nat} (shows : Shows s h) :
    ∃ s', Reaches h.config s s' ∧ Shows s' (h.go fuel (s.calls i)) := by
  induction fuel generalizing h s with
  | zero => exact ⟨s, .refl, shows_rest shows _⟩
  | succ fuel ih =>
    unfold Rehearsal.go
    rw [shows.world, shows.shared]
    cases made : (s.calls i).step? h.config s.world s.shared with
    | none => exact ⟨s, .refl, shows_rest shows _⟩
    | some t =>
      have move := Move.proceed i t made
      have next : Shows (s.goOn i t) (Rehearsal.obey { h with
          world := t.world, shared := t.shared, events := h.events ++ t.events } t.call t.limit) :=
        shows_obey ⟨rfl, rfl, congrArg (· ++ t.events) shows.events⟩ _ _
      have call : (s.goOn i t).calls i = t.call := by simp [System.goOn]
      by_cases files : t.call.wantsFiles = true
      · simp only [files]
        exact ⟨_, .single move, shows_rest next _⟩
      · obtain ⟨s', reached, later⟩ := ih next
        rw [obey_config] at reached
        simp only [files]
        exact ⟨s', .head move reached, call ▸ later⟩

theorem act_control (s : System σ) (c : Control) :
    (control c s.world s.shared).1 = (s.act c s.shared.slot).world ∧
      (control c s.world s.shared).2.1 = (s.act c s.shared.slot).shared ∧
      s.log ++ (control c s.world s.shared).2.2.1 = (s.act c s.shared.slot).log := by
  unfold System.act control
  split <;> simp_all [System.reach]

theorem control_reaches (shows : Shows s h) (c : Control) :
    ∃ s', Reaches h.config s s' ∧ Shows s' (h.control c).1 := by
  have looked : Reaches h.config s _ := .single (.look 0)
  have acted := looked.tail (.act 0 c)
  refine ⟨_, acted, ?_⟩
  have same : ({ s with seen := Function.update s.seen 0 s.shared.slot } : System σ).act c
      (Function.update s.seen 0 s.shared.slot 0) =
        { s.act c s.shared.slot with seen := Function.update s.seen 0 s.shared.slot } := by
    rw [Function.update_self]
    unfold System.act
    split <;> rfl
  obtain ⟨world, shared, events⟩ := act_control s c
  simp only [Rehearsal.control, Rehearsal.wake, shows.world, shows.shared, shows.events]
  exact ⟨world.trans (congrArg System.world same).symm,
    shared.trans (congrArg System.shared same).symm, events.trans (congrArg System.log same).symm⟩

theorem expire_reaches {i : Nat} (shows : Shows s h) (counting : s.timers i = .counting) :
    ∃ s', Reaches h.config s s' ∧
      Shows s' (h.expire (s.calls i).request.app (s.calls i).run) := by
  have elapsed : Reaches h.config s _ := .single (.elapse i counting)
  obtain ⟨world, shared, events⟩ := shows
  unfold Rehearsal.expire expire
  rw [world, shared, events]
  by_cases ended : (s.shared.runner (s.calls i).run).state.isTerminal = true
  · refine ⟨_, elapsed, ?_⟩
    simp only [ended, if_true, List.append_nil]
    exact ⟨rfl, rfl, rfl⟩
  · have struck := elapsed.tail (.strike i (by simp [ended]))
    refine ⟨_, struck, ?_⟩
    simp only [ended]
    exact ⟨rfl, rfl, rfl⟩

end

end StepFlow.Engine
