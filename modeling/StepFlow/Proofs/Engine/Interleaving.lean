import StepFlow.Proofs.Engine.Step

/-!
Any number of calls, with the control calls and the time limits that come in between. A move is one
step of a call, one of the two sections of a control call (it looks into the slot, then acts on the
runner that it found), one of the two of a time limit, or anything that happens in the world.

The slot belongs to the one call that has taken it and not released it, and every call accounts for
its own run. Both are kept by every move.
-/
namespace StepFlow.Engine
open Run

inductive Timer where
  | off
  | counting
  | due

/-- A limit that is cancelled may be passing at that moment, so that cancelling settles nothing. -/
def Timer.obey (t : Timer) : Option LimitOrder → Timer
  | some (.start _) => .counting
  | some .cancel => t
  | none => t

structure System (σ : Type) where
  world : σ
  shared : Shared := {}
  calls : Nat → Call
  timers : Nat → Timer := fun _ => .off
  seen : Nat → Slot := fun _ => none
  log : List PublishedEvent := []
  launched : List String := []

def fresh {σ : Type} (w : σ) (names : Nat → String) (requests : Nat → Request) : System σ where
  world := w
  calls i := { run := names i, request := requests i }

namespace System
variable {σ : Type} [World σ]

def view (s : System σ) (run : String) : View :=
  ⟨s.shared.runner run, eventsOf run s.log, s.launched.count run⟩

def goOn (s : System σ) (i : Nat) (t : Stepped σ) : System σ :=
  { s with
    world := t.world
    shared := t.shared
    calls := Function.update s.calls i t.call
    timers := Function.update s.timers i ((s.timers i).obey t.limit)
    log := s.log ++ t.events
    launched := s.launched ++ if (s.calls i).phase.isLaunch then [(s.calls i).run] else [] }

def reach (s : System σ) (app run : String) (c : Control) : System σ :=
  let (t, world) := (s.shared.runner run).controlIn c s.world
  { s with
    world
    shared := s.shared.setRunner run t.runner
    log := s.log ++ t.events.map fun e => ⟨app, run, e⟩ }

def act (s : System σ) (c : Control) : Slot → System σ
  | some ⟨_, app, some run⟩ => s.reach app run c
  | _ => s

end System

inductive Move {σ : Type} [World σ] (config : Config) (s : System σ) : System σ → Prop where
  | proceed (i : Nat) (t : Stepped σ) (made : (s.calls i).step? config s.world s.shared = some t) :
      Move config s (s.goOn i t)
  | look (j : Nat) : Move config s { s with seen := Function.update s.seen j s.shared.slot }
  | act (j : Nat) (c : Control) :
      Move config s { s.act c (s.seen j) with seen := Function.update s.seen j none }
  | elapse (i : Nat) (counting : s.timers i = .counting) :
      Move config s { s with
        timers := Function.update s.timers i
          (if (s.shared.runner (s.calls i).run).state.isTerminal then .off else .due) }
  | strike (i : Nat) (due : s.timers i = .due) :
      Move config s { s.reach (s.calls i).request.app (s.calls i).run .timeout with
        timers := Function.update s.timers i .off }
  | drift (world : σ) : Move config s { s with world }

abbrev Reaches {σ : Type} [World σ] (config : Config) : System σ → System σ → Prop :=
  Relation.ReflTransGen (Move config)

/-- What is true however far the calls have got. -/
structure Sound {σ : Type} [World σ] (s : System σ) : Prop where
  distinct : ∀ i j, (s.calls i).run = (s.calls j).run → i = j
  held : ∀ i, (s.calls i).phase.holds = true → s.shared.slot = some (s.calls i).active
  owned : s.shared.slot ≠ none → ∃ i, (s.calls i).phase.holds = true
  accounts : ∀ i, (s.calls i).phase.Accounts (s.view (s.calls i).run)
  admitted : ∀ i run, (s.calls i).phase ≠ .release (.error (.runInProgress run))
  seen : ∀ j active run, s.seen j = some active → active.runner = some run →
    run = active.run ∧ ∃ i, (s.calls i).run = run ∧ (s.calls i).phase.equipped = true
  limited : ∀ i, s.timers i ≠ .off → (s.calls i).phase.equipped = true

section
variable {σ : Type} {s s' : System σ} {i : Nat} {t : Stepped σ}

theorem goOn_own : (s.goOn i t).calls i = t.call := by simp [System.goOn]

theorem goOn_other {k : Nat} (other : k ≠ i) : (s.goOn i t).calls k = s.calls k := by
  simp [System.goOn, other]

variable [World σ] {config : Config}

theorem sound_fresh {w : σ} {names : Nat → String} {requests : Nat → Request}
    (distinct : Function.Injective names) : Sound (fresh w names requests) where
  distinct := fun _ _ same => distinct same
  held := fun _ holds => by cases holds
  owned := fun taken => absurd rfl taken
  accounts := fun _ => ⟨rfl, rfl⟩
  admitted := fun _ _ => by simp [fresh]
  seen := fun _ _ _ seen => by cases seen
  limited := fun _ on => absurd rfl on

theorem held_alone (sound : Sound s) {i j : Nat} (first : (s.calls i).phase.holds = true)
    (second : (s.calls j).phase.holds = true) : i = j := by
  have same := (sound.held i first).symm.trans (sound.held j second)
  exact sound.distinct i j (congrArg Active.run (Option.some.inj same))

theorem view_goOn (step : (s.calls i).Step s.world s.shared t) (k : Nat)
    (distinct : ∀ i j, (s.calls i).run = (s.calls j).run → i = j) :
    (s.goOn i t).view (s.calls k).run =
      if k = i then ⟨t.shared.runner (s.calls i).run,
        eventsOf (s.calls i).run s.log ++ eventsOf (s.calls i).run t.events,
        s.launched.count (s.calls i).run + (s.calls i).phase.isLaunch.toNat⟩
      else s.view (s.calls k).run := by
  by_cases own : k = i
  · subst own
    simp only [System.view, System.goOn, eventsOf_append, List.count_append, if_true]
    cases (s.calls k).phase.isLaunch <;> simp
  · have elsewhere : (s.calls k).run ≠ (s.calls i).run := fun same => own (distinct k i same)
    obtain ⟨runner, quiet⟩ := Call.step_others step elsewhere
    simp only [System.view, System.goOn, eventsOf_append, List.count_append, own, runner, quiet]
    cases (s.calls i).phase.isLaunch <;> simp [Ne.symm elsewhere]

theorem goOn_run (step : (s.calls i).Step s.world s.shared t) (k : Nat) :
    ((s.goOn i t).calls k).run = (s.calls k).run := by
  by_cases own : k = i
  · rw [own, goOn_own, (Call.step_same step).1]
  · rw [goOn_other own]

theorem goOn_equipped (step : (s.calls i).Step s.world s.shared t) (k : Nat)
    (equipped : (s.calls k).phase.equipped = true) :
    ((s.goOn i t).calls k).phase.equipped = true := by
  by_cases own : k = i
  · subst own
    rw [goOn_own]
    exact Call.step_equipped step equipped
  · rwa [goOn_other own]

theorem held_goOn (sound : Sound s) (step : (s.calls i).Step s.world s.shared t) (k : Nat)
    (holds : ((s.goOn i t).calls k).phase.holds = true) :
    (s.goOn i t).shared.slot = some ((s.goOn i t).calls k).active := by
  have slots := Call.step_slot step (sound.held i)
  by_cases own : k = i
  · subst own
    rw [goOn_own] at holds ⊢
    rcases slots with ⟨_, away, _⟩ | ⟨_, _, _, slot⟩ | ⟨_, _, slot⟩ | ⟨_, gone, _⟩
    · simp [away] at holds
    · exact slot
    · exact slot
    · simp [gone] at holds
  · rw [goOn_other own] at holds ⊢
    rcases slots with ⟨_, _, slot⟩ | ⟨_, free, _⟩ | ⟨before, _⟩ | ⟨before, _⟩
    · exact slot.trans (sound.held k holds)
    · exact absurd (sound.held k holds) (by simp [free])
    · exact absurd (held_alone sound holds before) own
    · exact absurd (held_alone sound holds before) own

theorem owned_goOn (sound : Sound s) (step : (s.calls i).Step s.world s.shared t)
    (taken : (s.goOn i t).shared.slot ≠ none) :
    ∃ k, ((s.goOn i t).calls k).phase.holds = true := by
  rcases Call.step_slot step (sound.held i) with
    ⟨idle, _, slot⟩ | ⟨_, _, holds, _⟩ | ⟨_, holds, _⟩ | ⟨_, _, slot⟩
  · obtain ⟨k, holds⟩ := sound.owned fun free => taken (slot.trans free)
    have other : k ≠ i := by
      rintro rfl
      simp [idle] at holds
    exact ⟨k, by rwa [goOn_other other]⟩
  · exact ⟨i, by rwa [goOn_own]⟩
  · exact ⟨i, by rwa [goOn_own]⟩
  · exact absurd slot taken

theorem limited_goOn (sound : Sound s) (step : (s.calls i).Step s.world s.shared t) (k : Nat)
    (on : (s.goOn i t).timers k ≠ .off) : ((s.goOn i t).calls k).phase.equipped = true := by
  by_cases own : k = i
  · subst own
    by_cases order : t.limit = none
    · have before : s.timers k ≠ .off := by simpa [System.goOn, order, Timer.obey] using on
      exact goOn_equipped step k (sound.limited k before)
    · rw [goOn_own]
      exact Call.step_limit step order
  · have before : s.timers k ≠ .off := by simpa [System.goOn, own] using on
    exact goOn_equipped step k (sound.limited k before)

theorem sound_goOn (sound : Sound s) (step : (s.calls i).Step s.world s.shared t) :
    Sound (s.goOn i t) where
  distinct := by
    intro j k same
    rw [goOn_run step, goOn_run step] at same
    exact sound.distinct j k same
  held := held_goOn sound step
  owned := owned_goOn sound step
  accounts := by
    intro k
    rw [goOn_run step, view_goOn step k sound.distinct]
    by_cases own : k = i
    · rw [if_pos own, own, goOn_own]
      exact Call.step_accounts step rfl (sound.accounts i)
    · rw [if_neg own, goOn_other own]
      exact sound.accounts k
  admitted := by
    intro k run
    by_cases own : k = i
    · rw [own, goOn_own]
      exact Call.step_admitted step
    · rw [goOn_other own]
      exact sound.admitted k run
  seen := by
    intro j active run saw named
    obtain ⟨same, k, named, equipped⟩ := sound.seen j active run saw named
    exact ⟨same, k, (goOn_run step k).trans named, goOn_equipped step k equipped⟩
  limited := limited_goOn sound step

theorem view_reach (app run other : String) (c : Control) :
    ∃ deliver, (s.reach app run c).view other =
      if other = run then
        ⟨((s.view run).runner.control c deliver).runner,
          (s.view run).log ++ ((s.view run).runner.control c deliver).events,
          (s.view run).launches⟩
      else s.view other := by
  refine ⟨fun signal => (World.deliver signal s.world).2, ?_⟩
  by_cases own : other = run
  · subst own
    simp [System.view, System.reach, Runner.controlIn, runner_setRunner, eventsOf_append,
      eventsOf_own]
  · simp [System.view, System.reach, Runner.controlIn, runner_setRunner_of_ne _ own,
      eventsOf_append, eventsOf_other _ own, own]

theorem sound_reach (sound : Sound s) (app : String) {run : String}
    (equipped : ∃ i, (s.calls i).run = run ∧ (s.calls i).phase.equipped = true)
    (c : Control) : Sound (s.reach app run c) := by
  obtain ⟨i, named, equipped⟩ := equipped
  refine ⟨sound.distinct, sound.held, sound.owned, ?_, sound.admitted, sound.seen, sound.limited⟩
  intro k
  have accounts := sound.accounts k
  obtain ⟨deliver, view⟩ := view_reach (s := s) app run (s.calls k).run c
  change (s.calls k).phase.Accounts ((s.reach app run c).view (s.calls k).run)
  rw [view]
  by_cases own : (s.calls k).run = run
  · rw [if_pos own]
    rw [own] at accounts
    cases sound.distinct k i (own.trans named.symm)
    exact Phase.accounts_control accounts equipped c deliver
  · rwa [if_neg own]

theorem act_keeps (s : System σ) (c : Control) (found : Slot) :
    (s.act c found).calls = s.calls ∧ (s.act c found).seen = s.seen ∧
      (s.act c found).timers = s.timers ∧ (s.act c found).shared.slot = s.shared.slot ∧
      (s.act c found).launched = s.launched := by
  unfold System.act
  split <;> exact ⟨rfl, rfl, rfl, rfl, rfl⟩

theorem sound_act (sound : Sound s) (j : Nat) (c : Control) : Sound (s.act c (s.seen j)) := by
  unfold System.act
  split
  · rename_i active app run saw
    exact sound_reach sound app (sound.seen j _ run saw rfl).2 c
  · exact sound

theorem slot_equipped (sound : Sound s) {active : Active} {run : String}
    (taken : s.shared.slot = some active) (named : active.runner = some run) :
    run = active.run ∧ ∃ i, (s.calls i).run = run ∧ (s.calls i).phase.equipped = true := by
  obtain ⟨i, holds⟩ := sound.owned (by simp [taken])
  rw [sound.held i holds] at taken
  cases taken
  cases stage : (s.calls i).phase.stage? with
  | none => simp [Call.active, stage] at named
  | some stage' =>
    have same : run = (s.calls i).run := by simpa [Call.active, stage] using named.symm
    exact ⟨same, i, same.symm, by simp [Phase.equipped, stage]⟩

/-- Every move keeps the calls sound. -/
theorem sound_move (sound : Sound s) (move : Move config s s') : Sound s' := by
  cases move with
  | proceed i t made => exact sound_goOn sound (Call.step_cases made)
  | look j =>
    refine ⟨sound.distinct, sound.held, sound.owned, sound.accounts, sound.admitted, ?_,
      sound.limited⟩
    intro k active run saw named
    have saw : Function.update s.seen j s.shared.slot k = some active := saw
    by_cases own : k = j
    · rw [own, Function.update_self] at saw
      exact slot_equipped sound saw named
    · rw [Function.update_of_ne own] at saw
      exact sound.seen k active run saw named
  | act j c =>
    have sound' := sound_act sound j c
    refine ⟨sound'.distinct, sound'.held, sound'.owned, sound'.accounts, sound'.admitted, ?_,
      sound'.limited⟩
    intro k active run saw named
    have saw : Function.update s.seen j none k = some active := saw
    by_cases own : k = j
    · simp [own] at saw
    · rw [Function.update_of_ne own, ← (act_keeps s c (s.seen j)).2.1] at saw
      exact sound'.seen k active run saw named
  | elapse i counting =>
    refine ⟨sound.distinct, sound.held, sound.owned, sound.accounts, sound.admitted, sound.seen, ?_⟩
    intro k on
    by_cases own : k = i
    · exact sound.limited k (by simp [own, counting])
    · exact sound.limited k (by simpa [own] using on)
  | strike i due =>
    have limited := sound.limited i (by simp [due])
    have sound' := sound_reach sound (s.calls i).request.app ⟨i, rfl, limited⟩ .timeout
    refine ⟨sound'.distinct, sound'.held, sound'.owned, sound'.accounts, sound'.admitted,
      sound'.seen, ?_⟩
    intro k on
    by_cases own : k = i
    · simp [own] at on
    · exact sound.limited k (by simpa [own] using on)
  | drift world => exact ⟨sound.distinct, sound.held, sound.owned, sound.accounts, sound.admitted,
      sound.seen, sound.limited⟩

theorem sound_reaches (sound : Sound s) (reached : Reaches config s s') : Sound s' := by
  induction reached with
  | refl => exact sound
  | tail _ move ih => exact sound_move ih move

end

end StepFlow.Engine
