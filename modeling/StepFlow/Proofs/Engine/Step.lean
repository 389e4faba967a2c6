import StepFlow.Engine.Call
import StepFlow.Proofs.Run.Lone

/-!
What a step of a call does: to the slot, to its own run, and to the others. A call holds the slot
from when it has taken it until it has released it. It can account for its run: nothing is reported
as long as there is no runner, and from then on the run is one that a single call starts, and that
is at the stage that the call is at. Other runs are left alone.
-/
namespace StepFlow.Engine
open Run

namespace Phase

def holds : Phase → Bool
  | reserve => false
  | returned _ => false
  | _ => true

def isEarly : Phase → Bool
  | compile => true
  | place _ => true
  | describe _ => true
  | install _ => true
  | release (.error (.compile _)) => true
  | release (.error (.workspace _)) => true
  | _ => false

def stage? : Phase → Option Run.Phase
  | limit _ => some .begin
  | running attempt => some attempt.phase
  | unlimit result => some (.returned result)
  | dispose result => some (.returned result)
  | release (.ok outcome) => some (.returned (.ok outcome.state))
  | release (.error (.process e)) => some (.returned (.error e))
  | returned (.ok outcome) => some (.returned (.ok outcome.state))
  | returned (.error (.process e)) => some (.returned (.error e))
  | _ => none

abbrev equipped (phase : Phase) : Bool := phase.stage?.isSome

def config? : Phase → Option Run.Config
  | limit config => some config
  | running attempt => some attempt.config
  | _ => none

def isLaunch : Phase → Bool
  | running attempt => attempt.phase.isLaunch
  | _ => false

end Phase

namespace Call

def active (c : Call) : Active := ⟨c.run, c.request.app, c.phase.stage?.map fun _ => c.run⟩

def turnedAway (c : Call) (run : String) : Call :=
  { c with phase := .returned (.error (.runInProgress run)) }

inductive Step {σ : Type} [World σ] (c : Call) (w : σ) (s : Shared) : Stepped σ → Prop where
  | turnedAway (active : Active) (phase : c.phase = .reserve) (taken : s.slot = some active) :
      Step c w s ⟨c.turnedAway active.run, w, s, [], none⟩
  | reserve (phase : c.phase = .reserve) (free : s.slot = none) :
      Step c w s ⟨{ c with phase := .compile }, w,
        { s with slot := some ⟨c.run, c.request.app, none⟩ }, [], none⟩
  | prepare (next : Phase) (w' : σ) (before : c.phase.isEarly = true)
      (after : next.isEarly = true) : Step c w s ⟨{ c with phase := next }, w', s, [], none⟩
  | install (config : Run.Config) (phase : c.phase = .install config) :
      Step c w s ⟨{ c with phase := .limit config }, w,
        { s.setRunner c.run {} with slot := s.slot.install c.run }, [], none⟩
  | settle (next : Phase) (order : Option LimitOrder) (stage : Run.Phase)
      (before : c.phase.holds = true ∧ c.phase.stage? = some stage)
      (after : next.holds = true ∧ next.stage? = some stage) (quiet : c.phase.isLaunch = false)
      (same : ∀ config, next.config? = some config → c.phase.config? = some config) :
      Step c w s ⟨{ c with phase := next }, w, s, [], order⟩
  | run (attempt : Attempt) (next : Run.Stepped σ) (phase : c.phase = .running attempt)
      (made : attempt.step? w (s.runner c.run) = some next) :
      Step c w s ⟨{ c with phase := .running next.attempt }, next.world,
        s.setRunner c.run next.runner, next.events.map c.publish, none⟩
  | dispose (result : Except ProcessError State) (next : Phase)
      (phase : c.phase = .dispose result)
      (after : next.holds = true ∧ next.stage? = some (.returned result) ∧ next.config? = none) :
      Step c w s ⟨{ c with phase := next }, w, s.setRunner c.run (s.runner c.run).dispose, [],
        none⟩
  | release (result : Except Error Outcome) (phase : c.phase = .release result) :
      Step c w s ⟨{ c with phase := .returned result }, w,
        { s with slot := s.slot.release c.run }, [], none⟩

variable {σ : Type} [World σ] {config : Config} {c : Call} {w : σ} {s : Shared} {t : Stepped σ}

theorem step_cases (made : c.step? config w s = some t) : c.Step w s t := by
  unfold step? at made
  cases phase : c.phase with
  | reserve =>
    simp only [phase] at made
    cases slot : s.slot with
    | some active =>
      rw [slot] at made
      cases made
      exact .turnedAway active phase slot
    | none =>
      rw [slot] at made
      cases made
      exact .reserve phase slot
  | compile =>
    simp only [phase] at made
    split at made <;> cases made <;> exact .prepare _ _ (by rw [phase]; rfl) rfl
  | place program =>
    simp only [phase] at made
    split at made <;> cases made <;> exact .prepare _ _ (by rw [phase]; rfl) rfl
  | describe dir =>
    simp only [phase] at made
    cases made
    exact .prepare _ _ (by rw [phase]; rfl) rfl
  | install run =>
    simp only [phase] at made
    cases made
    exact .install run phase
  | limit run =>
    simp only [phase] at made
    cases made
    refine .settle _ _ .begin ?_ ⟨rfl, rfl⟩ ?_ ?_
    · rw [phase]
      exact ⟨rfl, rfl⟩
    · rw [phase]
      rfl
    · intro config same
      rw [phase]
      exact same
  | running attempt =>
    simp only [phase] at made
    split at made
    · rename_i result returned
      cases made
      refine .settle _ _ (.returned result) ?_ ⟨rfl, rfl⟩ ?_ (by intro config same; cases same)
      · rw [phase]
        exact ⟨rfl, congrArg some returned⟩
      · rw [phase, Phase.isLaunch, returned]
        rfl
    · split at made
      · cases made
      · rename_i next stepped
        cases made
        exact .run attempt next phase stepped
  | unlimit result =>
    simp only [phase] at made
    cases made
    refine .settle _ _ (.returned result) ?_ ⟨rfl, rfl⟩ ?_ (by intro config same; cases same)
    · rw [phase]
      exact ⟨rfl, rfl⟩
    · rw [phase]
      rfl
  | dispose result =>
    simp only [phase] at made
    cases made
    refine .dispose result _ phase ⟨rfl, ?_, rfl⟩
    cases result <;> rfl
  | release result =>
    simp only [phase] at made
    cases made
    exact .release result phase
  | returned result =>
    simp only [phase] at made
    cases made

end Call

def eventsOf (run : String) (log : List PublishedEvent) : List Event :=
  (log.filter fun e => e.run = run).map PublishedEvent.event

structure View where
  runner : Runner
  log : List Event
  launches : Nat

def View.of (s : Run.System) : View := ⟨s.runner, s.log, s.launches⟩

/-- What the call at this phase has made of its run: nothing while there is no runner, and from
then on what a single call that starts a run can make of it. -/
def Phase.Accounts (phase : Phase) (v : View) : Prop :=
  match phase.stage? with
  | none => v.log = [] ∧ v.launches = 0
  | some stage => ∃ app s, (∀ config, phase.config? = some config → config.app = app) ∧
      Lone app stage s ∧ View.of s = v

section
variable {run other app : String} {s : Shared} {log more : List PublishedEvent}

theorem runner_setRunner (r : Runner) : (s.setRunner run r).runner run = r := by
  simp [Shared.runner, Shared.setRunner]

theorem lookup_filter_of_ne (elsewhere : other ≠ run) (runners : List (String × Runner)) :
    (runners.filter fun p => p.1 != run).lookup other = runners.lookup other := by
  induction runners with
  | nil => rfl
  | cons p rest ih =>
    obtain ⟨name, r⟩ := p
    by_cases same : name = run
    · subst same
      simp [List.lookup_cons, ih, beq_false_of_ne elsewhere]
    · simp [List.lookup_cons, ih, same]

theorem runner_setRunner_of_ne (r : Runner) (elsewhere : other ≠ run) :
    (s.setRunner run r).runner other = s.runner other := by
  simp [Shared.runner, Shared.setRunner, List.lookup_cons, beq_false_of_ne elsewhere,
    lookup_filter_of_ne elsewhere]

theorem eventsOf_append : eventsOf run (log ++ more) = eventsOf run log ++ eventsOf run more := by
  simp [eventsOf]

theorem eventsOf_own (events : List Event) :
    eventsOf run (events.map fun e => ⟨app, run, e⟩) = events := by
  simp [eventsOf, List.filter_map, Function.comp_def]

theorem eventsOf_other (events : List Event) (elsewhere : other ≠ run) :
    eventsOf other (events.map fun e => ⟨app, run, e⟩) = [] := by
  simp [eventsOf, List.filter_map, Function.comp_def, Ne.symm elsewhere]

end

namespace Phase
variable {phase next : Phase} {v : View}

theorem early_facts (early : phase.isEarly = true) :
    phase.holds = true ∧ phase.stage? = none ∧ phase.isLaunch = false ∧
      ∀ run, phase ≠ .release (.error (.runInProgress run)) := by
  unfold isEarly at early
  split at early <;> first | exact ⟨rfl, rfl, rfl, by simp⟩ | cases early

theorem accounts_none (none : phase.stage? = none) :
    phase.Accounts v ↔ v.log = [] ∧ v.launches = 0 := by
  rw [Accounts, none]

theorem accounts_some {stage : Run.Phase} (some : phase.stage? = some stage) :
    phase.Accounts v ↔ ∃ app s, (∀ config, phase.config? = .some config → config.app = app) ∧
      Lone app stage s ∧ View.of s = v := by
  rw [Accounts, some]

theorem accounts_same (stage : next.stage? = phase.stage?)
    (same : ∀ config, next.config? = some config → phase.config? = some config)
    (accounts : phase.Accounts v) : next.Accounts v := by
  unfold Accounts at accounts ⊢
  rw [stage]
  cases stage' : phase.stage? with
  | none =>
    rw [stage'] at accounts
    exact accounts
  | some stage =>
    rw [stage'] at accounts
    obtain ⟨app, s, config, lone, view⟩ := accounts
    exact ⟨app, s, fun config' has => config config' (same config' has), lone, view⟩

section
variable {r r' : Runner} {log : List Event} {launches : Nat}

theorem accounts_bare (before : phase.stage? = none) (after : next.stage? = none)
    (accounts : phase.Accounts ⟨r, log, launches⟩) : next.Accounts ⟨r', log, launches⟩ := by
  rw [accounts_none before] at accounts
  rw [accounts_none after]
  exact accounts

theorem accounts_install {config : Run.Config}
    (accounts : (install config).Accounts ⟨r, log, launches⟩) :
    (limit config).Accounts ⟨{}, log, launches⟩ := by
  obtain ⟨rfl, rfl⟩ := accounts
  exact ⟨config.app, {}, fun config' same => by cases same; rfl, lone_fresh, rfl⟩

theorem accounts_run {σ : Type} [World σ] {attempt : Attempt} {w : σ} {moved : Run.Stepped σ}
    (accounts : (running attempt).Accounts ⟨r, log, launches⟩)
    (made : attempt.step? w r = some moved) :
    (running moved.attempt).Accounts
      ⟨moved.runner, log ++ moved.events, launches + attempt.phase.isLaunch.toNat⟩ := by
  obtain ⟨app, s, config, lone, view⟩ := accounts
  cases config attempt.config rfl
  obtain ⟨rfl, rfl, rfl⟩ := View.mk.inj view
  obtain ⟨s', lone', _, runner, log, launches⟩ := lone_step lone made
  refine ⟨_, s', fun config same => by cases same; rfl, lone', ?_⟩
  rw [View.of, runner, log, launches]

theorem accounts_dispose {ended : Except ProcessError State}
    (stage : next.stage? = some (.returned ended)) (unconfigured : next.config? = none)
    (accounts : (dispose ended).Accounts ⟨r, log, launches⟩) :
    next.Accounts ⟨r.dispose, log, launches⟩ := by
  obtain ⟨app, s, _, lone, view⟩ := accounts
  obtain ⟨rfl, rfl, rfl⟩ := View.mk.inj view
  rw [accounts_some stage]
  exact ⟨app, _, fun config same => by simp [unconfigured] at same, lone_dispose lone, rfl⟩

end

theorem release_stage (result : Except Error Outcome) :
    (release result).stage? = (returned result).stage? := by
  cases result with
  | ok outcome => rfl
  | error e => cases e <;> rfl

theorem accounts_control (accounts : phase.Accounts v) (equipped : phase.equipped = true)
    (c : Control) (deliver : Delivery) :
    phase.Accounts ⟨(v.runner.control c deliver).runner,
      v.log ++ (v.runner.control c deliver).events, v.launches⟩ := by
  obtain ⟨stage, at_stage⟩ := Option.isSome_iff_exists.mp equipped
  rw [accounts_some at_stage] at accounts ⊢
  obtain ⟨app, s, config, lone, rfl⟩ := accounts
  exact ⟨app, _, config, lone_control lone c deliver, rfl⟩

end Phase

namespace Call
variable {σ : Type} [World σ] {config : Config} {c : Call} {w : σ} {s : Shared} {t : Stepped σ}

theorem step_same (step : c.Step w s t) : t.call.run = c.run ∧ t.call.request = c.request := by
  cases step <;> exact ⟨rfl, rfl⟩

theorem step_others {other : String} (step : c.Step w s t) (elsewhere : other ≠ c.run) :
    t.shared.runner other = s.runner other ∧ eventsOf other t.events = [] := by
  cases step with
  | turnedAway | reserve | prepare | settle | release => exact ⟨rfl, rfl⟩
  | install => exact ⟨runner_setRunner_of_ne {} elsewhere, rfl⟩
  | run attempt next =>
    exact ⟨runner_setRunner_of_ne next.runner elsewhere, eventsOf_other next.events elsewhere⟩
  | dispose => exact ⟨runner_setRunner_of_ne _ elsewhere, rfl⟩

theorem step_slot (step : c.Step w s t)
    (held : c.phase.holds = true → s.slot = some c.active) :
    (c.phase.holds = false ∧ t.call.phase.holds = false ∧ t.shared.slot = s.slot) ∨
      (c.phase.holds = false ∧ s.slot = none ∧ t.call.phase.holds = true ∧
        t.shared.slot = some t.call.active) ∨
      (c.phase.holds = true ∧ t.call.phase.holds = true ∧
        t.shared.slot = some t.call.active) ∨
      (c.phase.holds = true ∧ t.call.phase.holds = false ∧ t.shared.slot = none) := by
  cases step with
  | turnedAway active phase taken => exact Or.inl ⟨by rw [phase]; rfl, rfl, rfl⟩
  | reserve phase free => exact Or.inr (Or.inl ⟨by rw [phase]; rfl, free, rfl, rfl⟩)
  | prepare next w' before after =>
    obtain ⟨holds, bare, _⟩ := Phase.early_facts before
    obtain ⟨holds', bare', _⟩ := Phase.early_facts after
    refine Or.inr (Or.inr (Or.inl ⟨holds, holds', ?_⟩))
    simp [held holds, active, bare, bare']
  | install config phase =>
    have holds : c.phase.holds = true := by rw [phase]; rfl
    refine Or.inr (Or.inr (Or.inl ⟨holds, rfl, ?_⟩))
    simp [held holds, Slot.install, active, Phase.stage?]
  | settle next order stage before after =>
    refine Or.inr (Or.inr (Or.inl ⟨before.1, after.1, ?_⟩))
    simp [held before.1, active, before.2, after.2]
  | run attempt next phase =>
    have holds : c.phase.holds = true := by rw [phase]; rfl
    refine Or.inr (Or.inr (Or.inl ⟨holds, rfl, ?_⟩))
    simp [held holds, Shared.setRunner, active, Phase.stage?, phase]
  | dispose result next phase after =>
    have holds : c.phase.holds = true := by rw [phase]; rfl
    have stage : c.phase.stage? = some (.returned result) := by rw [phase]; rfl
    refine Or.inr (Or.inr (Or.inl ⟨holds, after.1, ?_⟩))
    simp [held holds, Shared.setRunner, active, stage, after.2.1]
  | release result phase =>
    have holds : c.phase.holds = true := by rw [phase]; rfl
    refine Or.inr (Or.inr (Or.inr ⟨holds, rfl, ?_⟩))
    simp [held holds, Slot.release, active]

/-- Every step of a call brings its run as far as the next phase accounts for. -/
theorem step_accounts {v : View} (step : c.Step w s t) (runner : v.runner = s.runner c.run)
    (accounts : c.phase.Accounts v) :
    t.call.phase.Accounts ⟨t.shared.runner c.run, v.log ++ eventsOf c.run t.events,
      v.launches + c.phase.isLaunch.toNat⟩ := by
  obtain ⟨r, log, launches⟩ := v
  have runner : r = s.runner c.run := runner
  subst runner
  have nothing : log ++ eventsOf c.run [] = log := List.append_nil log
  cases step with
  | turnedAway active phase =>
    rw [phase] at accounts ⊢
    rw [nothing]
    exact Phase.accounts_bare rfl rfl accounts
  | reserve phase =>
    rw [phase] at accounts ⊢
    rw [nothing]
    exact Phase.accounts_bare rfl rfl accounts
  | prepare next w' before after =>
    obtain ⟨_, bare, quiet, _⟩ := Phase.early_facts before
    rw [quiet, nothing]
    exact Phase.accounts_bare bare (Phase.early_facts after).2.1 accounts
  | install config phase =>
    rw [phase] at accounts ⊢
    have installed : (({ s.setRunner c.run {} with slot := s.slot.install c.run } :
      Shared).runner c.run) = {} := runner_setRunner {}
    rw [nothing, installed]
    exact Phase.accounts_install accounts
  | settle next order stage before after quiet same =>
    rw [quiet, nothing]
    exact Phase.accounts_same (after.2.trans before.2.symm) same accounts
  | run attempt next phase made =>
    rw [phase] at accounts ⊢
    have published : eventsOf c.run (next.events.map c.publish) = next.events :=
      eventsOf_own next.events
    rw [published, runner_setRunner]
    exact Phase.accounts_run accounts made
  | dispose result next phase after =>
    rw [phase] at accounts ⊢
    rw [nothing, runner_setRunner]
    exact Phase.accounts_dispose after.2.1 after.2.2 accounts
  | release result phase =>
    rw [phase] at accounts ⊢
    rw [nothing]
    exact Phase.accounts_same (Phase.release_stage result).symm (fun _ same => by cases same)
      accounts

theorem step_equipped (step : c.Step w s t) (equipped : c.phase.equipped = true) :
    t.call.phase.equipped = true := by
  cases step with
  | turnedAway active phase | reserve phase =>
    simp [phase, Phase.equipped, Phase.stage?] at equipped
  | prepare next w' before => simp [Phase.equipped, (Phase.early_facts before).2.1] at equipped
  | install | run => rfl
  | settle next order stage before after => simp [Phase.equipped, after.2]
  | dispose result next phase after => simp [Phase.equipped, after.2.1]
  | release result phase =>
    rw [phase] at equipped
    cases result with
    | ok outcome => rfl
    | error e => cases e <;> first | rfl | exact equipped

theorem step_limit (step : c.Step w s t) (limited : t.limit ≠ none) :
    t.call.phase.equipped = true := by
  cases step with
  | settle next order stage before after => simp [Phase.equipped, after.2]
  | turnedAway | reserve | prepare | install | run | dispose | release => exact absurd rfl limited

theorem step_admitted {run : String} (step : c.Step w s t) :
    t.call.phase ≠ .release (.error (.runInProgress run)) := by
  cases step with
  | prepare next w' before after => exact (Phase.early_facts after).2.2.2 run
  | settle next order stage before after =>
    rintro rfl
    simp [Phase.stage?] at after
  | dispose result next phase after =>
    rintro rfl
    simp [Phase.stage?] at after
  | turnedAway => simp [turnedAway]
  | reserve | install | run | release => simp

end Call

end StepFlow.Engine
