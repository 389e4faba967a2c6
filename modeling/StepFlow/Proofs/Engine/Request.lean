import StepFlow.Proofs.Engine.Slot
import StepFlow.Proofs.Run.Return

/-!
What a call makes of its request. A call that is not turned away compiles the flow, puts the
program in place and starts the run, and what it returns tells how far it got. Until it returns it
waits for nothing but its process.
-/
namespace StepFlow.Engine
open Run

namespace Call

def Placed (config : Config) (c : Call) : Prop :=
  ∃ program files dir, Compile.compile config.groupRoot c.request.nodes = .ok program ∧
    (Workspace.materialize files config.workspaceRoot c.request.app program).2 = .ok dir

def Misplaced (config : Config) (c : Call) (e : Workspace.Error) : Prop :=
  ∃ program files, Compile.compile config.groupRoot c.request.nodes = .ok program ∧
    (Workspace.materialize files config.workspaceRoot c.request.app program).2 = .error e

def Tells (config : Config) (c : Call) : Except Error Outcome → Prop
  | .error (.compile e) => Compile.compile config.groupRoot c.request.nodes = .error e
  | .error (.workspace e) => c.Misplaced config e
  | .error .noActiveRun => False
  | .error (.runInProgress _) => True
  | _ => c.Placed config

def Informed (config : Config) (c : Call) : Prop :=
  match c.phase with
  | .reserve => True
  | .compile => True
  | .place program => Compile.compile config.groupRoot c.request.nodes = .ok program
  | .release result => c.Tells config result
  | .returned result => c.Tells config result
  | _ => c.Placed config

section
variable {σ : Type} [World σ] {config : Config} {c : Call} {w : σ} {s : Shared} {t : Stepped σ}

theorem step_informed (made : c.step? config w s = some t) (informed : c.Informed config) :
    t.call.Informed config := by
  unfold step? at made
  unfold Informed at informed
  cases phase : c.phase with
  | reserve =>
    simp only [phase] at made
    cases slot : s.slot with
    | some active =>
      rw [slot] at made
      cases made
      trivial
    | none =>
      rw [slot] at made
      cases made
      trivial
  | compile =>
    simp only [phase] at made
    split at made <;> rename_i compiled <;> cases made <;> exact compiled
  | place program =>
    simp only [phase] at made informed
    split at made <;> rename_i placed <;> cases made
    · exact ⟨program, World.files w, informed, congrArg Prod.snd placed⟩
    · exact ⟨program, World.files w, _, informed, congrArg Prod.snd placed⟩
  | running attempt =>
    simp only [phase] at made informed
    split at made
    · cases made
      exact informed
    · split at made <;> cases made
      exact informed
  | dispose result =>
    simp only [phase] at made informed
    cases made
    cases result <;> exact informed
  | returned result =>
    simp only [phase] at made
    cases made
  | describe | install | limit | unlimit | release =>
    simp only [phase] at made informed
    cases made
    exact informed

theorem step_reserve (phase : c.phase = .reserve) (made : c.step? config w s = some t) :
    (s.slot = none ∧ t.call.phase.holds = true) ∨
      ∃ active, s.slot = some active ∧ t.call = c.turnedAway active.run := by
  cases step_cases made with
  | turnedAway active _ taken => exact Or.inr ⟨active, taken, rfl⟩
  | reserve _ free => exact Or.inl ⟨free, rfl⟩
  | prepare next w' before => simp [phase, Phase.isEarly] at before
  | settle next order stage before => simp [phase, Phase.holds] at before
  | install run other | run attempt next other | dispose result next other
  | release result other => simp [phase] at other

theorem attempt_none {a : Attempt} {r : Runner} (stuck : a.step? w r = none) :
    a.waits = true ∨ ∃ result, a.phase = .returned result := by
  unfold Attempt.step? at stuck
  unfold Attempt.waits
  split at stuck
  · exact Or.inl rfl
  · exact Or.inl rfl
  · rename_i spawning reading
    split at stuck
    · rename_i ended
      rcases Run.step_none ended with waits | waits | returned
      · exact absurd waits spawning
      · exact absurd waits reading
      · exact Or.inr returned
    · cases stuck

theorem step_none (stuck : c.step? config w s = none) :
    c.waits = true ∨ ∃ result, c.phase = .returned result := by
  unfold step? at stuck
  cases phase : c.phase with
  | returned result => exact Or.inr ⟨result, rfl⟩
  | running attempt =>
    simp only [phase] at stuck
    split at stuck
    · cases stuck
    · rename_i ongoing
      split at stuck
      · rename_i still
        rcases attempt_none still with waits | ⟨result, returned⟩
        · exact Or.inl (by rwa [Call.waits, phase])
        · exact absurd returned (ongoing result)
      · cases stuck
  | reserve | compile | place =>
    simp only [phase] at stuck
    split at stuck <;> cases stuck
  | _ =>
    simp only [phase] at stuck
    cases stuck

end

end Call

/-- What has been made of the request of a call that returns a result. Where the start was turned
away a control call or the time limit had ended the run. -/
inductive CarriedOut {σ : Type} (config : Config) (s : System σ) (c : Call) :
    Except Error Outcome → Prop where
  | uncompiled (e : Compile.Error)
      (failed : Compile.compile config.groupRoot c.request.nodes = .error e) :
      CarriedOut config s c (.error (.compile e))
  | unplaced (e : Workspace.Error) (failed : c.Misplaced config e) :
      CarriedOut config s c (.error (.workspace e))
  | ended (outcome : Outcome) (placed : c.Placed config) (started : c.run ∈ s.launched) :
      CarriedOut config s c (.ok outcome)
  | failed (e : ProcessError) (placed : c.Placed config) (started : c.run ∈ s.launched) :
      CarriedOut config s c (.error (.process e))
  | endedEarly (state : State) (placed : c.Placed config)
      (early : state = .stopped ∨ state = .timeout) :
      CarriedOut config s c (.error (.process (.invalidTransition state .start)))

section
variable {σ : Type} {config : Config} {s s' : System σ} {i : Nat}

theorem launched_once {run : String} (once : (s.view run).launches = 1) : run ∈ s.launched :=
  List.count_pos_iff.mp (Nat.lt_of_lt_of_eq Nat.zero_lt_one once.symm)

variable [World σ]

theorem informed_move (informed : ∀ i, (s.calls i).Informed config) (move : Move config s s') :
    ∀ i, (s'.calls i).Informed config := by
  cases move with
  | proceed k t made =>
    intro i
    by_cases own : i = k
    · subst own
      rw [goOn_own]
      exact Call.step_informed made (informed i)
    · rw [goOn_other own]
      exact informed i
  | act j c =>
    have same : (s.act c (s.seen j)).calls = s.calls := (act_keeps s c (s.seen j)).1
    exact fun i => (congrFun same i).symm ▸ informed i
  | look | elapse | strike | drift => exact informed

theorem reached_informed {w : σ} {names : Nat → String} {requests : Nat → Request}
    (reached : Reaches config (fresh w names requests) s) (i : Nat) :
    (s.calls i).Informed config := by
  have all : ∀ i, (s.calls i).Informed config := by
    induction reached with
    | refl => exact fun _ => trivial
    | tail _ move ih => exact informed_move ih move
  exact all i

theorem accounts_launched {phase : Phase} {v : View} {ended : Except ProcessError State}
    (stage : phase.stage? = some (.returned ended)) (accounts : phase.Accounts v) :
    v.launches = 1 ∨ ∃ state : State, (state = .stopped ∨ state = .timeout) ∧
      ended = .error (.invalidTransition state .start) := by
  rw [Phase.accounts_some stage] at accounts
  obtain ⟨app, s, _, lone, rfl⟩ := accounts
  rcases lone_launched lone with once | ⟨early, _, away⟩
  · exact Or.inl once
  · exact Or.inr ⟨s.runner.state, early, away⟩

theorem waiting_launched (sound : Sound s) (waits : (s.calls i).waits = true) :
    (s.calls i).run ∈ s.launched := by
  have accounts := sound.accounts i
  unfold Call.waits at waits
  split at waits
  · rename_i attempt running
    rw [running] at accounts
    obtain ⟨app, s', _, lone, view⟩ := accounts
    have waiting : attempt.phase = .spawning ∨ attempt.phase = .reading := by
      unfold Attempt.waits at waits
      split at waits <;> simp_all
    exact launched_once (view ▸ lone_waiting lone waiting)
  · cases waits

theorem returned_carriedOut {result : Except Error Outcome} (sound : Sound s)
    (informed : (s.calls i).Informed config) (returned : (s.calls i).phase = .returned result) :
    (∃ run, result = .error (.runInProgress run)) ∨ CarriedOut config s (s.calls i) result := by
  have accounts := sound.accounts i
  rw [returned] at accounts
  have tells : (s.calls i).Tells config result := by
    rw [Call.Informed, returned] at informed
    exact informed
  cases result with
  | ok outcome =>
    rcases accounts_launched rfl accounts with once | ⟨_, _, failed⟩
    · exact Or.inr (.ended _ tells (launched_once once))
    · cases failed
  | error e =>
    cases e with
    | compile e => exact Or.inr (.uncompiled e tells)
    | workspace e => exact Or.inr (.unplaced e tells)
    | process e =>
      rcases accounts_launched rfl accounts with once | ⟨state, early, failed⟩
      · exact Or.inr (.failed _ tells (launched_once once))
      · cases failed
        exact Or.inr (.endedEarly state tells early)
    | noActiveRun => exact tells.elim
    | runInProgress run => exact Or.inl ⟨run, rfl⟩

end

end StepFlow.Engine
