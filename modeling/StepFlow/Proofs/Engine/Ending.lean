import StepFlow.Proofs.Compile.Pass
import StepFlow.Proofs.Engine.Interleaving
import StepFlow.Run.Stage

/-!
How runs end. When a call has returned, its run was never seen or was seen to end, with one
exception: control calls and the time limit reach the runner as soon as it has been installed, and
one of them can end the run before it is started. The start is turned away then, and the one event
of the run is that change of state.
-/
namespace StepFlow.Engine
open Run

section
variable {σ : Type} [World σ] {config : Config} {s : System σ} {i : Nat}

theorem returned_accounts {result : Except Error Outcome} {v : View}
    (accounts : (Phase.returned result).Accounts v) :
    ((Phase.returned result).stage? = none ∧ v.log = [] ∧ v.launches = 0) ∨
      ∃ app s ended, Lone app (.returned ended) s ∧ View.of s = v ∧
        ∀ e, ended = .error e → result = .error (.process e) := by
  cases result with
  | ok outcome =>
    obtain ⟨app, s, _, lone, view⟩ := accounts
    exact Or.inr ⟨app, s, _, lone, view, fun e failed => by cases failed⟩
  | error e =>
    cases e with
    | process e =>
      obtain ⟨app, s, _, lone, view⟩ := accounts
      exact Or.inr ⟨app, s, _, lone, view, fun e' failed => by cases failed; rfl⟩
    | compile | workspace | noActiveRun | runInProgress => exact Or.inl ⟨rfl, accounts⟩

theorem gone_ended (sound : Sound s) (equipped : (s.calls i).phase.equipped = true)
    (gone : (s.calls i).phase.holds = false) :
    (s.shared.runner (s.calls i).run).state.isTerminal = true := by
  have accounts := sound.accounts i
  cases phase : (s.calls i).phase with
  | returned result =>
    rw [phase] at accounts equipped
    rcases returned_accounts accounts with ⟨none, _⟩ | ⟨app, s', ended, lone, view, _⟩
    · simp [Phase.equipped, none] at equipped
    · have runner : s'.runner = s.shared.runner (s.calls i).run := congrArg View.runner view
      exact runner ▸ (lone_returned lone).1
  | reserve =>
    rw [phase] at equipped
    cases equipped
  | _ =>
    rw [phase] at gone
    cases gone

end

section

def runName (n : Nat) : String := String.ofList (List.replicate (n + 1) 'r')

theorem runName_injective : Function.Injective runName := by
  intro m n same
  simpa [runName] using congrArg (fun name => name.toList.length) same

def emptyFlow : Request := { app := "demo", nodes := [] }

def emptyProgram : Compile.Program :=
  ⟨Script.printScript (Compile.script ⟨[], []⟩ []), ⟨[], []⟩⟩

def plain : Config := { workspaceRoot := "apps", groupRoot := "groups" }

theorem emptyFlow_compiles : Compile.compile plain.groupRoot emptyFlow.nodes = .ok emptyProgram :=
  Compile.compile_ok_iff.mpr ⟨_, _, Compile.compileList_ok_iff.mpr ⟨_, .nil _ _, rfl⟩, rfl⟩

theorem emptyProgram_placed : ∃ files,
    Workspace.materialize {} plain.workspaceRoot emptyFlow.app emptyProgram =
      (files, .ok "apps/demo") := by
  have placed : (Workspace.materialize {} plain.workspaceRoot emptyFlow.app
      emptyProgram).2.toOption = some "apps/demo" := by decide +kernel
  generalize Workspace.materialize {} plain.workspaceRoot emptyFlow.app emptyProgram = p at placed ⊢
  obtain ⟨files, result⟩ := p
  cases result <;> cases placed
  exact ⟨files, rfl⟩

def begun (w : Stage) (phase : Phase) (shared : Shared) (log : List PublishedEvent)
    (launched : List String) : System Stage :=
  { fresh w runName fun _ => emptyFlow with
    calls := Function.update (fresh w runName fun _ => emptyFlow).calls 0
      ⟨runName 0, emptyFlow, phase⟩
    shared, log, launched }

def equipped (r : Runner) : Shared := ⟨some ⟨runName 0, "demo", some (runName 0)⟩, [(runName 0, r)]⟩

variable {w w' : Stage} {phase next : Phase} {shared shared' : Shared} {r : Runner}
variable {log events : List PublishedEvent} {launched : List String} {order : Option LimitOrder}

theorem begun_step (made : (⟨runName 0, emptyFlow, phase⟩ : Call).step? plain w shared =
      some ⟨⟨runName 0, emptyFlow, next⟩, w', shared', events, order⟩)
    (unlimited : Timer.obey .off order = .off) :
    Move plain (begun w phase shared log launched) (begun w' next shared' (log ++ events)
      (launched ++ if phase.isLaunch then [runName 0] else [])) := by
  have move : Move plain (begun w phase shared log launched) _ := .proceed 0 _ made
  have left : (begun w phase shared log launched).goOn 0
      ⟨⟨runName 0, emptyFlow, next⟩, w', shared', events, order⟩ =
      begun w' next shared' (log ++ events)
        (launched ++ if phase.isLaunch then [runName 0] else []) := by
    simp [System.goOn, begun, fresh, unlimited]
  rwa [left] at move

theorem begun_quiet (made : (⟨runName 0, emptyFlow, phase⟩ : Call).step? plain w shared =
      some ⟨⟨runName 0, emptyFlow, next⟩, w', shared', [], order⟩)
    (unlimited : Timer.obey .off order = .off) (quiet : phase.isLaunch = false) :
    Move plain (begun w phase shared log launched) (begun w' next shared' log launched) := by
  have move : Move plain (begun w phase shared log launched) _ := begun_step made unlimited
  simpa [quiet] using move

theorem equipped_runner : (equipped r).runner (runName 0) = r := by
  simp [equipped, Shared.runner]

theorem equipped_setRunner (r' : Runner) :
    (equipped r).setRunner (runName 0) r' = equipped r' := by
  simp [equipped, Shared.setRunner]

theorem compile_step : (⟨runName 0, emptyFlow, .compile⟩ : Call).step? plain w shared =
    some ⟨⟨runName 0, emptyFlow, .place emptyProgram⟩, w, shared, [], none⟩ := by
  simp only [Call.step?, emptyFlow_compiles]

theorem place_step {files : Workspace.FileTree}
    (placed : Workspace.materialize {} plain.workspaceRoot emptyFlow.app emptyProgram =
      (files, .ok "apps/demo")) :
    (⟨runName 0, emptyFlow, .place emptyProgram⟩ : Call).step? plain ({} : Stage) shared =
      some ⟨⟨runName 0, emptyFlow, .describe "apps/demo"⟩, World.putFiles files {}, shared, [],
        none⟩ := by
  have start : World.files ({} : Stage) = {} := rfl
  simp only [Call.step?, start, placed]

theorem begun_installed : ∃ w run, Reaches plain (fresh {} runName fun _ => emptyFlow)
    (begun w (.limit run) (equipped {}) [] []) := by
  obtain ⟨files, placed⟩ := emptyProgram_placed
  have same : Function.update (fresh ({} : Stage) runName fun _ => emptyFlow).calls 0
      ⟨runName 0, emptyFlow, .reserve⟩ = (fresh ({} : Stage) runName fun _ => emptyFlow).calls :=
    Function.update_eq_self 0 _
  have start : begun {} .reserve {} [] [] = fresh ({} : Stage) runName fun _ => emptyFlow := by
    rw [begun, same]
    rfl
  have reserved : Reaches plain (begun {} .reserve {} [] []) _ :=
    .tail .refl (begun_quiet rfl rfl rfl)
  have compiled := reserved.tail (begun_quiet compile_step rfl rfl)
  have installing := compiled.tail (begun_quiet (place_step placed) rfl rfl)
  have described := installing.tail (begun_quiet rfl rfl rfl)
  have installed := described.tail (begun_quiet rfl rfl rfl)
  exact ⟨_, _, start ▸ installed⟩

theorem begun_stopped :
    Reaches plain (begun w phase (equipped {}) log launched)
      (begun w phase (equipped { state := .stopped })
        (log ++ [⟨"demo", runName 0, .stateChanged .stopped⟩]) launched) := by
  have looked : Reaches plain (begun w phase (equipped {}) log launched) _ :=
    .tail .refl (.look 0)
  have stopped := looked.tail (.act 0 .stop)
  refine Eq.subst ?_ stopped
  simp [System.act, System.reach, begun, fresh, equipped, Shared.runner, Shared.setRunner,
    Runner.controlIn, Runner.control, Runner.moveThenKill, Runner.move, State.apply, issue]

theorem begun_run {attempt : Attempt} {moved : Run.Stepped Stage}
    (made : attempt.step? w r = some moved)
    (ongoing : ∀ result, attempt.phase ≠ .returned result) :
    Move plain (begun w (.running attempt) (equipped r) log launched)
      (begun moved.world (.running moved.attempt) (equipped moved.runner)
        (log ++ moved.events.map fun e => ⟨"demo", runName 0, e⟩)
        (launched ++ if attempt.phase.isLaunch then [runName 0] else [])) := by
  have stepped : (⟨runName 0, emptyFlow, .running attempt⟩ : Call).step? plain w (equipped r) =
      some ⟨⟨runName 0, emptyFlow, .running moved.attempt⟩, moved.world, equipped moved.runner,
        moved.events.map fun e => ⟨"demo", runName 0, e⟩, none⟩ := by
    simp only [Call.step?, equipped_runner, made, equipped_setRunner]
    rfl
  exact begun_step stepped rfl

theorem begun_failed {start : System Stage} {attempt : Attempt} {e : ProcessError}
    (reached : Reaches plain start (begun w (.running attempt) (equipped r) log launched))
    (ended : attempt.phase = .returned (.error e)) :
    ∃ s', Reaches plain start s' ∧
      s'.calls 0 = ⟨runName 0, emptyFlow, .returned (.error (.process e))⟩ ∧ s'.log = log := by
  have unlimiting := reached.tail (begun_quiet (by simp only [Call.step?, ended]; rfl) rfl
    (by rw [Phase.isLaunch, ended]; rfl))
  have disposing := unlimiting.tail (begun_quiet rfl rfl rfl)
  have released := disposing.tail (begun_quiet rfl rfl rfl)
  have returned := released.tail (begun_quiet rfl rfl rfl)
  refine ⟨_, returned, ?_, rfl⟩
  simp [begun]

end

section
variable {σ : Type} [World σ] {config : Config} {s : System σ} {i : Nat}

def SeenToEnd (log : List Event) : Prop :=
  ∃ (before : List Event) (time : Int) (state : State) (app : Option Json),
    state.isTerminal = true ∧ log = before ++ [.runEnded time state app]

/-- However the calls are interleaved with control calls and time limits: when a call has returned
and its run was seen at all, the last event of the run is its end, in a final state. Only a run that
was ended before it was started is not seen to end: its start has failed for that, no process has
been asked for, and it is seen to be ended by that one event. -/
theorem seen_runs_end {w : σ} {names : Nat → String} {requests : Nat → Request}
    {result : Except Error Outcome} (distinct : Function.Injective names)
    (reached : Reaches config (fresh w names requests) s)
    (returned : (s.calls i).phase = .returned result)
    (seen : eventsOf (s.calls i).run s.log ≠ []) :
    SeenToEnd (eventsOf (s.calls i).run s.log) ∨
    ∃ state : State, (state = .stopped ∨ state = .timeout) ∧
      eventsOf (s.calls i).run s.log = [.stateChanged state] ∧
      (s.calls i).run ∉ s.launched ∧
      result = .error (.process (.invalidTransition state .start)) := by
  have accounts := (sound_reaches (sound_fresh distinct) reached).accounts i
  rw [returned] at accounts
  rcases returned_accounts accounts with ⟨_, unseen, _⟩ | ⟨app, s', ended, lone, view, failed⟩
  · exact absurd unseen seen
  · obtain ⟨_, log, launches⟩ := View.mk.inj view
    obtain ⟨terminal, ⟨before, time, app', last⟩ | ⟨early, only, unlaunched, away⟩⟩ :=
      lone_returned lone
    · exact Or.inl ⟨before, time, s'.runner.state, app', terminal, log.symm.trans last⟩
    · refine Or.inr ⟨s'.runner.state, early, log.symm.trans only, ?_, failed _ away⟩
      rw [← List.count_eq_zero]
      exact launches.symm.trans unlaunched

end

/-- A run for which there is no process is seen to end. -/
theorem unspawned_seen_to_end : ∃ s,
    Reaches plain (fresh ({} : Stage) runName fun _ => emptyFlow) s ∧
    (s.calls 0).phase = .returned (.error (.process (.spawn "interpreter not found"))) ∧
    eventsOf (s.calls 0).run s.log ≠ [] ∧
    (SeenToEnd (eventsOf (s.calls 0).run s.log) ∨
    ∃ state : State, (state = .stopped ∨ state = .timeout) ∧
      eventsOf (s.calls 0).run s.log = [.stateChanged state] ∧
      (s.calls 0).run ∉ s.launched ∧
      Except.error (.process (.spawn "interpreter not found")) =
        (.error (.process (.invalidTransition state .start)) : Except Error Outcome)) := by
  obtain ⟨w, run, installed⟩ := begun_installed
  have limited := installed.tail (begun_quiet rfl rfl rfl)
  have accepted := limited.tail (begun_run rfl fun _ ended => by cases ended)
  have announced := accepted.tail (begun_run rfl fun _ ended => by cases ended)
  have launched := announced.tail (begun_run rfl fun _ ended => by cases ended)
  have unlucky := launched.tail (.drift { script := { spawning := { fails := true } } })
  have refused := unlucky.tail (begun_run rfl fun _ ended => by cases ended)
  have lamented := refused.tail (begun_run rfl fun _ ended => by cases ended)
  have failed := lamented.tail (begun_run rfl fun _ ended => by cases ended)
  have concluded := failed.tail (begun_run rfl fun _ ended => by cases ended)
  obtain ⟨s, reached, call, log⟩ := begun_failed concluded rfl
  have returned : (s.calls 0).phase =
      .returned (.error (.process (.spawn "interpreter not found"))) := by rw [call]
  have seen : eventsOf (s.calls 0).run s.log ≠ [] := by simp [call, log, eventsOf]
  exact ⟨s, reached, returned, seen, seen_runs_end runName_injective reached returned seen⟩

/-- Not every run that was seen is seen to end: this one is stopped before it is started. -/
theorem stopped_early_not_seen_to_end : ¬ ∀ (s : System Stage) (result : Except Error Outcome),
    Reaches plain (fresh {} runName fun _ => emptyFlow) s →
    (s.calls 0).phase = .returned result → eventsOf (s.calls 0).run s.log ≠ [] →
    SeenToEnd (eventsOf (s.calls 0).run s.log) := by
  intro ends
  obtain ⟨w, run, installed⟩ := begun_installed
  have stopped : Reaches plain (begun w (.limit run) (equipped {}) [] []) _ := begun_stopped
  have limited := (installed.trans stopped).tail (begun_quiet rfl rfl rfl)
  have away := limited.tail (begun_run rfl fun _ ended => by cases ended)
  obtain ⟨s, reached, call, log⟩ := begun_failed away rfl
  have only : eventsOf (s.calls 0).run s.log = [.stateChanged .stopped] := by
    simp [call, log, eventsOf, Runner.move, State.apply, Phase.after]
  obtain ⟨before, time, state, app, _, last⟩ := ends s _ reached (by rw [call]) (by simp [only])
  rw [only] at last
  cases before <;> simp at last

end StepFlow.Engine
