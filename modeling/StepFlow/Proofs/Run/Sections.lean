import StepFlow.Proofs.Run.Log
import StepFlow.Run.Runner

/-!
What the sections of the calls on a run do. Each changes the state by at most one allowed action and
reports just that; the actions that end a run are allowed wherever they are taken.
-/
namespace StepFlow.Run

section
variable {a b : State} {action : Action} {r : Runner}

theorem apply_terminal (terminal : a.isTerminal = true) : a.apply action = none := by
  cases a <;> cases action <;> first | rfl | cases terminal

theorem apply_not_initial (allowed : a.apply action = some b) : b ≠ .initial := by
  rintro rfl
  cases a <;> cases action <;> simp [State.apply] at allowed
  all_goals split at allowed <;> cases allowed

theorem terminal_not_initial {state : State} (ended : state.isTerminal = true) :
    state ≠ .initial := by
  rintro rfl
  cases ended

/-- The section takes the action, reporting where it leads, or changes and reports nothing. -/
def Takes {α : Type} (r : Runner) (action : Action) (s : Section α) : Prop :=
  (s.runner = r ∧ s.events = []) ∨
  ∃ next, r.state.apply action = some next ∧ s.runner = { r with state := next } ∧
    s.events = [.stateChanged next]

theorem takes_tells {α : Type} {s : Section α} (takes : Takes r action s) :
    Tells r.state s.events s.runner.state := by
  rcases takes with ⟨runner, events⟩ | ⟨next, allowed, runner, events⟩
  · rw [runner, events]
    exact tells_nil
  · rw [runner, events]
    exact Or.inr ⟨action, allowed, rfl⟩

theorem move_refused (refused : r.state.apply action = none) :
    r.move action = ⟨r, [], none, .error (.invalidTransition r.state action)⟩ := by
  simp [Runner.move, refused]

theorem move_allowed {next : State} (allowed : r.state.apply action = some next) :
    r.move action = ⟨{ r with state := next }, [.stateChanged next], none, .ok ()⟩ := by
  simp [Runner.move, allowed]

theorem move_takes (r : Runner) (action : Action) : Takes r action (r.move action) := by
  cases allowed : r.state.apply action with
  | none =>
    rw [move_refused allowed]
    exact Or.inl ⟨rfl, rfl⟩
  | some next =>
    rw [move_allowed allowed]
    exact Or.inr ⟨next, allowed, rfl, rfl⟩

theorem signalThenMove_takes (r : Runner) (action : Action) (signal : Signal)
    (deliver : Delivery) : Takes r action (r.signalThenMove action signal deliver) := by
  unfold Runner.signalThenMove
  cases allowed : r.state.apply action with
  | none => exact Or.inl ⟨rfl, rfl⟩
  | some next =>
    cases r.attached with
    | false => exact Or.inl ⟨rfl, rfl⟩
    | true =>
      cases deliver signal with
      | some e => exact Or.inl ⟨rfl, rfl⟩
      | none => exact move_takes r action

theorem moveThenKill_takes (r : Runner) (action : Action) (deliver : Delivery) :
    Takes r action (r.moveThenKill action deliver) := by
  have moved := move_takes r action
  simp only [Runner.moveThenKill]
  split
  · exact moved
  · cases r.attached with
    | false => exact moved
    | true => exact moved

theorem control_takes (r : Runner) (c : Control) (deliver : Delivery) :
    Takes r c.action (r.control c deliver) := by
  cases c with
  | pause => exact signalThenMove_takes r .pause .pause deliver
  | resume => exact signalThenMove_takes r .resume .resume deliver
  | stop => exact moveThenKill_takes r .stop deliver
  | timeout => exact moveThenKill_takes r .timeout deliver

theorem pause_attached (r : Runner) (deliver : Delivery)
    (paused : (r.control .pause deliver).events ≠ []) : r.attached = true := by
  cases attached : r.attached with
  | true => rfl
  | false =>
    refine absurd ?_ paused
    unfold Runner.control Runner.signalThenMove
    cases r.state.apply .pause with
    | none => rfl
    | some next => simp [attached]

theorem reported_move {log : List Event} (reported : readLog log = some .reported) (r : Runner)
    (action : Action) : readLog (log ++ (r.move action).events) = some .reported := by
  rcases move_takes r action with ⟨_, events⟩ | ⟨next, _, _, events⟩
  · rw [events, List.append_nil]
    exact reported
  · rw [events]
    exact readLog_next reported rfl

theorem spawnFailure_ends {r : Runner} (begun : r.state ≠ .initial)
    (notPaused : r.state ≠ .paused) :
    (r.move .spawnFailure).runner.state.isTerminal = true := by
  unfold Runner.move
  cases state : r.state <;> simp_all [State.apply, State.isTerminal]

theorem exit_ends {r : Runner} (failed : Bool) (begun : r.state ≠ .initial)
    (live : r.state.isTerminal = false) :
    (r.move (.exit failed)).result = .ok () ∧
      (r.move (.exit failed)).runner.state.isTerminal = true := by
  unfold Runner.move
  cases state : r.state <;> cases failed <;> simp_all [State.apply, State.isTerminal]

end

section
variable (s : Section (Except ProcessError Unit)) (next : Phase)

theorem after_runner : (Phase.after s next).runner = s.runner := by
  unfold Phase.after
  split <;> rfl

theorem after_events : (Phase.after s next).events = s.events := by
  unfold Phase.after
  split <;> rfl

end

theorem step_tells {app : Option Json} {now : Int} {r : Runner} {phase : Phase} {m : Move}
    (made : phase.step app now r = some m) : Tells r.state m.events m.runner.state := by
  cases phase with
  | begin =>
    cases made
    rw [after_runner, after_events]
    exact takes_tells (move_takes r .start)
  | announce | launch | lament =>
    cases made
    exact Or.inl ⟨rfl, rfl⟩
  | relay line =>
    cases made
    cases line <;> exact Or.inl ⟨rfl, rfl⟩
  | fail e =>
    cases made
    exact takes_tells (move_takes r .spawnFailure)
  | attach =>
    simp only [Phase.step] at made
    split at made <;> cases made <;> exact tells_nil
  | finish =>
    simp only [Phase.step] at made
    split at made
    · cases made
      exact tells_nil
    · cases made
      have told := takes_tells (move_takes { r with attached := false } (.exit r.stepFailed))
      rw [after_runner, after_events]
      exact told
  | conclude =>
    cases made
    exact Or.inl ⟨rfl, rfl⟩
  | spawning | reading | returned => cases made

theorem receive_quiet (r : Runner) (said : Option Transport) :
    (Phase.receive r said).events = [] := by
  cases said with
  | none => rfl
  | some t => cases t <;> rfl

theorem receive_state (r : Runner) (said : Option Transport) :
    (Phase.receive r said).runner.state = r.state := by
  cases said with
  | none => rfl
  | some t => cases t <;> rfl

end StepFlow.Run
