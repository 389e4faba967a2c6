import StepFlow.Proofs.Run.Course

/-!
How the state of a run is decided. It is one of the stopped states just when a stop or timeout has
been accepted. Otherwise it stays open until the accepted start has taken note of the end of its
process; then it is `error` or `success`, as a step has reported an error or not.
-/
namespace StepFlow.Run

def State.isStop : State → Bool
  | stopped => true
  | timeout => true
  | _ => false

/-- The state that a process leaves behind if nothing has stopped the run. -/
def Runner.verdict (r : Runner) : State := if r.stepFailed then .error else .success

section
variable {app : Option Json} {s s' : System} {ds : List Deed} {d : Deed} {i : Nat} {r : Runner}

theorem isStop_iff {state : State} : state.isStop = true ↔ state = .stopped ∨ state = .timeout := by
  cases state <;> simp [State.isStop]

theorem isStop_terminal {state : State} (stopped : state.isStop = true) :
    state.isTerminal = true := by
  rcases isStop_iff.mp stopped with rfl | rfl <;> rfl

theorem live_not_stop {state : State} (live : state.isTerminal = false) : state.isStop = false := by
  by_contra stopped
  simp [isStop_terminal (by simpa using stopped)] at live

theorem apply_live {a b : State} {action : Action} (allowed : a.apply action = some b) :
    a.isTerminal = false := by
  by_contra terminal
  simp [apply_terminal (by simpa using terminal)] at allowed

theorem apply_isStop {a b : State} {action : Action} (allowed : a.apply action = some b) :
    b.isStop = true ↔ action = .stop ∨ action = .timeout := by
  cases action with
  | exit failed => cases a <;> cases failed <;> cases allowed <;> simp [State.isStop]
  | _ => cases a <;> cases allowed <;> simp [State.isStop]

theorem takes_isStop {α : Type} {left : Section α} {action : Action} (takes : Takes r action left)
    (goesOn : action ≠ .stop ∧ action ≠ .timeout) :
    left.runner.state.isStop = r.state.isStop := by
  rcases takes with ⟨runner, _⟩ | ⟨next, allowed, runner, _⟩
  · rw [runner]
  · have running := apply_isStop allowed
    rw [runner, live_not_stop (apply_live allowed)]
    simpa [goesOn] using running

theorem step_isStop {now : Int} {phase : Phase} {m : Move}
    (made : phase.step app now r = some m) : m.runner.state.isStop = r.state.isStop := by
  cases phase with
  | begin =>
    cases made
    rw [after_runner]
    exact takes_isStop (move_takes r .start) ⟨by simp, by simp⟩
  | fail e =>
    cases made
    exact takes_isStop (move_takes r .spawnFailure) ⟨by simp, by simp⟩
  | finish =>
    simp only [Phase.step] at made
    split at made <;> cases made
    · rfl
    · have kept := takes_isStop (move_takes { r with attached := false } (.exit r.stepFailed))
        ⟨by simp, by simp⟩
      rw [after_runner]
      exact kept
  | attach =>
    simp only [Phase.step] at made
    split at made <;> cases made <;> rfl
  | announce | launch | lament | relay | conclude =>
    cases made
    rfl
  | spawning | reading | returned => cases made

theorem control_isStop (r : Runner) (c : Control) (deliver : Delivery) :
    (r.control c deliver).runner.state.isStop =
      (r.state.isStop || (Deed.control c (r.control c deliver)).stops) := by
  rcases control_takes r c deliver with ⟨runner, events⟩ | ⟨next, allowed, runner, events⟩
  · have refused : (Deed.control c (r.control c deliver)).stops = false := by
      cases c <;> simp [Deed.stops, events]
    simp [runner, refused]
  · have stopped := apply_isStop allowed
    rw [runner, live_not_stop (apply_live allowed)]
    cases c <;> simp_all [Deed.stops, Control.action]

theorem does_isStop (does : Does app s d s') :
    s'.runner.state.isStop = (s.runner.state.isStop || d.stops) := by
  cases does with
  | proceed i now m made => simp [step_isStop made, Deed.stops]
  | answer | dispose => simp [Deed.stops, Runner.dispose]
  | hear i waits said => simp [receive_state, Deed.stops]
  | control c deliver => exact control_isStop s.runner c deliver

/-- A run is stopped just when a stop or timeout was accepted. -/
theorem course_isStop (course : Course app {} ds s) :
    s.runner.state.isStop = ds.any Deed.stops := by
  induction course with
  | nil => rfl
  | snoc _ does ih => simp [does_isStop does, ih]

/-- Until its process has ended the accepted start finds the state open. -/
def Decided (r : Runner) (c : Call) : Prop :=
  match c.phase with
  | .conclude .. => c.refusal = none → r.state.isStop = true ∨ r.state = r.verdict
  | .returned _ => c.refusal = none → r.state.isStop = true ∨ r.state = r.verdict
  | _ => r.state ≠ .success ∧ r.state ≠ .error

theorem terminal_isStop {state : State} (decided : state ≠ .success ∧ state ≠ .error)
    (terminal : state.isTerminal = true) : state.isStop = true := by
  cases state <;> simp_all [State.isStop, State.isTerminal]

theorem attach_step {now : Int} {m : Move} (made : Phase.attach.step app now r = some m) :
    (r.state.isTerminal = true ∧ m = ⟨r, .reading, [], some .kill, false⟩) ∨
      (r.state.isTerminal = false ∧
        m = ⟨{ r with attached := true }, .reading, [], none, false⟩) := by
  simp only [Phase.step] at made
  split at made
  · rename_i terminal
    cases made
    exact Or.inl ⟨terminal, rfl⟩
  · rename_i live
    cases made
    exact Or.inr ⟨by simpa using live, rfl⟩

theorem finish_step {now : Int} {m : Move} (begun : r.state ≠ .initial)
    (made : Phase.finish.step app now r = some m) :
    (r.state.isTerminal = true ∧
        m = ⟨{ r with attached := false }, .conclude r.state (.ok r.state), [], none, false⟩) ∨
      (r.state.isTerminal = false ∧
        m = ⟨{ r with attached := false, state := r.verdict },
          .conclude r.verdict (.ok r.verdict), [.stateChanged r.verdict], none, false⟩) := by
  simp only [Phase.step] at made
  split at made
  · rename_i terminal
    cases made
    exact Or.inl ⟨terminal, rfl⟩
  · rename_i live
    have live : r.state.isTerminal = false := by simpa using live
    have allowed : r.state.apply (.exit r.stepFailed) = some r.verdict := by
      cases state : r.state <;> simp_all [State.apply, Runner.verdict, State.isTerminal]
    cases made
    exact Or.inr ⟨live, by simp [Runner.move, allowed, Phase.after]⟩

theorem decided_step {now : Int} {c : Call} {m : Move} (led : Led s c)
    (decided : Decided s.runner c) (made : c.phase.step app now s.runner = some m) :
    Decided m.runner (c.goOn m.phase) := by
  have knows := led.knows
  unfold Call.Knows at knows
  unfold Decided at decided
  cases phase : c.phase with
  | begin => simp [phase] at knows
  | announce | launch | lament | relay =>
    simp only [phase] at made decided
    cases made
    exact decided
  | fail e =>
    simp only [phase] at made knows
    cases made
    intro noRefusal
    simp [Call.goOn, knows] at noRefusal
  | attach =>
    simp only [phase] at made decided
    rcases attach_step made with ⟨_, rfl⟩ | ⟨_, rfl⟩ <;> exact decided
  | finish =>
    simp only [phase] at made decided
    rcases finish_step led.begun made with ⟨terminal, rfl⟩ | ⟨_, rfl⟩
    · exact fun _ => Or.inl (terminal_isStop decided terminal)
    · exact fun _ => Or.inr rfl
  | conclude last result =>
    simp only [phase] at made decided
    cases made
    exact decided
  | spawning | reading | returned =>
    rw [phase] at made
    cases made

theorem decided_control {c : Call} (led : Led s c) (decided : Decided s.runner c) (k : Control)
    (deliver : Delivery) : Decided (s.runner.control k deliver).runner c := by
  rcases control_takes s.runner k deliver with ⟨runner, _⟩ | ⟨next, allowed, runner, _⟩
  · rwa [runner]
  · have live := apply_live allowed
    have knows := led.knows
    have opens : next ≠ .success ∧ next ≠ .error := by
      cases state : s.runner.state <;> cases k <;> simp_all [Control.action, State.apply] <;>
        simp [← allowed]
    rw [runner]
    unfold Call.Knows at knows
    unfold Decided
    cases phase : c.phase with
    | conclude | returned => simp [phase, live] at knows
    | _ => exact opens

theorem lead_decided (course : Course app {} ds s) (lead : (s.calls i).accepted = true) :
    Decided s.runner (s.calls i) := by
  refine lead_induction (P := fun _ r c _ => Decided r c) ?_ ?_ course lead
  · intro ds s i _
    simp [Decided]
  · intro ds s i d r' c' events course lead decided turn
    have led := (sound_course sound_fresh course).led i lead
    cases turn with
    | proceed j now m made => exact decided_step led decided made
    | answer j waits result =>
      rw [Decided, waits] at decided
      cases result <;> exact decided
    | hear j waits said =>
      rw [Decided, waits, ← receive_state s.runner said] at decided
      cases said with
      | none => exact decided
      | some t => cases t <;> exact decided
    | control k deliver => exact decided_control led decided k deliver
    | away => exact decided
    | dispose => exact decided

end

end StepFlow.Run
