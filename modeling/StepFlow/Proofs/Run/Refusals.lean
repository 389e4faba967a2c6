import StepFlow.Proofs.Run.Lone

/-!
Control calls that fail. A pause or resume signals first and changes the state once the signal is
delivered, so it can fail without a trace. A stop or timeout changes the state first: if it is not
allowed it leaves no trace either, but if its kill cannot be delivered the run has ended all the
same, and no further call is allowed on it.
-/
namespace StepFlow.Run

def System.controlled (s : System) (c : Control) (deliver : Delivery) : System :=
  { s with
    runner := (s.runner.control c deliver).runner
    log := s.log ++ (s.runner.control c deliver).events }

def Control.ending? : Control → Option State
  | pause => none
  | resume => none
  | stop => some .stopped
  | timeout => some .timeout

section
variable {r : Runner} {c : Control} {deliver : Delivery} {next : State}

theorem signalThenMove_cases (r : Runner) (action : Action) (signal : Signal)
    (deliver : Delivery) :
    (∃ issued e, (∀ sent, issued = some sent → deliver sent = some e) ∧
        r.signalThenMove action signal deliver = ⟨r, [], issued, .error e⟩) ∨
      ∃ next, r.state.apply action = some next ∧ r.attached = true ∧ deliver signal = none ∧
        r.signalThenMove action signal deliver =
          ⟨{ r with state := next }, [.stateChanged next], some signal, .ok ()⟩ := by
  unfold Runner.signalThenMove
  cases allowed : r.state.apply action with
  | none => exact Or.inl ⟨none, _, by simp, rfl⟩
  | some next =>
    cases attached : r.attached with
    | false => exact Or.inl ⟨none, _, by simp, rfl⟩
    | true =>
      cases told : deliver signal with
      | some e => exact Or.inl ⟨some signal, e, by simp [told], rfl⟩
      | none => exact Or.inr ⟨next, rfl, rfl, rfl, by simp [move_allowed allowed, attached]⟩

theorem ending_terminal (ends : c.ending? = some next) : next.isTerminal = true := by
  cases c <;> cases ends <;> rfl

theorem ending_allowed (ends : c.ending? = some next) (live : r.state.isTerminal = false) :
    r.state.apply c.action = some next := by
  cases c <;> cases ends <;> cases state : r.state <;> simp_all [State.isTerminal] <;> rfl

theorem ending_control (ends : c.ending? = some next) (live : r.state.isTerminal = false) :
    r.control c deliver = ⟨{ r with state := next }, [.stateChanged next],
      if r.attached then some .kill else none,
      match r.attached, deliver .kill with
      | true, some e => .error e
      | _, _ => .ok ()⟩ := by
  have allowed := ending_allowed ends live
  have killed : r.moveThenKill c.action deliver = ⟨{ r with state := next }, [.stateChanged next],
      if r.attached then some .kill else none,
      match r.attached, deliver .kill with
      | true, some e => .error e
      | _, _ => .ok ()⟩ := by
    unfold Runner.moveThenKill
    cases attached : r.attached with
    | false => simp [move_allowed allowed, attached]
    | true => cases deliver .kill <;> simp [move_allowed allowed, attached]
  cases c with
  | pause | resume => cases ends
  | stop | timeout => exact killed

theorem goingOn_refused (goesOn : c.ending? = none) {e : ProcessError}
    (failed : (r.control c deliver).result = .error e) :
    (r.control c deliver).runner = r ∧ (r.control c deliver).events = [] := by
  have kept : ∀ action signal, (r.signalThenMove action signal deliver).result = .error e →
      (r.signalThenMove action signal deliver).runner = r ∧
        (r.signalThenMove action signal deliver).events = [] := by
    intro action signal refused
    rcases signalThenMove_cases r action signal deliver with
      ⟨_, _, _, left⟩ | ⟨_, _, _, _, left⟩
    · rw [left]
      exact ⟨rfl, rfl⟩
    · rw [left] at refused
      cases refused
  cases c with
  | pause => exact kept _ _ failed
  | resume => exact kept _ _ failed
  | stop | timeout => cases goesOn

theorem ending_refused (ends : c.ending? = some next) (live : r.state.isTerminal = false)
    {e : ProcessError} (failed : (r.control c deliver).result = .error e) :
    r.attached = true ∧ deliver .kill = some e := by
  rw [ending_control ends live] at failed
  cases attached : r.attached with
  | false => simp [attached] at failed
  | true =>
    cases killed : deliver .kill with
    | none => simp [attached, killed] at failed
    | some e' =>
      simp only [attached, killed, Except.error.injEq] at failed
      exact ⟨rfl, congrArg some failed⟩

theorem controlled_same {s : System} (runner : (s.runner.control c deliver).runner = s.runner)
    (events : (s.runner.control c deliver).events = []) : s.controlled c deliver = s := by
  simp [System.controlled, runner, events]

/-- A control call that fails leaves no trace, unless it is a stop or timeout that is allowed: then
its kill has not been delivered, and the run has ended with its process alive and no call left that
could reach it. -/
theorem failed_control_keeps_iff (s : System) (c : Control) (deliver : Delivery)
    {e : ProcessError} (failed : (s.runner.control c deliver).result = .error e) :
    (s.controlled c deliver = s ↔ c.ending? = none ∨ s.runner.state.isTerminal = true) ∧
      ∀ next, c.ending? = some next → s.runner.state.isTerminal = false →
        s.runner.attached = true ∧ deliver .kill = some e ∧
          s.controlled c deliver = { s with
            runner := { s.runner with state := next }
            log := s.log ++ [.stateChanged next] } ∧
          ∀ again fate, ((s.controlled c deliver).runner.control again fate).result =
            .error (.invalidTransition next again.action) := by
  have ended : ∀ next, c.ending? = some next → s.runner.state.isTerminal = false →
      s.controlled c deliver = { s with
        runner := { s.runner with state := next }
        log := s.log ++ [.stateChanged next] } := by
    intro next ends live
    simp [System.controlled, ending_control ends live]
  refine ⟨⟨?_, ?_⟩, ?_⟩
  · intro same
    cases ends : c.ending? with
    | none => exact Or.inl rfl
    | some next =>
      refine Or.inr ?_
      by_contra live
      have log := congrArg System.log ((ended next ends (by simpa using live)).symm.trans same)
      simp at log
  · rintro (goesOn | terminal)
    · obtain ⟨runner, events⟩ := goingOn_refused goesOn failed
      exact controlled_same runner events
    · have refused := control_terminal terminal c deliver
      exact controlled_same (by rw [refused]) (by rw [refused])
  · intro next ends live
    obtain ⟨attached, killed⟩ := ending_refused ends live failed
    refine ⟨attached, killed, ended next ends live, fun again fate => ?_⟩
    rw [ended next ends live, control_terminal (ending_terminal ends)]

def deafTo (signal : Signal) : Option ProcessError := some (.signal signal 4242 "no such process")

theorem attached_reached : ∃ s, Reaches none {} s ∧ s.runner = ⟨.running, true, false⟩ := by
  have accepted : Course none {} _ _ := Course.nil.snoc (.proceed 0 0 _ rfl)
  have announced := accepted.snoc (.proceed 0 0 _ rfl)
  have launched := announced.snoc (.proceed 0 0 _ rfl)
  have answered := launched.snoc (.answer 0 rfl (.ok ()))
  have attached := answered.snoc (.proceed 0 0 _ rfl)
  exact ⟨_, reaches_iff.mpr ⟨_, attached⟩, rfl⟩

theorem deaf_pause_keeps : ∃ s, Reaches none {} s ∧
    (s.runner.control .pause deafTo).result = .error (.signal .pause 4242 "no such process") ∧
    s.controlled .pause deafTo = s := by
  obtain ⟨s, reached, runner⟩ := attached_reached
  have failed : (s.runner.control .pause deafTo).result =
      .error (.signal .pause 4242 "no such process") := by
    rw [runner]
    rfl
  exact ⟨s, reached, failed, (failed_control_keeps_iff s .pause deafTo failed).1.mpr (Or.inl rfl)⟩

theorem deaf_stop_ends : ¬ ∀ s, Reaches none {} s → ∀ (c : Control) (deliver : Delivery) e,
    (s.runner.control c deliver).result = .error e →
      (s.controlled c deliver).runner.state = s.runner.state ∧
      (s.controlled c deliver).runner.attached = s.runner.attached ∧
      (s.controlled c deliver).log = s.log := by
  intro kept
  obtain ⟨s, reached, runner⟩ := attached_reached
  have same := (kept s reached .stop deafTo (.signal .kill 4242 "no such process")
    (by rw [runner]; rfl)).1
  simp only [System.controlled, runner] at same
  cases same

end

end StepFlow.Run
