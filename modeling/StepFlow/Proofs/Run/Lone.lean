import StepFlow.Proofs.Run.Course

/-!
A run that a single call starts. A stop or timeout may come before the start; then the run has
ended already, the start is turned away, and the change of state is all that is ever reported. In
every other order the last thing reported is the end.
-/
namespace StepFlow.Run

inductive Unstarted (s : System) : Prop where
  | untouched (state : s.runner.state = .initial) (log : s.log = [])
      (calls : ∀ i, (s.calls i).phase = .begin)
  | ended (state : s.runner.state = .stopped ∨ s.runner.state = .timeout)
      (log : s.log = [.stateChanged s.runner.state])
      (calls : ∀ i, (s.calls i).phase = .begin ∨
        (s.calls i).phase = .returned (.error (.invalidTransition s.runner.state .start)))

section
variable {app : Option Json} {s s' : System}

theorem control_untouched {r : Runner} (c : Control) (deliver : Delivery)
    (initial : r.state = .initial) :
    ((r.control c deliver).runner = r ∧ (r.control c deliver).events = []) ∨
      ∃ state, (state = .stopped ∨ state = .timeout) ∧
        (r.control c deliver).runner = { r with state := state } ∧
        (r.control c deliver).events = [.stateChanged state] := by
  rcases control_takes r c deliver with unmoved | ⟨next, allowed, runner, events⟩
  · exact Or.inl unmoved
  · refine Or.inr ⟨next, ?_, runner, events⟩
    rw [initial] at allowed
    cases c <;> simp [Control.action, State.apply] at allowed <;> simp [allowed]

theorem unstarted_terminal {state : State} (ended : state = .stopped ∨ state = .timeout) :
    state.isTerminal = true := by
  rcases ended with rfl | rfl <;> rfl

theorem unstarted_control (unstarted : Unstarted s) (c : Control) (deliver : Delivery) :
    Unstarted { s with
      runner := (s.runner.control c deliver).runner
      log := s.log ++ (s.runner.control c deliver).events } := by
  cases unstarted with
  | untouched state log calls =>
    rcases control_untouched c deliver state with ⟨runner, events⟩ | ⟨next, ended, runner, events⟩
    · exact .untouched (by simp [runner, state]) (by simp [events, log]) calls
    · exact .ended (by simpa [runner] using ended) (by simp [events, log, runner])
        fun i => Or.inl (calls i)
  | ended state log calls =>
    have refused : s.runner.state.apply c.action = none := apply_terminal (unstarted_terminal state)
    rcases control_takes s.runner c deliver with ⟨runner, events⟩ | ⟨next, allowed, _⟩
    · exact .ended (by simpa [runner] using state) (by simp [events, log, runner])
        (by simpa only [runner] using calls)
    · simp [refused] at allowed

theorem unstarted_begin {now : Int} {m : Move} {i : Nat} (unstarted : Unstarted s)
    (made : (s.calls i).phase.step app now s.runner = some m)
    (refused : m.phase.isAnnounce = false) :
    Unstarted ⟨m.runner, Function.update s.calls i ((s.calls i).goOn m.phase), s.log ++ m.events,
      s.launches + m.launches.toNat⟩ := by
  cases unstarted with
  | untouched state log calls =>
    rw [calls i] at made
    rcases begin_step made with ⟨_, rfl⟩ | ⟨begun, _⟩
    · simp [acceptMove, Phase.isAnnounce] at refused
    · exact absurd state begun
  | ended state log calls =>
    rcases calls i with fresh | away
    · rw [fresh] at made
      rcases begin_step made with ⟨initial, _⟩ | ⟨_, rfl⟩
      · simp [initial] at state
      · refine .ended state (by simp [awayMove, log]) fun k => ?_
        by_cases own : k = i
        · subst own
          exact Or.inr (by simp [awayMove, Call.goOn])
        · simpa only [Function.update_of_ne own, awayMove] using calls k
    · rw [away] at made
      cases made

theorem unstarted_reaches (reached : Reaches app {} s)
    (none : ∀ i, (s.calls i).accepted = false) : Unstarted s := by
  induction reached with
  | refl => exact .untouched rfl rfl fun _ => rfl
  | @tail s s' before turn ih =>
    obtain ⟨d, does⟩ := turn_iff.mp turn
    have before_none : ∀ i, (s.calls i).accepted = false := by
      intro i
      by_contra lead
      have := accepted_does does (i := i) (by simpa using lead)
      simp [none i] at this
    have unstarted := ih before_none
    have sound := sound_reaches sound_fresh before
    cases turn with
    | proceed i now m made =>
      refine unstarted_begin unstarted made ?_
      have := none i
      simp only [Function.update_self, Call.goOn, Bool.or_eq_false_iff] at this
      exact this.2
    | answer i waits result =>
      have lead := waiting_leads sound (Or.inl waits)
      simp [before_none i] at lead
    | hear i waits said =>
      have lead := waiting_leads sound (Or.inr waits)
      simp [before_none i] at lead
    | control c deliver => exact unstarted_control unstarted c deliver
    | dispose =>
      cases unstarted with
      | untouched state log calls => exact .untouched state log calls
      | ended state log calls => exact .ended state log calls

/-- The run has been brought to `s` by one call that starts it, now at `phase`, and any others. -/
structure Lone (app : Option Json) (phase : Phase) (s : System) : Prop where
  reached : Reaches app {} s
  own : (s.calls 0).phase = phase
  others : ∀ k, k ≠ 0 → s.calls k = {}

theorem lone_fresh : Lone app .begin {} := ⟨.refl, rfl, fun _ _ => rfl⟩

variable {phase : Phase}

theorem lone_control (lone : Lone app phase s) (c : Control) (deliver : Delivery) :
    Lone app phase { s with
      runner := (s.runner.control c deliver).runner
      log := s.log ++ (s.runner.control c deliver).events } :=
  ⟨lone.reached.tail (.control c deliver), lone.own, lone.others⟩

theorem lone_dispose (lone : Lone app phase s) :
    Lone app phase { s with runner := s.runner.dispose } :=
  ⟨lone.reached.tail .dispose, lone.own, lone.others⟩

theorem lone_step {σ : Type} [World σ] {a : Attempt} {w : σ} {next : Stepped σ}
    (lone : Lone a.config.app a.phase s) (made : a.step? w s.runner = some next) :
    ∃ s', Lone next.attempt.config.app next.attempt.phase s' ∧ next.attempt.config = a.config ∧
      s'.runner = next.runner ∧ s'.log = s.log ++ next.events ∧
      s'.launches = s.launches + a.phase.isLaunch.toNat := by
  obtain ⟨s', turn, runner, own, log, config, others, launches⟩ := step?_turn made rfl lone.own
  refine ⟨s', ⟨?_, own, ?_⟩, config, runner, log, launches⟩
  · rw [config]
    exact lone.reached.tail turn
  · intro k other
    rw [others k other, lone.others k other]

theorem lone_led_or_away {result : Except ProcessError State}
    (lone : Lone app (.returned result) s) :
    Led s (s.calls 0) ∨
      ((s.runner.state = .stopped ∨ s.runner.state = .timeout) ∧
        s.log = [.stateChanged s.runner.state] ∧ s.launches = 0 ∧
        result = .error (.invalidTransition s.runner.state .start)) := by
  have sound := sound_reaches sound_fresh lone.reached
  by_cases lead : (s.calls 0).accepted = true
  · exact Or.inl (sound.led 0 lead)
  · have none : ∀ i, (s.calls i).accepted = false := by
      intro i
      by_cases own : i = 0
      · subst own
        simpa using lead
      · rw [lone.others i own]
    have vacant := sound.vacant none
    cases unstarted_reaches lone.reached none with
    | untouched state log calls =>
      have := calls 0
      rw [lone.own] at this
      cases this
    | ended state log calls =>
      refine Or.inr ⟨state, log, vacant.launches, ?_⟩
      rcases calls 0 with fresh | away
      · rw [lone.own] at fresh
        cases fresh
      · rw [lone.own] at away
        cases away
        rfl

theorem lone_returned {result : Except ProcessError State}
    (lone : Lone app (.returned result) s) :
    s.runner.state.isTerminal = true ∧
      ((∃ before time app', s.log = before ++ [.runEnded time s.runner.state app']) ∨
      ((s.runner.state = .stopped ∨ s.runner.state = .timeout) ∧
        s.log = [.stateChanged s.runner.state] ∧ s.launches = 0 ∧
        result = .error (.invalidTransition s.runner.state .start))) := by
  rcases lone_led_or_away lone with led | away
  · have closed := led.progress
    rw [lone.own] at closed
    obtain ⟨before, time, app', log, _⟩ := closed_ends closed
    exact ⟨returned_terminal led.knows lone.own, Or.inl ⟨before, time, app', log⟩⟩
  · exact ⟨unstarted_terminal away.1, Or.inr away⟩

theorem lone_launched {result : Except ProcessError State}
    (lone : Lone app (.returned result) s) :
    s.launches = 1 ∨
      ((s.runner.state = .stopped ∨ s.runner.state = .timeout) ∧ s.launches = 0 ∧
        result = .error (.invalidTransition s.runner.state .start)) := by
  rcases lone_led_or_away lone with led | ⟨early, _, unlaunched, away⟩
  · have asked := led.launches
    rw [lone.own] at asked
    exact Or.inl asked
  · exact Or.inr ⟨early, unlaunched, away⟩

theorem lone_waiting (lone : Lone app phase s) (waits : phase = .spawning ∨ phase = .reading) :
    s.launches = 1 := by
  have sound := sound_reaches sound_fresh lone.reached
  have lead : (s.calls 0).accepted = true := waiting_leads sound (by rwa [lone.own])
  rw [(sound.led 0 lead).launches, lone.own]
  rcases waits with rfl | rfl <;> rfl

theorem control_terminal {r : Runner} (ended : r.state.isTerminal = true) (c : Control)
    (deliver : Delivery) :
    r.control c deliver = ⟨r, [], none, .error (.invalidTransition r.state c.action)⟩ := by
  have refused : ∀ action, r.state.apply action = none := fun action => apply_terminal ended
  cases c <;> simp [Runner.control, Runner.signalThenMove, Runner.moveThenKill, Runner.move,
    Control.action, refused]

end

end StepFlow.Run
