import Mathlib.Logic.Function.Basic
import StepFlow.Proofs.Run.Sections

/-!
All the calls on one run, in any order. Calls that start it are numbered, and each is as far as its
phase says; a turn is one section or one report of any of them, or a control call, or an answer of
the process. At most one start is accepted. Until then nothing but changes of state is reported;
from then on the phase of that call tells how far the log has come, and what the shared state and
the process can be. That is kept by every turn, whatever the process answers.
-/
namespace StepFlow.Run

structure Call where
  phase : Phase := .begin
  accepted : Bool := false
  refusal : Option ProcessError := none

structure System where
  runner : Runner := {}
  calls : Nat → Call := fun _ => {}
  log : List Event := []
  launches : Nat := 0

def Phase.isAnnounce : Phase → Bool
  | announce => true
  | _ => false

def Call.goOn (c : Call) (phase : Phase) : Call :=
  { c with phase := phase, accepted := c.accepted || phase.isAnnounce }

def Call.answered (c : Call) : Except ProcessError Unit → Call
  | .ok () => { c with phase := .spawned (.ok ()) }
  | .error e => { c with phase := .spawned (.error e), refusal := some e }

inductive Turn (app : Option Json) (s : System) : System → Prop where
  | proceed (i : Nat) (now : Int) (m : Move)
      (made : (s.calls i).phase.step app now s.runner = some m) :
      Turn app s ⟨m.runner, Function.update s.calls i ((s.calls i).goOn m.phase),
        s.log ++ m.events, s.launches + m.launches.toNat⟩
  | answer (i : Nat) (waits : (s.calls i).phase = .spawning)
      (result : Except ProcessError Unit) :
      Turn app s { s with
        calls := Function.update s.calls i ((s.calls i).answered result) }
  | hear (i : Nat) (waits : (s.calls i).phase = .reading) (said : Option Transport) :
      Turn app s ⟨(Phase.receive s.runner said).runner,
        Function.update s.calls i ((s.calls i).goOn (Phase.receive s.runner said).phase),
        s.log ++ (Phase.receive s.runner said).events, s.launches⟩
  | control (c : Control) (deliver : Delivery) :
      Turn app s { s with
        runner := (s.runner.control c deliver).runner
        log := s.log ++ (s.runner.control c deliver).events }
  | dispose : Turn app s { s with runner := s.runner.dispose }

/-- What has been reported when the accepted start is at a phase, and the state is `state`. -/
def Phase.progress (state : State) : Phase → Progress
  | begin => .idle
  | announce => .begun
  | returned _ => .closed state
  | _ => .reported

def Phase.launches : Phase → Nat
  | begin => 0
  | announce => 0
  | launch => 0
  | _ => 1

def Phase.isEarly : Phase → Bool
  | begin => true
  | announce => true
  | launch => true
  | spawning => true
  | lament _ => true
  | fail _ => true
  | attach => true
  | _ => false

def Call.outcome (c : Call) (state : State) : Except ProcessError State :=
  match c.refusal with
  | none => .ok state
  | some e => .error e

def Call.Knows (c : Call) (state : State) : Prop :=
  match c.phase with
  | .begin => False
  | .lament e => c.refusal = some e
  | .fail e => c.refusal = some e
  | .conclude last result => last = state ∧ state.isTerminal = true ∧ result = c.outcome state
  | .returned result => state.isTerminal = true ∧ result = c.outcome state
  | _ => c.refusal = none

structure Vacant (s : System) : Prop where
  progress : readLog s.log = some .idle
  launches : s.launches = 0
  detached : s.runner.attached = false
  still : s.runner.state ≠ .running ∧ s.runner.state ≠ .paused

structure Led (s : System) (c : Call) : Prop where
  begun : s.runner.state ≠ .initial
  progress : readLog s.log = some (c.phase.progress s.runner.state)
  launches : s.launches = c.phase.launches
  early : c.phase.isEarly = true → s.runner.attached = false ∧ s.runner.state ≠ .paused
  knows : c.Knows s.runner.state

def Call.Outside (c : Call) : Prop :=
  (c.phase = .begin ∧ c.refusal = none) ∨ ∃ e, c.phase = .returned (.error e)

structure Sound (s : System) : Prop where
  path : Path .initial (changes s.log) s.runner.state
  single : ∀ i j, (s.calls i).accepted = true → (s.calls j).accepted = true → i = j
  outside : ∀ i, (s.calls i).accepted = false → (s.calls i).Outside
  vacant : (∀ i, (s.calls i).accepted = false) → Vacant s
  led : ∀ i, (s.calls i).accepted = true → Led s (s.calls i)

theorem sound_fresh : Sound {} where
  path := .nil
  single := fun i j first => by cases first
  outside := fun _ _ => Or.inl ⟨rfl, rfl⟩
  vacant := fun _ => ⟨rfl, rfl, rfl, by simp, by simp⟩
  led := fun i lead => by cases lead

section
variable {s s' : System} {c : Call} {i : Nat}

theorem progress_stays {phase : Phase} {a b : State} (ongoing : ∀ result, phase ≠ .returned result)
    (begun : phase ≠ .begin) :
    (phase.progress a).read (.stateChanged b) = some (phase.progress b) := by
  cases phase <;> first | rfl | exact absurd rfl begun | exact absurd rfl (ongoing _)

theorem not_early {phase : Phase} {p : Prop} (late : phase.isEarly = false) :
    phase.isEarly = true → p := by
  intro early
  simp [late] at early

theorem vacant_control (v : Vacant s) (c : Control) (deliver : Delivery) :
    Vacant { s with
      runner := (s.runner.control c deliver).runner
      log := s.log ++ (s.runner.control c deliver).events } := by
  obtain ⟨progress, launches, detached, notRunning, notPaused⟩ := v
  rcases control_takes s.runner c deliver with ⟨runner, events⟩ | ⟨next, allowed, runner, events⟩
  · simp only [runner, events, List.append_nil]
    exact ⟨progress, launches, detached, notRunning, notPaused⟩
  · simp only [runner, events]
    have ended : next = .stopped ∨ next = .timeout := by
      cases state : s.runner.state <;> cases c <;>
        simp_all [Control.action, State.apply]
    rcases ended with rfl | rfl
    · exact ⟨readLog_next progress rfl, launches, detached, by simp, by simp⟩
    · exact ⟨readLog_next progress rfl, launches, detached, by simp, by simp⟩

theorem returned_terminal {state : State} {result : Except ProcessError State}
    (knows : c.Knows state) (phase : c.phase = .returned result) : state.isTerminal = true := by
  simp only [Call.Knows, phase] at knows
  exact knows.1

theorem knows_change {a b : State} (knows : c.Knows a) (live : a.isTerminal = false) :
    c.Knows b := by
  unfold Call.Knows at *
  cases phase : c.phase <;> simp_all

theorem led_control (l : Led s c) (k : Control) (deliver : Delivery) :
    Led { s with
      runner := (s.runner.control k deliver).runner
      log := s.log ++ (s.runner.control k deliver).events } c := by
  obtain ⟨begun, progress, launches, early, knows⟩ := l
  rcases control_takes s.runner k deliver with ⟨runner, events⟩ | ⟨next, allowed, runner, events⟩
  · simp only [runner, events, List.append_nil]
    exact ⟨begun, progress, launches, early, knows⟩
  · simp only [runner, events]
    have live : s.runner.state.isTerminal = false := by
      cases terminal : s.runner.state.isTerminal with
      | false => rfl
      | true => simp [apply_terminal terminal] at allowed
    have ongoing : ∀ result, c.phase ≠ .returned result := by
      intro result phase
      simp [returned_terminal knows phase] at live
    have entered : c.phase ≠ .begin := by
      intro phase
      simp [Call.Knows, phase] at knows
    refine ⟨apply_not_initial allowed, readLog_next progress (progress_stays ongoing entered),
      launches, ?_, knows_change knows live⟩
    intro isEarly
    obtain ⟨detached, notPaused⟩ := early isEarly
    refine ⟨detached, ?_⟩
    rintro rfl
    cases k with
    | pause =>
      have attached := pause_attached s.runner deliver (by simp [events])
      simp [detached] at attached
    | resume | stop | timeout =>
      cases state : s.runner.state <;> simp [state, Control.action, State.apply] at allowed

/-- Every step of the accepted start leads the run on. -/
theorem led_step {app : Option Json} {now : Int} {m : Move} (l : Led s c)
    (made : c.phase.step app now s.runner = some m) (calls : Nat → Call) :
    Led ⟨m.runner, calls, s.log ++ m.events, s.launches + m.launches.toNat⟩ (c.goOn m.phase) := by
  obtain ⟨begun, progress, launches, early, knows⟩ := l
  unfold Call.Knows at knows
  -- phase by phase; the state ends only where the run fails for want of a process or finishes
  cases phase : c.phase with
  | begin => simp [phase] at knows
  | announce =>
    simp only [phase] at made progress launches early knows
    cases made
    exact ⟨begun, readLog_next progress rfl, launches, early, knows⟩
  | launch =>
    simp only [phase] at made progress launches early knows
    cases made
    refine ⟨begun, ?_, by rw [launches]; rfl, early, knows⟩
    rw [List.append_nil]
    exact progress
  | lament e =>
    simp only [phase] at made progress launches early knows
    cases made
    exact ⟨begun, readLog_next progress rfl, launches, early, knows⟩
  | fail e =>
    simp only [phase] at made progress launches early knows
    cases made
    obtain ⟨_, notPaused⟩ := early rfl
    have ended := spawnFailure_ends begun notPaused
    exact ⟨terminal_not_initial ended, reported_move progress _ _, launches, not_early rfl, rfl,
      ended, by simp [Call.outcome, Call.goOn, knows]⟩
  | attach =>
    simp only [phase] at made progress launches early knows
    simp only [Phase.step] at made
    split at made
    · cases made
      refine ⟨begun, ?_, launches, not_early rfl, knows⟩
      rw [List.append_nil]
      exact progress
    · cases made
      refine ⟨begun, ?_, launches, not_early rfl, knows⟩
      rw [List.append_nil]
      exact progress
  | relay line =>
    simp only [phase] at made progress launches early knows
    cases made
    refine ⟨begun, ?_, launches, not_early rfl, knows⟩
    cases line <;> exact readLog_next progress rfl
  | finish =>
    simp only [phase] at made progress launches early knows
    have outcome : ∀ state, Except.ok state = (c.goOn .finish).outcome state := fun state => by
      simp [Call.outcome, Call.goOn, knows]
    simp only [Phase.step] at made
    split at made
    · rename_i ended
      cases made
      refine ⟨begun, ?_, launches, not_early rfl, rfl, ended, outcome _⟩
      rw [List.append_nil]
      exact progress
    · rename_i live
      obtain ⟨accepted, ended⟩ := exit_ends (r := { s.runner with attached := false })
        s.runner.stepFailed begun (by simpa using live)
      simp only [Phase.after, accepted, Option.some.injEq] at made
      subst made
      exact ⟨terminal_not_initial ended, reported_move progress _ _, launches, not_early rfl, rfl,
        ended, outcome _⟩
  | conclude last result =>
    simp only [phase] at made progress launches early knows
    cases made
    obtain ⟨rfl, terminal, rfl⟩ := knows
    exact ⟨begun, readLog_next progress rfl, launches, not_early rfl, terminal, rfl⟩
  | spawning | reading | returned =>
    rw [phase] at made
    cases made

theorem led_answer (l : Led s c) (waits : c.phase = .spawning) (calls : Nat → Call)
    (result : Except ProcessError Unit) : Led { s with calls := calls } (c.answered result) := by
  obtain ⟨begun, progress, launches, early, knows⟩ := l
  simp only [waits] at progress launches early
  simp only [Call.Knows, waits] at knows
  cases result with
  | ok => exact ⟨begun, progress, launches, early, knows⟩
  | error e => exact ⟨begun, progress, launches, early, rfl⟩

theorem led_hear (l : Led s c) (waits : c.phase = .reading) (calls : Nat → Call)
    (said : Option Transport) :
    Led ⟨(Phase.receive s.runner said).runner, calls,
      s.log ++ (Phase.receive s.runner said).events, s.launches⟩
      (c.goOn (Phase.receive s.runner said).phase) := by
  obtain ⟨begun, progress, launches, early, knows⟩ := l
  simp only [waits] at progress launches
  simp only [Call.Knows, waits] at knows
  rw [receive_quiet, List.append_nil]
  cases said with
  | none => exact ⟨begun, progress, launches, not_early rfl, knows⟩
  | some t => cases t <;> exact ⟨begun, progress, launches, not_early rfl, knows⟩

theorem alone_of_lead (sound : Sound s) (lead : (s.calls i).accepted = true) :
    ∀ j, j ≠ i → (s.calls j).accepted = false := by
  intro j other
  cases accepted : (s.calls j).accepted with
  | false => rfl
  | true => exact absurd (sound.single j i accepted lead) other

theorem sound_lead (sound : Sound s) (alone : ∀ j, j ≠ i → (s.calls j).accepted = false)
    (lead : c.accepted = true) {r : Runner} {log : List Event} {launches : Nat}
    (path : Path .initial (changes log) r.state)
    (led : Led ⟨r, Function.update s.calls i c, log, launches⟩ c) :
    Sound ⟨r, Function.update s.calls i c, log, launches⟩ := by
  have only : ∀ j, (Function.update s.calls i c j).accepted = true → j = i := by
    intro j accepted
    by_contra other
    rw [Function.update_of_ne other, alone j other] at accepted
    cases accepted
  refine ⟨path, ?_, ?_, ?_, ?_⟩
  · intro j k first second
    rw [only j first, only k second]
  · intro j refused
    by_cases same : j = i
    · subst same
      simp [lead] at refused
    · simp only [Function.update_of_ne same] at refused ⊢
      exact sound.outside j refused
  · intro none
    simpa [lead] using none i
  · intro j accepted
    cases only j accepted
    simpa using led

theorem sound_away (sound : Sound s) (refused : (s.calls i).accepted = false)
    (away : c.accepted = false) (outside : c.Outside) :
    Sound { s with calls := Function.update s.calls i c } := by
  have same : ∀ j, (Function.update s.calls i c j).accepted = (s.calls j).accepted := by
    intro j
    by_cases own : j = i
    · subst own
      simp [away, refused]
    · rw [Function.update_of_ne own]
  refine ⟨sound.path, ?_, ?_, ?_, ?_⟩
  · intro j k first second
    exact sound.single j k (same j ▸ first) (same k ▸ second)
  · intro j none
    by_cases own : j = i
    · subst own
      simpa using outside
    · simp only [Function.update_of_ne own] at none ⊢
      exact sound.outside j none
  · intro none
    have v := sound.vacant fun j => same j ▸ none j
    exact ⟨v.progress, v.launches, v.detached, v.still⟩
  · intro j accepted
    have before : (s.calls j).accepted = true := same j ▸ accepted
    have own : j ≠ i := by
      rintro rfl
      simp [refused] at before
    have l := sound.led j before
    simp only [Function.update_of_ne own]
    exact ⟨l.begun, l.progress, l.launches, l.early, l.knows⟩

theorem sound_accept (sound : Sound s) (initial : s.runner.state = .initial)
    (noRefusal : (s.calls i).refusal = none) :
    Sound ⟨{ s.runner with state := .running },
      Function.update s.calls i ((s.calls i).goOn .announce),
      s.log ++ [Event.stateChanged .running], s.launches⟩ := by
  have none : ∀ j, (s.calls j).accepted = false := by
    intro j
    cases accepted : (s.calls j).accepted with
    | false => rfl
    | true => exact absurd initial (sound.led j accepted).begun
  have v := sound.vacant none
  refine sound_lead sound (fun j _ => none j) (by simp [Call.goOn, Phase.isAnnounce])
    (path_tells sound.path (Or.inr ⟨.start, by rw [initial]; rfl, rfl⟩)) ?_
  exact ⟨by simp, readLog_next v.progress rfl, v.launches, fun _ => ⟨v.detached, by simp⟩,
    noRefusal⟩

theorem sound_begin {app : Option Json} {now : Int} {m : Move} (sound : Sound s)
    (refused : (s.calls i).accepted = false)
    (made : (s.calls i).phase.step app now s.runner = some m) :
    Sound ⟨m.runner, Function.update s.calls i ((s.calls i).goOn m.phase), s.log ++ m.events,
      s.launches + m.launches.toNat⟩ := by
  rcases sound.outside i refused with ⟨phase, noRefusal⟩ | ⟨e, phase⟩
  · rw [phase] at made
    cases made
    cases allowed : s.runner.state.apply .start with
    | none =>
      simp only [move_refused allowed, Phase.after, List.append_nil]
      exact sound_away sound refused (by simp [Call.goOn, Phase.isAnnounce, refused])
        (Or.inr ⟨_, rfl⟩)
    | some next =>
      have initial : s.runner.state = .initial ∧ next = .running := by
        cases state : s.runner.state <;> simp [state, State.apply] at allowed
        exact ⟨rfl, allowed.symm⟩
      obtain ⟨initial, rfl⟩ := initial
      simp only [move_allowed allowed, Phase.after]
      exact sound_accept sound initial noRefusal
  · rw [phase] at made
    cases made

theorem waiting_leads (sound : Sound s) (waits : (s.calls i).phase = .spawning ∨
    (s.calls i).phase = .reading) : (s.calls i).accepted = true := by
  by_contra outsider
  rcases sound.outside i (by simpa using outsider) with ⟨phase, _⟩ | ⟨e, phase⟩ <;>
    simp [phase] at waits

/-- Every turn keeps a run sound. -/
theorem sound_turn {app : Option Json} (sound : Sound s) (turn : Turn app s s') : Sound s' := by
  cases turn with
  | proceed i now m made =>
    cases lead : (s.calls i).accepted with
    | false => exact sound_begin sound lead made
    | true =>
      exact sound_lead sound (alone_of_lead sound lead) (by simp [Call.goOn, lead])
        (path_tells sound.path (step_tells made)) (led_step (sound.led i lead) made _)
  | answer i waits result =>
    have lead := waiting_leads sound (Or.inl waits)
    exact sound_lead sound (alone_of_lead sound lead) (by cases result <;> exact lead) sound.path
      (led_answer (sound.led i lead) waits _ result)
  | hear i waits said =>
    have lead := waiting_leads sound (Or.inr waits)
    exact sound_lead sound (alone_of_lead sound lead) (by simp [Call.goOn, lead])
      (path_tells sound.path (Or.inl ⟨by rw [receive_quiet]; rfl, receive_state s.runner said⟩))
      (led_hear (sound.led i lead) waits _ said)
  | control c deliver =>
    refine ⟨?_, sound.single, sound.outside, ?_, ?_⟩
    · exact path_tells sound.path (takes_tells (control_takes s.runner c deliver))
    · exact fun none => vacant_control (sound.vacant none) c deliver
    · exact fun i lead => led_control (sound.led i lead) c deliver
  | dispose =>
    refine ⟨sound.path, sound.single, sound.outside, ?_, ?_⟩
    · intro none
      have v := sound.vacant none
      exact ⟨v.progress, v.launches, rfl, v.still⟩
    · intro i lead
      have l := sound.led i lead
      exact ⟨l.begun, l.progress, l.launches, fun early => ⟨rfl, (l.early early).2⟩, l.knows⟩

end

end StepFlow.Run
