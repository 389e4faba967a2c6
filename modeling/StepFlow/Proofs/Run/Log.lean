import Mathlib.Data.List.Induction
import StepFlow.Run.Event

/-!
Logs of a run. The states reported are led through by allowed actions. The other events have an
order of their own: a start is reported once the run has begun, then what the steps say, then the
end. Reading a log event by event keeps how far the run has been reported, which decides what may
come next; the order between any two events of a log that can be read follows from that.
-/
namespace StepFlow.Run

namespace Event

def change? : Event → Option State
  | stateChanged state => some state
  | _ => none

def isStart : Event → Bool
  | runStarted .. => true
  | _ => false

def isStep : Event → Bool
  | stepStarted _ => true
  | stepData _ => true
  | _ => false

def isEnd : Event → Bool
  | runEnded .. => true
  | _ => false

theorem step_not_start {e : Event} (step : e.isStep = true) : e.isStart = false := by
  cases e <;> first | rfl | cases step

theorem step_not_end {e : Event} (step : e.isStep = true) : e.isEnd = false := by
  cases e <;> first | rfl | cases step

theorem start_not_end {e : Event} (start : e.isStart = true) : e.isEnd = false := by
  cases e <;> first | rfl | cases start

end Event

def changes (log : List Event) : List State := log.filterMap Event.change?

/-- From `start`, allowed actions lead through the states, in order, to the last one. -/
inductive Path (start : State) : List State → State → Prop where
  | nil : Path start [] start
  | step {states : List State} {a b : State} (path : Path start states a) (action : Action)
      (allowed : a.apply action = some b) : Path start (states ++ [b]) b

/-- Events that report the change from one state to another, if there is one. -/
def Tells (a : State) (events : List Event) (b : State) : Prop :=
  (changes events = [] ∧ b = a) ∨ ∃ action, a.apply action = some b ∧ changes events = [b]

section
variable {a b : State}

theorem tells_nil : Tells a [] a := Or.inl ⟨rfl, rfl⟩

theorem path_tells {log events : List Event} (path : Path .initial (changes log) a)
    (tells : Tells a events b) : Path .initial (changes (log ++ events)) b := by
  rw [changes, List.filterMap_append]
  rcases tells with ⟨none, rfl⟩ | ⟨action, allowed, one⟩
  · rw [← changes, ← changes, none, List.append_nil]
    exact path
  · rw [← changes, ← changes, one]
    exact .step path action allowed

theorem path_last {states : List State} {a b : State} (path : Path a states b)
    (moved : a ≠ b) : states.getLast? = some b := by
  cases path with
  | nil => exact absurd rfl moved
  | step => simp

end

inductive Progress where
  | idle
  | begun
  | reported
  | closed (state : State)
  deriving DecidableEq

namespace Progress

def read : Progress → Event → Option Progress
  | idle, .stateChanged .running => some begun
  | idle, .stateChanged _ => some idle
  | begun, .stateChanged _ => some begun
  | begun, .runStarted .. => some reported
  | reported, .stateChanged _ => some reported
  | reported, .stepStarted _ => some reported
  | reported, .stepData _ => some reported
  | reported, .runEnded _ state _ => some (closed state)
  | _, _ => none

def starts : Progress → Nat
  | idle => 0
  | begun => 0
  | reported => 1
  | closed _ => 1

def ends : Progress → Nat
  | closed _ => 1
  | _ => 0

end Progress

def readLog (log : List Event) : Option Progress := log.foldlM Progress.read .idle

section
variable {log before after : List Event} {e : Event} {progress : Progress}

theorem readLog_snoc : readLog (log ++ [e]) = (readLog log).bind (Progress.read · e) := by
  simp only [readLog, List.foldlM_append, List.foldlM_cons, List.foldlM_nil, bind_pure]
  rfl

theorem readLog_next {log : List Event} {progress next : Progress} {e : Event}
    (read : readLog log = some progress) (may : progress.read e = some next) :
    readLog (log ++ [e]) = some next := by
  rw [readLog_snoc, read]
  exact may

/-- A log that can be read can be read up to any event and over it. -/
theorem readLog_split (read : readLog (before ++ e :: after) = some progress) :
    ∃ first second, readLog before = some first ∧ first.read e = some second := by
  simp only [readLog, List.foldlM_append, List.foldlM_cons, Option.bind_eq_bind,
    Option.bind_eq_some_iff] at read
  obtain ⟨first, start, second, next, _⟩ := read
  exact ⟨first, second, start, next⟩

theorem read_cases {next : Progress} (read : progress.read e = some next) :
    (∃ state, e = .stateChanged state ∧
      (progress = .idle ∧ state = .running ∧ next = .begun ∨
        progress = .idle ∧ next = .idle ∨ progress = .begun ∧ next = .begun ∨
        progress = .reported ∧ next = .reported)) ∨
    (progress = .begun ∧ e.isStart = true ∧ next = .reported) ∨
    (progress = .reported ∧ e.isStep = true ∧ next = .reported) ∨
    (progress = .reported ∧ ∃ time state app, e = .runEnded time state app ∧
      next = .closed state) := by
  cases progress with
  | idle =>
    cases e with
    | stateChanged state => cases state <;> cases read <;> simp
    | _ => cases read
  | begun => cases e <;> cases read <;> simp [Event.isStart]
  | reported => cases e <;> cases read <;> simp [Event.isStep]
  | closed state => cases e <;> cases read

theorem read_start {next : Progress} (read : progress.read e = some next)
    (start : e.isStart = true) : progress = .begun := by
  rcases read_cases read with ⟨_, rfl, _⟩ | ⟨begun, _⟩ | ⟨_, step, _⟩ | ⟨_, _, _, _, rfl, _⟩
  · cases start
  · exact begun
  · simp [Event.step_not_start step] at start
  · cases start

theorem read_step {next : Progress} (read : progress.read e = some next) (step : e.isStep = true) :
    progress = .reported := by
  rcases read_cases read with ⟨_, rfl, _⟩ | ⟨_, start, _⟩ | ⟨reported, _⟩ | ⟨reported, _⟩
  · cases step
  · simp [Event.step_not_start step] at start
  · exact reported
  · exact reported

theorem read_starts {next : Progress} (read : progress.read e = some next) :
    next.starts = progress.starts + [e].countP Event.isStart := by
  rcases read_cases read with ⟨_, rfl, h⟩ | ⟨rfl, start, rfl⟩ | ⟨rfl, step, rfl⟩ |
    ⟨rfl, _, _, _, rfl, rfl⟩
  · rcases h with ⟨rfl, _, rfl⟩ | ⟨rfl, rfl⟩ | ⟨rfl, rfl⟩ | ⟨rfl, rfl⟩ <;> rfl
  · simp [Progress.starts, start]
  · simp [Event.step_not_start step]
  · rfl

theorem read_ends {next : Progress} (read : progress.read e = some next) :
    next.ends = progress.ends + [e].countP Event.isEnd := by
  rcases read_cases read with ⟨_, rfl, h⟩ | ⟨rfl, start, rfl⟩ | ⟨rfl, step, rfl⟩ |
    ⟨rfl, _, _, _, rfl, rfl⟩
  · rcases h with ⟨rfl, _, rfl⟩ | ⟨rfl, rfl⟩ | ⟨rfl, rfl⟩ | ⟨rfl, rfl⟩ <;> rfl
  · simp [Progress.ends, Event.start_not_end start]
  · simp [Event.step_not_end step]
  · rfl

theorem read_begun {next : Progress} (read : progress.read e = some next) (begun : next ≠ .idle) :
    progress ≠ .idle ∨ e = .stateChanged .running := by
  rcases read_cases read with ⟨_, rfl, h⟩ | ⟨rfl, _⟩ | ⟨rfl, _⟩ | ⟨rfl, _⟩
  · rcases h with ⟨_, rfl, _⟩ | ⟨_, rfl⟩ | ⟨rfl, _⟩ | ⟨rfl, _⟩
    · exact Or.inr rfl
    · exact absurd rfl begun
    · exact Or.inl (by simp)
    · exact Or.inl (by simp)
  · exact Or.inl (by simp)
  · exact Or.inl (by simp)
  · exact Or.inl (by simp)

structure Holds (log : List Event) (progress : Progress) : Prop where
  starts : log.countP Event.isStart = progress.starts
  ends : log.countP Event.isEnd = progress.ends
  begun : progress ≠ .idle → .stateChanged .running ∈ log
  steps : progress.starts = 0 → log.countP Event.isStep = 0

theorem holds_snoc {next : Progress} (held : Holds log progress)
    (read : progress.read e = some next) : Holds (log ++ [e]) next where
  starts := by rw [List.countP_append, held.starts, read_starts read]
  ends := by rw [List.countP_append, held.ends, read_ends read]
  begun := by
    intro begun
    rcases read_begun read begun with before | rfl
    · exact List.mem_append_left _ (held.begun before)
    · simp
  steps := by
    intro none
    have before : progress.starts = 0 := by
      have := read_starts read
      omega
    have noStep : e.isStep = false := by
      by_contra step
      have reported := read_step read (by simpa using step)
      simp [reported, Progress.starts] at before
    rw [List.countP_append, held.steps before]
    simp [noStep]

theorem readLog_holds (read : readLog log = some progress) : Holds log progress := by
  induction log using List.reverseRecOn generalizing progress with
  | nil =>
    cases read
    exact ⟨rfl, rfl, fun begun => absurd rfl begun, fun _ => rfl⟩
  | append_singleton log e ih =>
    rw [readLog_snoc, Option.bind_eq_some_iff] at read
    obtain ⟨before, first, next⟩ := read
    exact holds_snoc (ih first) next

theorem start_in_order (read : readLog (before ++ e :: after) = some progress)
    (start : e.isStart = true) :
    .stateChanged .running ∈ before ∧ before.countP Event.isStart = 0 ∧
      before.countP Event.isStep = 0 := by
  obtain ⟨first, second, early, next⟩ := readLog_split read
  have held := readLog_holds early
  cases read_start next start
  exact ⟨held.begun (by simp), held.starts, held.steps rfl⟩

theorem step_in_order (read : readLog (before ++ e :: after) = some progress)
    (step : e.isStep = true) : before.countP Event.isStart = 1 := by
  obtain ⟨first, second, early, next⟩ := readLog_split read
  cases read_step next step
  exact (readLog_holds early).starts

theorem closed_ends {state : State} (read : readLog log = some (.closed state)) :
    ∃ before time app, log = before ++ [.runEnded time state app] ∧
      before.countP Event.isEnd = 0 := by
  rcases List.eq_nil_or_concat log with rfl | ⟨before, e, rfl⟩
  · cases read
  · rw [List.concat_eq_append, readLog_snoc, Option.bind_eq_some_iff] at read
    obtain ⟨progress, early, next⟩ := read
    rcases read_cases next with ⟨_, _, h⟩ | ⟨_, _, h⟩ | ⟨_, _, h⟩ |
      ⟨rfl, time, state', app, rfl, h⟩
    · rcases h with ⟨_, _, h⟩ | ⟨_, h⟩ | ⟨_, h⟩ | ⟨_, h⟩ <;> cases h
    · cases h
    · cases h
    · cases h
      exact ⟨before, time, app, List.concat_eq_append, (readLog_holds early).ends⟩

end

end StepFlow.Run
