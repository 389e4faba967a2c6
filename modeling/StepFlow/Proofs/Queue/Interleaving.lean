import Mathlib.Data.Multiset.Bind
import Mathlib.Logic.Function.Basic
import Mathlib.Logic.Relation
import StepFlow.Queue.Basic

/-!
A queue shared by any number of callers. Whoever has something to do at the queue has a task, and a
turn is one section of any task: a job is put in, a drain takes the next job or finds that there is
none, the end of a job is marked, those who wait are told. Between two sections of one task any
others can come. Calls that wait for an idle queue are numbered, and each is as far as its watcher
says. However the turns come, one job is executed at a time, and every job that was submitted
waits, is executed, or has ended.
-/
namespace StepFlow.Queue.Shared

inductive Outcome where
  | succeeded
  | failed
  | panicked
  deriving DecidableEq, Repr

/-- What goes on at a queue. A job is launched, executed and then marked as ended. -/
inductive Task (α : Type) where
  | submit (entrance : Entrance) (job : α)
  | drain
  | notify
  | launch (job : α)
  | execute (job : α)
  | mark (job : α) (outcome : Outcome)

/-- How far a call has come that waits for an idle queue. A notification reaches it once it is
enabled, and what it is told is kept until it parks. -/
inductive Watcher where
  | absent
  | entered (told : Bool)
  | enabled (told : Bool)
  | parked (told : Bool)
  | returned
  deriving DecidableEq, Repr

namespace Watcher

def tell : Watcher → Watcher
  | entered _ => entered true
  | enabled _ => enabled true
  | parked _ => parked true
  | w => w

def isEnabled : Watcher → Bool
  | enabled _ => true
  | parked _ => true
  | _ => false

def step (idle : Bool) : Watcher → Option Watcher
  | absent => some (entered false)
  | entered told => some (enabled told)
  | enabled told => some (if idle then returned else parked told)
  | parked true => some (entered false)
  | parked false => none
  | returned => none

end Watcher

structure System (α : Type) where
  queue : Queue α := {}
  tasks : Multiset (Task α) := 0
  watchers : Nat → Watcher := fun _ => .absent
  submitted : List (Entrance × α) := []
  begun : List α := []
  ended : List (α × Outcome) := []

variable {α : Type}

def Drained.tasks : Drained α → Multiset (Task α)
  | .busy => 0
  | .idle => {.notify}
  | .started job => {.launch job}

inductive Turn (s : System α) : System α → Prop where
  | call (entrance : Entrance) (job : α) :
      Turn s { s with tasks := .submit entrance job ::ₘ s.tasks }
  | submit (entrance : Entrance) (job : α) (others : Multiset (Task α))
      (due : s.tasks = .submit entrance job ::ₘ others) :
      Turn s { s with
        queue := s.queue.push entrance job
        tasks := .drain ::ₘ others
        submitted := s.submitted ++ [(entrance, job)] }
  | drain (others : Multiset (Task α)) (due : s.tasks = .drain ::ₘ others) :
      Turn s { s with
        queue := s.queue.drain.1
        tasks := Drained.tasks s.queue.drain.2 + others }
  | launch (job : α) (others : Multiset (Task α)) (due : s.tasks = .launch job ::ₘ others) :
      Turn s { s with tasks := .execute job ::ₘ others, begun := s.begun ++ [job] }
  | execute (job : α) (outcome : Outcome) (others : Multiset (Task α))
      (due : s.tasks = .execute job ::ₘ others) :
      Turn s { s with tasks := .mark job outcome ::ₘ others }
  | mark (job : α) (outcome : Outcome) (others : Multiset (Task α))
      (due : s.tasks = .mark job outcome ::ₘ others) :
      Turn s { s with
        queue := s.queue.finish
        tasks := .drain ::ₘ others
        ended := s.ended ++ [(job, outcome)] }
  | notify (others : Multiset (Task α)) (due : s.tasks = .notify ::ₘ others)
      (reached : Nat → Bool) (enabled : ∀ i, (s.watchers i).isEnabled = true → reached i = true) :
      Turn s { s with
        tasks := others
        watchers := fun i => if reached i then (s.watchers i).tell else s.watchers i }
  | watch (i : Nat) (next : Watcher) (made : (s.watchers i).step s.queue.isIdle = some next) :
      Turn s { s with watchers := Function.update s.watchers i next }
  | leave (i : Nat) (waits : s.watchers i ≠ .returned) :
      Turn s { s with watchers := Function.update s.watchers i .absent }

abbrev Reaches : System α → System α → Prop := Relation.ReflTransGen Turn

def Task.held : Task α → Multiset α
  | launch job => {job}
  | execute job => {job}
  | mark job _ => {job}
  | _ => 0

def Task.launched : Task α → Multiset α
  | launch job => {job}
  | _ => 0

def System.held (s : System α) : Multiset α := s.tasks.bind Task.held

def System.launched (s : System α) : Multiset α := s.tasks.bind Task.launched

def System.jobs (s : System α) : Multiset α := s.submitted.map Prod.snd

structure Sound (s : System α) : Prop where
  single : s.held.card = if s.queue.running then 1 else 0
  kept : s.jobs = s.queue.waiting + s.held + (s.ended.map Prod.fst : Multiset α)
  once : s.jobs = s.queue.waiting + s.launched + s.begun

theorem sound_fresh : Sound ({} : System α) := ⟨rfl, rfl, rfl⟩

theorem coe_snoc (as : List α) (a : α) : ((as ++ [a] : List α) : Multiset α) = as + {a} := rfl

theorem push_waiting (q : Queue α) (entrance : Entrance) (job : α) :
    ((q.push entrance job).waiting : Multiset α) = q.waiting + {job} := by
  cases entrance with
  | back => rfl
  | front => exact add_comm ({job} : Multiset α) q.waiting

theorem push_running (q : Queue α) (entrance : Entrance) (job : α) :
    (q.push entrance job).running = q.running := by
  cases entrance <;> rfl

theorem drain_cases (q : Queue α) :
    (q.running = true ∧ q.drain = (q, .busy)) ∨
      (q.running = false ∧ q.waiting = [] ∧ q.drain = (q, .idle)) ∨
      ∃ job rest, q.running = false ∧ q.waiting = job :: rest ∧
        q.drain = (⟨rest, true⟩, .started job) := by
  obtain ⟨waiting, running⟩ := q
  cases running with
  | true => exact Or.inl ⟨rfl, rfl⟩
  | false =>
    cases waiting with
    | nil => exact Or.inr (Or.inl ⟨rfl, rfl, rfl⟩)
    | cons job rest => exact Or.inr (Or.inr ⟨job, rest, rfl, rfl, rfl⟩)

section
variable {s s' : System α} {others : Multiset (Task α)}

theorem sound_drain (sound : Sound s) (due : s.tasks = .drain ::ₘ others) :
    Sound { s with
      queue := s.queue.drain.1
      tasks := Drained.tasks s.queue.drain.2 + others } := by
  obtain ⟨single, kept, once⟩ := sound
  simp only [System.held, System.launched, due, Multiset.cons_bind, Task.held, Task.launched,
    zero_add] at single kept once
  rcases drain_cases s.queue with ⟨_, drained⟩ | ⟨_, _, drained⟩ |
    ⟨job, rest, stopped, waiting, drained⟩
  · rw [drained]
    exact ⟨by simpa [System.held, Drained.tasks] using single,
      by simpa [System.jobs, System.held, Drained.tasks] using kept,
      by simpa [System.jobs, System.launched, Drained.tasks] using once⟩
  · rw [drained]
    exact ⟨by simpa [System.held, Drained.tasks, Task.held] using single,
      by simpa [System.jobs, System.held, Drained.tasks, Task.held] using kept,
      by simpa [System.jobs, System.launched, Drained.tasks, Task.launched] using once⟩
  · rw [waiting, ← Multiset.cons_coe, ← Multiset.singleton_add] at kept once
    rw [drained]
    refine ⟨?_, ?_, ?_⟩
    · simp [System.held, Drained.tasks, Task.held, single, stopped]
    · refine kept.trans ?_
      simp only [System.held, Drained.tasks, Task.held, Multiset.add_bind,
        Multiset.singleton_bind]
      ac_rfl
    · refine once.trans ?_
      simp only [System.launched, Drained.tasks, Task.launched, Multiset.add_bind,
        Multiset.singleton_bind]
      ac_rfl

theorem sound_mark (sound : Sound s) {job : α} {outcome : Outcome}
    (due : s.tasks = .mark job outcome ::ₘ others) :
    Sound { s with
      queue := s.queue.finish
      tasks := .drain ::ₘ others
      ended := s.ended ++ [(job, outcome)] } := by
  obtain ⟨single, kept, once⟩ := sound
  simp only [System.held, System.launched, due, Multiset.cons_bind, Task.held, Task.launched,
    zero_add] at single kept once
  have alone : (others.bind Task.held).card = 0 := by
    simp only [Multiset.card_add, Multiset.card_singleton] at single
    split at single <;> omega
  refine ⟨?_, ?_, ?_⟩
  · simpa [System.held, Task.held, Queue.finish] using alone
  · refine kept.trans ?_
    simp only [System.held, Task.held, Multiset.cons_bind, zero_add, List.map_append,
      List.map_cons, List.map_nil, coe_snoc, Queue.finish]
    ac_rfl
  · simpa [System.jobs, System.launched, Task.launched, Queue.finish] using once

theorem sound_submit (sound : Sound s) {entrance : Entrance} {job : α}
    (due : s.tasks = .submit entrance job ::ₘ others) :
    Sound { s with
      queue := s.queue.push entrance job
      tasks := .drain ::ₘ others
      submitted := s.submitted ++ [(entrance, job)] } := by
  obtain ⟨single, kept, once⟩ := sound
  simp only [System.jobs, System.held, System.launched, due, Multiset.cons_bind, Task.held,
    Task.launched, zero_add] at single kept once
  refine ⟨?_, ?_, ?_⟩
  · simpa [System.held, Task.held, push_running] using single
  · simp only [System.jobs, System.held, Task.held, Multiset.cons_bind, List.map_append,
      List.map_cons, List.map_nil, coe_snoc, push_waiting, kept, zero_add]
    ac_rfl
  · simp only [System.jobs, System.launched, Task.launched, Multiset.cons_bind, List.map_append,
      List.map_cons, List.map_nil, coe_snoc, push_waiting, once, zero_add]
    ac_rfl

theorem sound_launch (sound : Sound s) {job : α} (due : s.tasks = .launch job ::ₘ others) :
    Sound { s with tasks := .execute job ::ₘ others, begun := s.begun ++ [job] } := by
  obtain ⟨single, kept, once⟩ := sound
  simp only [System.held, System.launched, due, Multiset.cons_bind, Task.held,
    Task.launched] at single kept once
  refine ⟨?_, ?_, ?_⟩
  · simpa [System.held, Task.held] using single
  · simpa [System.jobs, System.held, Task.held] using kept
  · refine once.trans ?_
    simp only [System.launched, Task.launched, Multiset.cons_bind, coe_snoc, zero_add]
    ac_rfl

theorem sound_tasks (sound : Sound s) {tasks : Multiset (Task α)}
    (held : tasks.bind Task.held = s.held) (launched : tasks.bind Task.launched = s.launched)
    (watchers : Nat → Watcher) : Sound { s with tasks := tasks, watchers := watchers } :=
  ⟨(congrArg Multiset.card held).trans sound.single, sound.kept.trans (by rw [← held]; rfl),
    sound.once.trans (by rw [← launched]; rfl)⟩

/-- Every turn at the queue keeps it sound. -/
theorem sound_turn (sound : Sound s) (turn : Turn s s') : Sound s' := by
  cases turn with
  | call entrance job =>
    exact sound_tasks sound (by simp [System.held, Task.held])
      (by simp [System.launched, Task.launched]) s.watchers
  | submit entrance job others due => exact sound_submit sound due
  | drain others due => exact sound_drain sound due
  | launch job others due => exact sound_launch sound due
  | execute job outcome others due =>
    exact sound_tasks sound (by simp [System.held, due, Task.held])
      (by simp [System.launched, due, Task.launched]) s.watchers
  | mark job outcome others due => exact sound_mark sound due
  | notify others due reached enabled =>
    exact sound_tasks sound (by simp [System.held, due, Task.held])
      (by simp [System.launched, due, Task.launched]) _
  | watch i next made => exact ⟨sound.single, sound.kept, sound.once⟩
  | leave i waits => exact ⟨sound.single, sound.kept, sound.once⟩

theorem sound_reaches (sound : Sound s) (reached : Reaches s s') : Sound s' := by
  induction reached with
  | refl => exact sound
  | tail _ turn ih => exact sound_turn ih turn

theorem running_iff (sound : Sound s) : s.queue.running = true ↔ s.held ≠ 0 := by
  rw [← Multiset.card_pos, sound.single]
  cases s.queue.running <;> simp

/-- What can be relied on of a queue that all its callers have brought this far: of the jobs that
were submitted none is lost, and none begins twice. -/
structure Orderly (s : System α) : Prop where
  single : s.held.card ≤ 1
  running : s.queue.running = true ↔ s.held ≠ 0
  kept : s.jobs = s.queue.waiting + s.held + (s.ended.map Prod.fst : Multiset α)
  once : s.jobs = s.queue.waiting + s.launched + s.begun
  distinct : s.jobs.Nodup → s.begun.Nodup ∧ ∀ job ∈ s.begun, job ∉ s.queue.waiting

/-- Whatever the order of the sections of all callers, and however the jobs end. -/
theorem reached_orderly (reached : Reaches {} s) : Orderly s := by
  have sound := sound_reaches sound_fresh reached
  refine ⟨?_, running_iff sound, sound.kept, sound.once, ?_⟩
  · rw [sound.single]
    split <;> omega
  · intro distinct
    rw [sound.once, Multiset.nodup_add] at distinct
    obtain ⟨_, begun, apart⟩ := distinct
    refine ⟨begun, fun job member waits => ?_⟩
    exact Multiset.disjoint_left.mp apart (Multiset.mem_add.mpr (Or.inl waits)) member

/-- A second job is put before the first one while the drain of the first is pending; it panics. -/
theorem cut_in_orderly : ∃ s : System Nat, Reaches {} s ∧ s.begun = [2, 1] ∧
    s.ended = [(2, .panicked)] ∧ s.queue.waiting = [] ∧ Orderly s := by
  let both : List (Entrance × Nat) := [(.back, 1), (.front, 2)]
  let still : Nat → Watcher := fun _ => .absent
  have called : Reaches {} ⟨⟨[], false⟩, .submit .back 1 ::ₘ 0, still, [], [], []⟩ :=
    .single (.call .back 1)
  have pushed : Reaches {} ⟨⟨[1], false⟩, .drain ::ₘ 0, still, [(.back, 1)], [], []⟩ :=
    called.tail (.submit .back 1 0 rfl)
  have called : Reaches {} ⟨⟨[1], false⟩, .submit .front 2 ::ₘ .drain ::ₘ 0, still,
      [(.back, 1)], [], []⟩ := pushed.tail (.call .front 2)
  have pushed : Reaches {} ⟨⟨[2, 1], false⟩, .drain ::ₘ .drain ::ₘ 0, still, both, [], []⟩ :=
    called.tail (.submit .front 2 (.drain ::ₘ 0) rfl)
  have taken : Reaches {} ⟨⟨[1], true⟩, .drain ::ₘ .launch 2 ::ₘ 0, still, both, [], []⟩ := by
    rw [Multiset.cons_swap]
    exact pushed.tail (.drain (.drain ::ₘ 0) rfl)
  have busy : Reaches {} ⟨⟨[1], true⟩, .launch 2 ::ₘ 0, still, both, [], []⟩ :=
    taken.tail (.drain (.launch 2 ::ₘ 0) rfl)
  have begun : Reaches {} ⟨⟨[1], true⟩, .execute 2 ::ₘ 0, still, both, [2], []⟩ :=
    busy.tail (.launch 2 0 rfl)
  have failed : Reaches {} ⟨⟨[1], true⟩, .mark 2 .panicked ::ₘ 0, still, both, [2], []⟩ :=
    begun.tail (.execute 2 .panicked 0 rfl)
  have marked : Reaches {} ⟨⟨[1], false⟩, .drain ::ₘ 0, still, both, [2], [(2, .panicked)]⟩ :=
    failed.tail (.mark 2 .panicked 0 rfl)
  have next : Reaches {} ⟨⟨[], true⟩, .launch 1 ::ₘ 0, still, both, [2], [(2, .panicked)]⟩ :=
    marked.tail (.drain 0 rfl)
  have begun : Reaches {} ⟨⟨[], true⟩, .execute 1 ::ₘ 0, still, both, [2, 1],
      [(2, .panicked)]⟩ := next.tail (.launch 1 0 rfl)
  exact ⟨_, begun, rfl, rfl, rfl, reached_orderly begun⟩

end

end StepFlow.Queue.Shared
