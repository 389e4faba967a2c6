import StepFlow.Proofs.Queue.Waiting
import StepFlow.Queue.Rehearsal

/-!
Rehearsals among all that can happen at a queue. A rehearsal takes the sections of its jobs and
calls in one order, so each of its queues goes through states that a shared queue can reach. A turn
that the rehearsal has still to take stands for the task, or for the call, that will take it.
-/
namespace StepFlow.Queue.Shared

/-- What a rehearsal knows of a task: how a job ended makes no difference to it. -/
inductive Stage where
  | drain
  | launch (ticket : Ticket)
  | execute (ticket : Ticket)
  | mark
  | other

def Task.stage : Task Ticket → Stage
  | drain => .drain
  | launch ticket => .launch ticket
  | execute ticket => .execute ticket
  | mark .. => .mark
  | _ => .other

def turnStage (i : Nat) : Queue.Turn → Multiset Stage
  | .start ticket => if ticket.job.home = i then {.launch ticket} else 0
  | .begin ticket => if ticket.job.home = i then {.launch ticket} else 0
  | .proceed ticket => if ticket.job.home = i then {.execute ticket} else 0
  | .finish j => if j = i then {.mark} else 0
  | .look .. => 0

def haltStage (i : Nat) (ticket : Ticket) : Multiset Stage :=
  if ticket.job.home = i then {.execute ticket} else 0

def stages (i : Nat) (r : Rehearsal) : Multiset Stage :=
  (r.turns : Multiset Queue.Turn).bind (turnStage i) +
    (r.halted : Multiset Ticket).bind (haltStage i)

def looksAt (i : Nat) : Queue.Turn → Bool
  | .look j _ => j == i
  | _ => false

/-- The calls `looking` are about to look at the queue `i`, the calls `parked` are to be told. -/
structure Watched (i : Nat) (turns : List Queue.Turn) (watchers : List (Nat × String))
    (w : Nat → Watcher) (looking parked : List Nat) : Prop where
  distinct : (looking ++ parked).Nodup
  looks : looking.length = turns.countP (looksAt i)
  parks : parked.length = watchers.countP fun w => w.1 == i
  enter : ∀ j ∈ looking, w j = .entered false ∨ w j = .parked true
  park : ∀ j ∈ parked, w j = .parked false
  fresh : ∃ bound, ∀ j, bound ≤ j → w j = .absent

/-- A shared queue is as far as the queue `i` of a rehearsal, where `extra` are the stages of tasks
that are in the middle of a turn. -/
structure Mirrors (i : Nat) (extra : Multiset Stage) (r : Rehearsal) (s : System Ticket) :
    Prop where
  known : i < r.queues.length
  homes : ∀ j, ∀ ticket ∈ (r.queue j).waiting, ticket.job.home = j
  queue : s.queue = r.queue i
  tasks : s.tasks.map Task.stage = extra + stages i r
  calls : ∃ looking parked, Watched i r.turns r.watchers s.watchers looking parked

section
variable {i j : Nat} {extra : Multiset Stage} {r : Rehearsal} {s : System Ticket}

theorem due_of_stage {x : Stage} {rest : Multiset Stage}
    (tasks : s.tasks.map Task.stage = {x} + rest) :
    ∃ task others, s.tasks = task ::ₘ others ∧ task.stage = x ∧
      others.map Task.stage = rest := by
  classical
  obtain ⟨task, member, stage, rest⟩ := (Multiset.map_eq_cons _ _ _ _).mpr
    (tasks.trans (Multiset.singleton_add x rest))
  exact ⟨task, _, (Multiset.cons_erase member).symm, stage, rest⟩

theorem stage_drain {task : Task Ticket} (stage : task.stage = .drain) : task = .drain := by
  cases task <;> simp_all [Task.stage]

theorem stage_launch {task : Task Ticket} {ticket : Ticket} (stage : task.stage = .launch ticket) :
    task = .launch ticket := by
  cases task <;> simp_all [Task.stage]

theorem stage_execute {task : Task Ticket} {ticket : Ticket}
    (stage : task.stage = .execute ticket) : task = .execute ticket := by
  cases task <;> simp_all [Task.stage]

theorem stage_mark {task : Task Ticket} (stage : task.stage = .mark) :
    ∃ ticket outcome, task = .mark ticket outcome := by
  cases task <;> simp_all [Task.stage]

theorem queue_setQueue_self (known : i < r.queues.length) (q : Queue Ticket) :
    (r.setQueue i q).queue i = q := by
  simp [Rehearsal.queue, Rehearsal.setQueue, known]

theorem queue_setQueue_other (other : i ≠ j) (q : Queue Ticket) :
    (r.setQueue i q).queue j = r.queue j := by
  simp [Rehearsal.queue, Rehearsal.setQueue, other]

theorem setQueue_unknown (unknown : ¬ i < r.queues.length) (q : Queue Ticket) :
    r.setQueue i q = r := by
  simp only [Rehearsal.setQueue, List.set_eq_of_length_le (Nat.not_lt.mp unknown)]

@[simp] theorem stages_setQueue (q : Queue Ticket) :
    stages i (r.setQueue j q) = stages i r := rfl

theorem stages_later (t : Queue.Turn) : stages i (r.later t) = turnStage i t + stages i r := by
  simp only [stages, Rehearsal.later, coe_snoc, Multiset.add_bind, Multiset.singleton_bind]
  ac_rfl

theorem watched_later {w : Nat → Watcher} {looking parked : List Nat} {t : Queue.Turn}
    (watched : Watched i r.turns r.watchers w looking parked) (other : looksAt i t = false) :
    Watched i (r.later t).turns r.watchers w looking parked := by
  obtain ⟨distinct, looks, parks, enter, park, fresh⟩ := watched
  exact ⟨distinct, by simp [Rehearsal.later, looks, other], parks, enter, park, fresh⟩

def notified (j : Nat) (r : Rehearsal) : Rehearsal :=
  { r with
    watchers := r.watchers.filter fun w => !(w.1 == j)
    turns := r.turns ++ (r.watchers.filter fun w => w.1 == j).map fun w => .look w.1 w.2 }

theorem stages_notified (j : Nat) : stages i (notified j r) = stages i r := by
  have looks (told : List (Nat × String)) :
      (told.map fun w => Queue.Turn.look w.1 w.2 : Multiset Queue.Turn).bind (turnStage i) = 0 := by
    rw [← Multiset.map_coe, Multiset.bind_map]
    exact Multiset.bind_zero _
  rw [stages, stages, notified, ← Multiset.coe_add, Multiset.add_bind, looks, add_zero]

theorem watched_told {w : Nat → Watcher} {looking parked : List Nat}
    (watched : Watched i r.turns r.watchers w looking parked) :
    Watched i (notified i r).turns (notified i r).watchers
      (fun j => if (w j).isEnabled then (w j).tell else w j) (looking ++ parked) [] := by
  obtain ⟨distinct, looks, parks, enter, park, bound, fresh⟩ := watched
  refine ⟨by simpa using distinct, ?_, ?_, ?_, nofun, bound, fun j le => ?_⟩
  · simp [notified, looks, parks, List.countP_map, List.countP_filter, Function.comp_def, looksAt]
  · simp [notified, List.countP_filter]
  · intro j member
    rcases List.mem_append.mp member with looked | left
    · rcases enter j looked with phase | phase
      · exact Or.inl (by simp [phase, Watcher.isEnabled])
      · exact Or.inr (by simp [phase, Watcher.isEnabled, Watcher.tell])
    · exact Or.inr (by simp [park j left, Watcher.isEnabled, Watcher.tell])
  · simp [fresh j le, Watcher.isEnabled]

theorem watched_elsewhere {w : Nat → Watcher} {looking parked : List Nat}
    (watched : Watched i r.turns r.watchers w looking parked) (other : i ≠ j) :
    Watched i (notified j r).turns (notified j r).watchers w looking parked := by
  obtain ⟨distinct, looks, parks, enter, park, fresh⟩ := watched
  refine ⟨distinct, ?_, ?_, enter, park, fresh⟩
  · simp [notified, looks, List.countP_map, List.countP_filter, Function.comp_def, looksAt]
    exact fun _ _ _ here there => other (here.symm.trans there)
  · simp only [notified, List.countP_filter, parks]
    refine List.countP_congr fun w _ => ?_
    simp only [beq_iff_eq, Bool.and_eq_true, Bool.not_eq_true', beq_eq_false_iff_ne, ne_eq]
    exact ⟨fun here => ⟨here, fun there => other (here.symm.trans there)⟩, And.left⟩

theorem drain_idle (idle : (r.queue j).drain = (r.queue j, .idle)) :
    r.drain j = notified j (r.setQueue j (r.queue j)) := by
  simp only [Rehearsal.drain, idle, List.partition_eq_filter_filter]
  rfl

theorem drain_busy (busy : (r.queue j).drain = (r.queue j, .busy)) :
    r.drain j = r.setQueue j (r.queue j) := by
  simp only [Rehearsal.drain, busy]

theorem drain_started {q : Queue Ticket} {ticket : Ticket}
    (started : (r.queue j).drain = (q, .started ticket)) :
    r.drain j = (r.setQueue j q).later (.start ticket) := by
  simp only [Rehearsal.drain, started]

theorem homes_setQueue {q : Queue Ticket}
    (homes : ∀ k, ∀ ticket ∈ (r.queue k).waiting, ticket.job.home = k)
    (own : ∀ ticket ∈ q.waiting, ticket.job.home = j) :
    ∀ k, ∀ ticket ∈ ((r.setQueue j q).queue k).waiting, ticket.job.home = k := by
  intro k ticket member
  by_cases same : j = k
  · subst same
    by_cases known : j < r.queues.length
    · rw [queue_setQueue_self known] at member
      exact own ticket member
    · rw [setQueue_unknown known] at member
      exact homes j ticket member
  · rw [queue_setQueue_other same] at member
    exact homes k ticket member

theorem mirrors_setQueue {q : Queue Ticket} (m : Mirrors i extra r s) (other : j ≠ i)
    (own : ∀ ticket ∈ q.waiting, ticket.job.home = j) : Mirrors i extra (r.setQueue j q) s :=
  ⟨by simpa [Rehearsal.setQueue] using m.known, homes_setQueue m.homes own,
    m.queue.trans (queue_setQueue_other other q).symm, m.tasks, m.calls⟩

theorem mirrors_later {t : Queue.Turn} (m : Mirrors i (turnStage i t + extra) r s)
    (other : looksAt i t = false) : Mirrors i extra (r.later t) s := by
  obtain ⟨known, homes, queue, tasks, looking, parked, watched⟩ := m
  refine ⟨known, homes, queue, ?_, looking, parked, watched_later watched other⟩
  rw [tasks, stages_later]
  ac_rfl

theorem mirrors_drain_other (m : Mirrors i extra r s) (other : j ≠ i) :
    Mirrors i extra (r.drain j) s := by
  have stay := mirrors_setQueue m other (m.homes j)
  rcases drain_cases (r.queue j) with ⟨_, drained⟩ | ⟨_, _, drained⟩ |
    ⟨ticket, rest, _, waiting, drained⟩
  · rw [drain_busy drained]
    exact stay
  · rw [drain_idle drained]
    obtain ⟨known, homes, queue, tasks, looking, parked, watched⟩ := stay
    exact ⟨known, homes, queue, by rw [tasks, stages_notified], looking, parked,
      watched_elsewhere watched (Ne.symm other)⟩
  · rw [drain_started drained]
    have homes : ∀ t ∈ (r.queue j).waiting, t.job.home = j := m.homes j
    rw [waiting] at homes
    have home := homes ticket List.mem_cons_self
    refine mirrors_later ?_ rfl
    simp only [turnStage, home, other, if_false, zero_add]
    exact mirrors_setQueue m other fun t member => homes t (List.mem_cons_of_mem _ member)

theorem mirrors_drain (m : Mirrors i ({.drain} + extra) r s) :
    ∃ s', Reaches s s' ∧ Mirrors i extra (r.drain i) s' := by
  obtain ⟨known, homes, queue, tasks, looking, parked, watched⟩ := m
  rw [add_assoc] at tasks
  obtain ⟨task, others, due, stage, rest⟩ := due_of_stage tasks
  cases stage_drain stage
  have turn := Turn.drain others due
  rw [queue] at turn
  have known_still (q : Queue Ticket) : i < (r.setQueue i q).queues.length := by
    simpa [Rehearsal.setQueue] using known
  rcases drain_cases (r.queue i) with ⟨_, drained⟩ | ⟨_, _, drained⟩ |
    ⟨ticket, waiting, _, before, drained⟩
  · rw [drain_busy drained]
    rw [drained] at turn
    refine ⟨_, .single turn, known_still _, homes_setQueue homes (homes i),
      (queue_setQueue_self known _).symm, ?_, looking, parked, watched⟩
    simpa [Drained.tasks] using rest
  · rw [drain_idle drained]
    rw [drained] at turn
    have drains : Reaches s _ := .single turn
    have told := drains.tail (.notify others rfl (fun j => (s.watchers j).isEnabled)
      fun _ enabled => enabled)
    refine ⟨_, told, known_still _, homes_setQueue homes (homes i),
      (queue_setQueue_self known _).symm, ?_, looking ++ parked, [], ?_⟩
    · simpa [stages_notified] using rest
    · exact watched_told watched
  · rw [drain_started drained]
    rw [drained] at turn
    have own := homes i
    rw [before] at own
    have home := own ticket List.mem_cons_self
    refine ⟨_, .single turn, mirrors_later
      ⟨known_still _, ?_, ?_, ?_, looking, parked, watched⟩ rfl⟩
    · exact homes_setQueue homes fun t member => own t (List.mem_cons_of_mem _ member)
    · exact (queue_setQueue_self known _).symm
    · simpa [Drained.tasks, Task.stage, turnStage, home] using rest

theorem push_mem {q : Queue Ticket} {entrance : Entrance} {ticket other : Ticket}
    (member : other ∈ (q.push entrance ticket).waiting) : other = ticket ∨ other ∈ q.waiting := by
  cases entrance
  · simpa [Queue.push, or_comm] using member
  · simpa [Queue.push] using member

theorem mirrors_submit (m : Mirrors i extra r s) (job : Job) :
    ∃ s', Reaches s s' ∧ Mirrors i extra (r.submit job) s' := by
  obtain ⟨r', ticket, built, own, m⟩ : ∃ r' ticket, r.build job = (r', ticket) ∧
      ticket.job = job ∧ Mirrors i extra r' s := by
    unfold Rehearsal.build
    split
    · exact ⟨_, _, rfl, rfl, m.known, m.homes, m.queue, m.tasks, m.calls⟩
    · exact ⟨_, _, rfl, rfl, m⟩
  have homes : ∀ t ∈ ((r'.queue job.home).push job.entrance ticket).waiting,
      t.job.home = job.home := by
    intro t member
    rcases push_mem member with rfl | before
    · rw [own]
    · exact m.homes _ t before
  have submitted : r.submit job = (r'.setQueue job.home
      ((r'.queue job.home).push job.entrance ticket)).drain job.home := by
    simp only [Rehearsal.submit, built]
  rw [submitted]
  by_cases home : job.home = i
  · rw [home] at homes ⊢
    obtain ⟨known, homes', queue, tasks, calls⟩ := m
    have called : Reaches s _ := .single (.call job.entrance ticket)
    have pushed := called.tail (.submit job.entrance ticket s.tasks rfl)
    have pending : Mirrors i ({.drain} + extra) (r'.setQueue i
        ((r'.queue i).push job.entrance ticket)) { s with
          queue := s.queue.push job.entrance ticket
          tasks := .drain ::ₘ s.tasks
          submitted := s.submitted ++ [(job.entrance, ticket)] } := by
      refine ⟨by simpa [Rehearsal.setQueue] using known, homes_setQueue homes' homes, ?_, ?_,
        calls⟩
      · rw [queue_setQueue_self known, ← queue]
      · rw [Multiset.map_cons, tasks, stages_setQueue, add_assoc]
        rfl
    obtain ⟨s', reached, m⟩ := mirrors_drain pending
    exact ⟨s', pushed.trans reached, m⟩
  · exact ⟨s, .refl, mirrors_drain_other (mirrors_setQueue m home homes) home⟩

theorem mirrors_submits (m : Mirrors i extra r s) (jobs : List Job) :
    ∃ s', Reaches s s' ∧ Mirrors i extra (jobs.foldl Rehearsal.submit r) s' := by
  induction jobs generalizing r s with
  | nil => exact ⟨s, .refl, m⟩
  | cons job jobs ih =>
    obtain ⟨s₁, reached, m⟩ := mirrors_submit m job
    obtain ⟨s', later, m⟩ := ih m
    exact ⟨s', reached.trans later, m⟩

theorem mirrors_proceed {ticket : Ticket} (m : Mirrors i (haltStage i ticket) r s) :
    ∃ s', Reaches s s' ∧ Mirrors i 0 (r.proceed ticket.job) s' := by
  obtain ⟨s₁, reached, known, homes, queue, tasks, calls⟩ := mirrors_submits m ticket.job.submits
  by_cases home : ticket.job.home = i
  · simp only [haltStage, home, if_true] at tasks
    obtain ⟨task, others, due, stage, rest⟩ := due_of_stage tasks
    cases stage_execute stage
    refine ⟨_, reached.tail (.execute ticket .succeeded others due), mirrors_later ?_ rfl⟩
    refine ⟨known, homes, queue, ?_, calls⟩
    simp only [turnStage, home, if_true, Multiset.map_cons, rest, add_zero]
    rfl
  · simp only [haltStage, home, if_false] at tasks
    refine ⟨s₁, reached, mirrors_later ?_ rfl⟩
    simp only [turnStage, home, if_false, add_zero]
    exact ⟨known, homes, queue, tasks, calls⟩

variable {turn : Queue.Turn} {rest : List Queue.Turn}

theorem mirrors_taken (m : Mirrors i 0 { r with turns := turn :: rest } s)
    (other : looksAt i turn = false) :
    Mirrors i (turnStage i turn) { r with turns := rest } s := by
  obtain ⟨known, homes, queue, tasks, looking, parked, distinct, looks, parks, enter, park,
    fresh⟩ := m
  refine ⟨known, homes, queue, ?_, looking, parked, distinct, ?_, parks, enter, park, fresh⟩
  · rw [tasks, stages, stages, zero_add, ← add_assoc, ← Multiset.cons_coe, Multiset.cons_bind]
  · rw [looks, List.countP_cons_of_neg (by simp [other])]

theorem mirrors_begin {ticket : Ticket} (m : Mirrors i (turnStage i (.begin ticket)) r s) :
    ∃ s', Reaches s s' ∧ Mirrors i 0 (r.take (.begin ticket)) s' := by
  have begun : ∃ s', Reaches s s' ∧ Mirrors i (haltStage i ticket)
      (r.tell ticket.job.home ("start " ++ ticket.job.name)) s' := by
    by_cases home : ticket.job.home = i
    · obtain ⟨known, homes, queue, tasks, calls⟩ := m
      simp only [turnStage, home, if_true] at tasks
      obtain ⟨task, others, due, stage, rest⟩ := due_of_stage tasks
      cases stage_launch stage
      refine ⟨_, .single (.launch ticket others due), known, homes, queue, ?_, calls⟩
      simp only [haltStage, home, if_true, Multiset.map_cons, rest]
      rfl
    · simp only [turnStage, home, if_false] at m
      refine ⟨s, .refl, m.known, m.homes, m.queue, m.tasks.trans ?_, m.calls⟩
      simp only [haltStage, home, if_false]
      rfl
  obtain ⟨s₁, reached, m⟩ := begun
  simp only [Rehearsal.take]
  split
  · obtain ⟨s', later, m⟩ := mirrors_proceed m
    exact ⟨s', reached.trans later, m⟩
  · refine ⟨s₁, reached, m.known, m.homes, m.queue, ?_, m.calls⟩
    rw [m.tasks, stages, stages, coe_snoc, Multiset.add_bind, Multiset.singleton_bind]
    ac_rfl

theorem mirrors_finish (m : Mirrors i (turnStage i (.finish j)) r s) :
    ∃ s', Reaches s s' ∧ Mirrors i 0 (r.take (.finish j)) s' := by
  have homes : ∀ t ∈ (r.queue j).finish.waiting, t.job.home = j := m.homes j
  by_cases own : j = i
  · subst own
    obtain ⟨known, homes', queue, tasks, calls⟩ := m
    simp only [turnStage, if_true] at tasks
    obtain ⟨task, others, due, stage, rest⟩ := due_of_stage tasks
    obtain ⟨ticket, outcome, rfl⟩ := stage_mark stage
    have marked : Reaches s _ := .single (.mark ticket outcome others due)
    have pending : Mirrors j ({.drain} + 0) (r.setQueue j (r.queue j).finish) { s with
        queue := s.queue.finish
        tasks := .drain ::ₘ others
        ended := s.ended ++ [(ticket, outcome)] } := by
      refine ⟨by simpa [Rehearsal.setQueue] using known, homes_setQueue homes' homes, ?_, ?_,
        calls⟩
      · rw [queue_setQueue_self known, ← queue]
      · rw [Multiset.map_cons, rest, stages_setQueue, add_zero]
        rfl
    obtain ⟨s', drained, m⟩ := mirrors_drain pending
    exact ⟨s', marked.trans drained, m⟩
  · simp only [turnStage, own, if_false] at m
    exact ⟨s, .refl, mirrors_drain_other (mirrors_setQueue m own homes) own⟩

theorem watch_looks {k : Nat} {next : Watcher}
    (enter : s.watchers k = .entered false ∨ s.watchers k = .parked true)
    (seen : (Watcher.enabled false).step s.queue.isIdle = some next) :
    Reaches s { s with watchers := Function.update s.watchers k next } := by
  have enters : Reaches s { s with watchers := Function.update s.watchers k (.entered false) } := by
    rcases enter with phase | phase
    · rw [← phase, Function.update_eq_self]
    · exact .single (.watch k (.entered false) (by rw [phase]; rfl))
  have enables := enters.tail (.watch k (.enabled false) (by simp [Watcher.step]))
  have looks := enables.tail (.watch k next (by simpa using seen))
  simpa [Function.update_idem] using looks

section
variable {turns : List Queue.Turn} {watchers : List (Nat × String)} {w : Nat → Watcher}
  {looking parked : List Nat} {k : Nat} {name : String}

theorem watched_moves (next : Watcher) (apart : k ∉ looking ++ parked)
    (enter : ∀ l ∈ looking, w l = .entered false ∨ w l = .parked true)
    (park : ∀ l ∈ parked, w l = .parked false) (fresh : ∃ bound, ∀ l, bound ≤ l → w l = .absent) :
    (∀ l ∈ looking, Function.update w k next l = .entered false ∨
        Function.update w k next l = .parked true) ∧
      (∀ l ∈ parked, Function.update w k next l = .parked false) ∧
      ∃ bound, ∀ l, bound ≤ l → Function.update w k next l = .absent := by
  have other (l : Nat) (member : l ∈ looking ++ parked) : l ≠ k := fun same => apart (same ▸ member)
  obtain ⟨bound, fresh⟩ := fresh
  refine ⟨fun l member => ?_, fun l member => ?_, max bound (k + 1), fun l le => ?_⟩
  · rw [Function.update_of_ne (other l (List.mem_append_left _ member))]
    exact enter l member
  · rw [Function.update_of_ne (other l (List.mem_append_right _ member))]
    exact park l member
  · rw [Function.update_of_ne (by omega)]
    exact fresh l (by omega)

theorem watched_enters
    (watched : Watched i turns watchers w looking parked) (absent : w k = .absent) :
    Watched i (turns ++ [.look i name]) watchers (Function.update w k (.entered false))
      (k :: looking) parked := by
  obtain ⟨distinct, looks, parks, enter, park, fresh⟩ := watched
  have apart : k ∉ looking ++ parked := by
    intro member
    rcases List.mem_append.mp member with looked | left
    · rcases enter k looked with phase | phase <;> simp [absent] at phase
    · simpa [absent] using park k left
  obtain ⟨enter, park, fresh⟩ := watched_moves (.entered false) apart enter park fresh
  refine ⟨List.nodup_cons.mpr ⟨apart, distinct⟩, ?_, parks, ?_, park, fresh⟩
  · simp [looks, looksAt]
  · exact List.forall_mem_cons.mpr ⟨Or.inl (Function.update_self ..), enter⟩

theorem watched_returns
    (watched : Watched i (.look i name :: turns) watchers w (k :: looking) parked) :
    Watched i turns watchers (Function.update w k .returned) looking parked := by
  obtain ⟨distinct, looks, parks, enter, park, fresh⟩ := watched
  obtain ⟨apart, distinct⟩ := List.nodup_cons.mp distinct
  obtain ⟨enter, park, fresh⟩ := watched_moves .returned apart
    (fun l member => enter l (List.mem_cons_of_mem _ member)) park fresh
  refine ⟨distinct, ?_, parks, enter, park, fresh⟩
  simpa [looksAt] using looks

theorem watched_parks
    (watched : Watched i (.look i name :: turns) watchers w (k :: looking) parked) :
    Watched i turns (watchers ++ [(i, name)]) (Function.update w k (.parked false)) looking
      (k :: parked) := by
  obtain ⟨distinct, looks, parks, enter, park, fresh⟩ := watched
  obtain ⟨apart, _⟩ := List.nodup_cons.mp distinct
  obtain ⟨enter, park, fresh⟩ := watched_moves (.parked false) apart
    (fun l member => enter l (List.mem_cons_of_mem _ member)) park fresh
  refine ⟨List.nodup_middle.mpr distinct, ?_, ?_, enter, ?_, fresh⟩
  · simpa [looksAt] using looks
  · simp [parks]
  · exact List.forall_mem_cons.mpr ⟨Function.update_self .., park⟩

theorem watched_passes (other : j ≠ i)
    (watched : Watched i (.look j name :: turns) watchers w looking parked) :
    Watched i turns watchers w looking parked ∧
      Watched i turns (watchers ++ [(j, name)]) w looking parked := by
  obtain ⟨distinct, looks, parks, enter, park, fresh⟩ := watched
  rw [List.countP_cons_of_neg (by simp [looksAt, other])] at looks
  exact ⟨⟨distinct, looks, parks, enter, park, fresh⟩,
    distinct, looks, by simp [parks, other], enter, park, fresh⟩

end

theorem stages_look {name : String} :
    stages i { r with turns := .look j name :: rest } = stages i { r with turns := rest } := by
  rw [stages, stages, ← Multiset.cons_coe, Multiset.cons_bind, turnStage, zero_add]

theorem mirrors_look {name : String}
    (m : Mirrors i 0 { r with turns := .look j name :: rest } s) :
    ∃ s', Reaches s s' ∧
      Mirrors i 0 (Rehearsal.take { r with turns := rest } (.look j name)) s' := by
  obtain ⟨known, homes, queue, tasks, looking, parked, watched⟩ := m
  have queue : s.queue = r.queue i := queue
  rw [stages_look] at tasks
  simp only [Rehearsal.take]
  by_cases own : j = i
  · subst own
    obtain ⟨k, looking, rfl⟩ : ∃ k looking', looking = k :: looking' := by
      refine List.exists_cons_of_length_pos ?_
      rw [watched.looks, List.countP_cons_of_pos (by simp [looksAt])]
      exact Nat.succ_pos _
    have enter := watched.enter k List.mem_cons_self
    have same : Rehearsal.queue { r with turns := rest } j = r.queue j := rfl
    rw [same]
    cases idle : (r.queue j).isIdle with
    | true =>
      have looks := watch_looks enter (by rw [queue, idle]; rfl)
      exact ⟨_, looks, known, homes, queue, tasks, _, _, watched_returns watched⟩
    | false =>
      have looks := watch_looks enter (by rw [queue, idle]; rfl)
      exact ⟨_, looks, known, homes, queue, tasks, _, _, watched_parks watched⟩
  · obtain ⟨stays, adds⟩ := watched_passes own watched
    refine ⟨s, .refl, ?_⟩
    split
    · exact ⟨known, homes, queue, tasks, _, _, stays⟩
    · exact ⟨known, homes, queue, tasks, _, _, adds⟩

theorem mirrors_take (m : Mirrors i 0 { r with turns := turn :: rest } s) :
    ∃ s', Reaches s s' ∧ Mirrors i 0 (Rehearsal.take { r with turns := rest } turn) s' := by
  cases turn with
  | start ticket =>
    have taken := mirrors_taken m rfl
    refine ⟨s, .refl, mirrors_later ?_ rfl⟩
    rwa [add_zero]
  | «begin» ticket => exact mirrors_begin (mirrors_taken m rfl)
  | proceed ticket => exact mirrors_proceed (mirrors_taken m rfl)
  | finish j => exact mirrors_finish (mirrors_taken m rfl)
  | look j name => exact mirrors_look m

theorem mirrors_takeAll (m : Mirrors i 0 r s) (fuel : Nat) :
    ∃ s', Reaches s s' ∧ Mirrors i 0 (Rehearsal.takeAll fuel r) s' := by
  induction fuel generalizing r s with
  | zero => exact ⟨s, .refl, m⟩
  | succ fuel ih =>
    rw [Rehearsal.takeAll]
    split
    · exact ⟨s, .refl, m⟩
    · rename_i turn rest due
      have here : r = { r with turns := turn :: rest } := by rw [← due]
      rw [here] at m
      obtain ⟨s₁, reached, m⟩ := mirrors_take m
      obtain ⟨s', later, m⟩ := ih m
      exact ⟨s', reached.trans later, m⟩

theorem mirrors_waitIdle (m : Mirrors i 0 r s) (name : String) :
    ∃ s', Reaches s s' ∧ Mirrors i 0 (r.waitIdle j name) s' := by
  by_cases own : j = i
  · subst own
    obtain ⟨known, homes, queue, tasks, looking, parked, watched⟩ := m
    obtain ⟨bound, fresh⟩ := watched.fresh
    have absent := fresh bound (Nat.le_refl bound)
    refine ⟨_, .single (.watch bound (.entered false) (by rw [absent]; rfl)), known, homes, queue,
      ?_, bound :: looking, parked, watched_enters watched absent⟩
    rw [tasks, Rehearsal.waitIdle, stages_later]
    simp [turnStage]
  · refine ⟨s, .refl, mirrors_later ?_ (by simp [looksAt, own])⟩
    simpa [turnStage] using m

theorem stages_freed (freed : Ticket → Bool) (halted : List Ticket) :
    (halted : Multiset Ticket).bind (haltStage i) =
      ((halted.filter freed).map Queue.Turn.proceed : Multiset Queue.Turn).bind (turnStage i) +
        (halted.filter fun t => !freed t : Multiset Ticket).bind (haltStage i) := by
  have stage : (fun t => turnStage i (.proceed t)) = haltStage i := rfl
  rw [← Multiset.map_coe, Multiset.bind_map, stage, ← Multiset.add_bind, Multiset.coe_add]
  rw [Multiset.coe_eq_coe.mpr (List.filter_append_perm freed halted)]

theorem mirrors_release {r' : Rehearsal} {name : String} (m : Mirrors i 0 r s)
    (released : r.release? name = some r') : Mirrors i 0 r' s := by
  unfold Rehearsal.release? at released
  split at released
  · cases released
  · rename_i gate _
    split at released
    · cases released
    · simp only [List.partition_eq_filter_filter, Option.some.injEq] at released
      subst released
      obtain ⟨known, homes, queue, tasks, looking, parked, watched⟩ := m
      obtain ⟨distinct, looks, parks, enter, park, fresh⟩ := watched
      refine ⟨known, homes, queue, tasks.trans ?_, looking, parked, distinct, ?_, parks, enter,
        park, fresh⟩
      · rw [stages, stages, zero_add, zero_add, stages_freed fun t => t.gate == some gate,
          ← Multiset.coe_add, Multiset.add_bind, add_assoc]
        rfl
      · simp [looks, List.countP_map, Function.comp_def, looksAt]

inductive Rehearsed : Rehearsal → Prop where
  | fresh : Rehearsed {}
  | submit {r : Rehearsal} (before : Rehearsed r) (job : Job) : Rehearsed (r.submit job)
  | waitIdle {r : Rehearsal} (before : Rehearsed r) (i : Nat) (name : String) :
      Rehearsed (r.waitIdle i name)
  | release {r r' : Rehearsal} (before : Rehearsed r) (name : String)
      (released : r.release? name = some r') : Rehearsed r'
  | takeAll {r : Rehearsal} (before : Rehearsed r) (fuel : Nat) :
      Rehearsed (Rehearsal.takeAll fuel r)
  | reported {r : Rehearsal} (before : Rehearsed r) : Rehearsed r.reported

theorem mirrors_fresh (known : i < 2) : Mirrors i 0 {} {} := by
  have nothing (j : Nat) : Rehearsal.queue {} j = {} := by
    match j with
    | 0 | 1 | j + 2 => rfl
  refine ⟨known, fun j ticket member => ?_, (nothing i).symm, rfl, [], [], ?_⟩
  · rw [nothing] at member
    cases member
  · exact ⟨List.nodup_nil, rfl, rfl, nofun, nofun, 0, fun _ _ => rfl⟩

/-- Each queue of a rehearsal is as far as a shared queue can come. -/
theorem rehearsed_reaches (rehearsed : Rehearsed r) (known : i < 2) :
    ∃ s, Reaches {} s ∧ Mirrors i 0 r s := by
  induction rehearsed with
  | fresh => exact ⟨{}, .refl, mirrors_fresh known⟩
  | submit _ job ih =>
    obtain ⟨s, reached, m⟩ := ih
    obtain ⟨s', later, m⟩ := mirrors_submit m job
    exact ⟨s', reached.trans later, m⟩
  | waitIdle _ j name ih =>
    obtain ⟨s, reached, m⟩ := ih
    obtain ⟨s', later, m⟩ := mirrors_waitIdle m name
    exact ⟨s', reached.trans later, m⟩
  | release _ name released ih =>
    obtain ⟨s, reached, m⟩ := ih
    exact ⟨s, reached, mirrors_release m released⟩
  | takeAll _ fuel ih =>
    obtain ⟨s, reached, m⟩ := ih
    obtain ⟨s', later, m⟩ := mirrors_takeAll m fuel
    exact ⟨s', reached.trans later, m⟩
  | reported _ ih =>
    obtain ⟨s, reached, m⟩ := ih
    exact ⟨s, reached, m.known, m.homes, m.queue, m.tasks, m.calls⟩

/-- When all turns are taken and no job of a queue stands at its gate, the queue is idle and nobody
waits for that any more. -/
theorem settled_idle (rehearsed : Rehearsed r) (known : i < 2) (settled : r.turns = [])
    (free : ∀ ticket ∈ r.halted, ticket.job.home ≠ i) :
    (r.queue i).isIdle = true ∧ ∀ w ∈ r.watchers, w.1 ≠ i := by
  obtain ⟨s, reached, m⟩ := rehearsed_reaches rehearsed known
  have none : s.tasks = 0 := by
    have elsewhere : (r.halted : Multiset Ticket).bind (haltStage i) = 0 :=
      (Multiset.bind_congr fun ticket member => if_neg (free ticket member)).trans
        (Multiset.bind_zero _)
    rw [← Multiset.map_eq_zero (f := Task.stage), m.tasks, stages, settled, elsewhere]
    rfl
  have held : s.held = 0 := by rw [System.held, none, Multiset.zero_bind]
  have wakeful := reached_wakeful reached
  have empty : s.queue.waiting = [] := by
    by_contra some
    rcases wakeful.served some with busy | pending
    · exact busy held
    · simp [none] at pending
  have stopped : s.queue.running = false := by
    have running := running_iff (sound_reaches sound_fresh reached)
    exact Bool.eq_false_iff.mpr fun active => running.mp active held
  refine ⟨m.queue ▸ (idle_iff s.queue).mpr ⟨stopped, empty⟩, ?_⟩
  have quiet : Quiet s := ⟨held, empty, by simp [none], by simp [none]⟩
  obtain ⟨looking, parked, watched⟩ := m.calls
  have nobody : parked = [] := by
    refine List.eq_nil_iff_forall_not_mem.mpr fun j member => ?_
    exact wakeful.woken quiet j (watched.park j member)
  have parks := watched.parks
  rw [nobody, List.length_nil, eq_comm, List.countP_eq_zero] at parks
  exact fun w member here => parks w member (beq_iff_eq.mpr here)

end

end StepFlow.Queue.Shared
