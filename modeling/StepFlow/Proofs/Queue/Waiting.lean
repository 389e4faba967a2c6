import StepFlow.Proofs.Queue.Interleaving

/-!
No job and no call is forgotten. Where jobs wait, one is held or a drain is pending, so the next one
is taken; where a call is parked, the same holds, or a notification is pending that will reach it.
For a call is enabled before it looks at the queue: whatever ends behind its look finds it enabled,
and whatever ended before is seen by it. A call returns only from a look at an idle queue.
-/
namespace StepFlow.Queue.Shared

variable {α : Type}

theorem step_parked {w : Watcher} {idle told : Bool} (made : w.step idle = some (.parked told)) :
    w = .enabled told ∧ idle = false := by
  unfold Watcher.step at made
  split at made <;> cases idle <;> simp_all

theorem step_returned {w : Watcher} {idle : Bool} (made : w.step idle = some .returned) :
    (∃ told, w = .enabled told) ∧ idle = true := by
  unfold Watcher.step at made
  split at made <;> cases idle <;> simp_all

theorem tell_not_parked (w : Watcher) : w.tell ≠ .parked false := by
  cases w <;> simp [Watcher.tell]

theorem tell_returned {w : Watcher} (told : w.tell = .returned) : w = .returned := by
  cases w <;> simp_all [Watcher.tell]

theorem idle_iff (q : Queue α) : q.isIdle = true ↔ q.running = false ∧ q.waiting = [] := by
  simp [Queue.isIdle]

/-- Jobs that wait are served, and a call that is parked will be told. -/
structure Attended (s : System α) : Prop where
  jobs : s.queue.waiting ≠ [] → s.queue.running = true ∨ .drain ∈ s.tasks
  calls : ∀ i, s.watchers i = .parked false →
    s.queue.running = true ∨ .drain ∈ s.tasks ∨ .notify ∈ s.tasks

theorem attended_fresh : Attended ({} : System α) :=
  ⟨fun some => absurd rfl some, fun _ parked => by cases parked⟩

section
variable {s s' : System α} {others : Multiset (Task α)}

theorem attended_pending (pending : .drain ∈ s.tasks) : Attended s :=
  ⟨fun _ => Or.inr pending, fun _ _ => Or.inr (Or.inl pending)⟩

theorem attended_next (attended : Attended s) {task next : Task α}
    (due : s.tasks = task ::ₘ others) (no_drain : task ≠ .drain) (no_notify : task ≠ .notify)
    (begun : List α) : Attended { s with tasks := next ::ₘ others, begun := begun } := by
  obtain ⟨jobs, calls⟩ := attended
  rw [due] at jobs calls
  simp only [Multiset.mem_cons, Ne.symm no_drain, Ne.symm no_notify, false_or] at jobs calls
  refine ⟨fun some => (jobs some).imp_right Multiset.mem_cons_of_mem, fun i parked => ?_⟩
  exact (calls i parked).imp_right (Or.imp Multiset.mem_cons_of_mem Multiset.mem_cons_of_mem)

theorem attended_drain :
    Attended { s with
      queue := s.queue.drain.1
      tasks := Drained.tasks s.queue.drain.2 + others } := by
  rcases drain_cases s.queue with ⟨running, drained⟩ | ⟨_, empty, drained⟩ |
    ⟨job, rest, _, _, drained⟩
  · rw [drained]
    exact ⟨fun _ => Or.inl running, fun _ _ => Or.inl running⟩
  · rw [drained]
    refine ⟨fun some => absurd empty some, fun _ _ => Or.inr (Or.inr ?_)⟩
    simp [Drained.tasks]
  · rw [drained]
    exact ⟨fun _ => Or.inl rfl, fun _ _ => Or.inl rfl⟩

theorem attended_notify (attended : Attended s) (due : s.tasks = .notify ::ₘ others)
    {reached : Nat → Bool} (enabled : ∀ i, (s.watchers i).isEnabled = true → reached i = true) :
    Attended { s with
      tasks := others
      watchers := fun i => if reached i then (s.watchers i).tell else s.watchers i } := by
  refine ⟨fun some => ?_, fun i parked => ?_⟩
  · have pending := attended.jobs some
    simpa [due] using pending
  · dsimp only at parked
    split at parked
    · exact absurd parked (tell_not_parked _)
    · rename_i missed
      exact absurd (enabled i (by rw [parked]; rfl)) missed

theorem attended_watch (attended : Attended s) {i : Nat} {next : Watcher}
    (made : (s.watchers i).step s.queue.isIdle = some next) :
    Attended { s with watchers := Function.update s.watchers i next } := by
  refine ⟨attended.jobs, fun j parked => ?_⟩
  by_cases own : j = i
  · subst own
    simp only [Function.update_self] at parked
    subst parked
    have busy : ¬ (s.queue.running = false ∧ s.queue.waiting = []) := by
      rw [← idle_iff, (step_parked made).2]
      exact Bool.false_ne_true
    cases running : s.queue.running with
    | true => exact Or.inl rfl
    | false =>
      have some : s.queue.waiting ≠ [] := fun empty => busy ⟨running, empty⟩
      rcases attended.jobs some with other | pending
      · exact Or.inl (running ▸ other)
      · exact Or.inr (Or.inl pending)
  · simp only [Function.update_of_ne own] at parked
    exact attended.calls j parked

/-- Every turn leaves somebody to serve the jobs and to tell the calls that wait. -/
theorem attended_turn (attended : Attended s) (turn : Turn s s') : Attended s' := by
  cases turn with
  | call entrance job =>
    obtain ⟨jobs, calls⟩ := attended
    exact ⟨fun some => (jobs some).imp_right Multiset.mem_cons_of_mem, fun i parked =>
      (calls i parked).imp_right (Or.imp Multiset.mem_cons_of_mem Multiset.mem_cons_of_mem)⟩
  | submit entrance job others due => exact attended_pending (Multiset.mem_cons_self _ _)
  | drain others due => exact attended_drain
  | launch job others due => exact attended_next attended due nofun nofun _
  | execute job outcome others due => exact attended_next attended due nofun nofun s.begun
  | mark job outcome others due => exact attended_pending (Multiset.mem_cons_self _ _)
  | notify others due reached enabled => exact attended_notify attended due enabled
  | watch i next made => exact attended_watch attended made
  | leave i waits =>
    refine ⟨attended.jobs, fun j parked => ?_⟩
    by_cases own : j = i
    · subst own
      simp at parked
    · simp only [Function.update_of_ne own] at parked
      exact attended.calls j parked

theorem attended_reaches (attended : Attended s) (reached : Reaches s s') : Attended s' := by
  induction reached with
  | refl => exact attended
  | tail _ turn ih => exact attended_turn ih turn

theorem returned_turn {i : Nat} (turn : Turn s s') (returned : s'.watchers i = .returned) :
    s.watchers i = .returned ∨
      (∃ told, s.watchers i = .enabled told) ∧ s.queue.isIdle = true := by
  cases turn with
  | call entrance job => exact Or.inl returned
  | submit entrance job others due => exact Or.inl returned
  | drain others due => exact Or.inl returned
  | launch job others due => exact Or.inl returned
  | execute job outcome others due => exact Or.inl returned
  | mark job outcome others due => exact Or.inl returned
  | notify others due reached enabled =>
    dsimp only at returned
    split at returned
    · exact Or.inl (tell_returned returned)
    · exact Or.inl returned
  | watch j next made =>
    by_cases own : i = j
    · subst own
      simp only [Function.update_self] at returned
      subst returned
      exact Or.inr (step_returned made)
    · simp only [Function.update_of_ne own] at returned
      exact Or.inl returned
  | leave j waits =>
    by_cases own : i = j
    · subst own
      simp at returned
    · simp only [Function.update_of_ne own] at returned
      exact Or.inl returned

end

/-- Nothing is held, nothing waits, and no drain and no notification is pending. -/
structure Quiet (s : System α) : Prop where
  free : s.held = 0
  empty : s.queue.waiting = []
  drained : .drain ∉ s.tasks
  notified : .notify ∉ s.tasks

abbrev Alone (i : Nat) : System α → System α → Prop :=
  Relation.ReflTransGen fun s s' => ∃ next, (s.watchers i).step s.queue.isIdle = some next ∧
    s' = { s with watchers := Function.update s.watchers i next }

section
variable {s : System α} {i : Nat}

theorem alone_enabled {told : Bool} (idle : s.queue.isIdle = true)
    (phase : s.watchers i = .enabled told) :
    ∃ s', Alone i s s' ∧ s'.watchers i = .returned := by
  refine ⟨_, .single ⟨.returned, ?_, rfl⟩, Function.update_self ..⟩
  simp [phase, idle, Watcher.step]

theorem alone_entered {told : Bool} (idle : s.queue.isIdle = true)
    (phase : s.watchers i = .entered told) :
    ∃ s', Alone i s s' ∧ s'.watchers i = .returned := by
  have enabled : Alone i s _ := .single ⟨.enabled told, by simp [phase, Watcher.step], rfl⟩
  obtain ⟨s', alone, returned⟩ := alone_enabled (s := { s with
    watchers := Function.update s.watchers i (.enabled told) }) idle (Function.update_self ..)
  exact ⟨s', enabled.trans alone, returned⟩

theorem alone_told (idle : s.queue.isIdle = true) (phase : s.watchers i = .parked true) :
    ∃ s', Alone i s s' ∧ s'.watchers i = .returned := by
  have entered : Alone i s _ := .single ⟨.entered false, by simp [phase, Watcher.step], rfl⟩
  obtain ⟨s', alone, returned⟩ := alone_entered (s := { s with
    watchers := Function.update s.watchers i (.entered false) }) idle (Function.update_self ..)
  exact ⟨s', entered.trans alone, returned⟩

end

/-- What jobs and calls can rely on at a queue that has come this far. Where nothing is left that
tells a call, none is parked untold, which is all that `woken` speaks of. A call that is enabled
and has not looked yet is covered by `returns`: it needs nobody else to return, as every call that
is under way there. -/
structure Wakeful (s : System α) : Prop where
  served : s.queue.waiting ≠ [] → s.held ≠ 0 ∨ .drain ∈ s.tasks
  woken : Quiet s → ∀ i, s.watchers i ≠ .parked false
  returns : Quiet s → ∀ i, s.watchers i ≠ .absent →
    ∃ s', Alone i s s' ∧ s'.watchers i = .returned

theorem reached_wakeful {s : System α} (reached : Reaches {} s) : Wakeful s := by
  have attended := attended_reaches attended_fresh reached
  have running := running_iff (sound_reaches sound_fresh reached)
  -- a call parks only while something is left that tells it
  have woken : Quiet s → ∀ i, s.watchers i ≠ .parked false := by
    rintro ⟨free, _, drained, notified⟩ i parked
    rcases attended.calls i parked with active | pending | pending
    · exact running.mp active free
    · exact drained pending
    · exact notified pending
  refine ⟨fun some => (attended.jobs some).imp_left running.mp, woken, ?_⟩
  intro quiet i under_way
  have stopped : s.queue.running = false :=
    Bool.eq_false_iff.mpr fun active => running.mp active quiet.free
  have idle := (idle_iff s.queue).mpr ⟨stopped, quiet.empty⟩
  cases phase : s.watchers i with
  | absent => exact absurd phase under_way
  | entered told => exact alone_entered idle phase
  | enabled told => exact alone_enabled idle phase
  | parked told =>
    cases told with
    | true => exact alone_told idle phase
    | false => exact absurd phase (woken quiet i)
  | returned => exact ⟨s, .refl, phase⟩

/-- The states of a queue from its beginning on, one turn after the other. -/
structure History (α : Type) where
  state : Nat → System α
  fresh : state 0 = {}
  next : ∀ n, state (n + 1) = state n ∨ Turn (state n) (state (n + 1))

namespace History

variable (h : History α)

theorem reaches (n : Nat) : Reaches {} (h.state n) := by
  induction n with
  | zero =>
    rw [h.fresh]
  | succ n ih =>
    rcases h.next n with same | turn
    · rwa [same]
    · exact ih.tail turn

/-- Before the moment `n` the call has looked at the queue, and just then nothing was held and
nothing was waiting. -/
def SawIdle (i n : Nat) : Prop :=
  ∃ m < n, (∃ told, (h.state m).watchers i = .enabled told) ∧
    (h.state (m + 1)).watchers i = .returned ∧
    (h.state m).held = 0 ∧ (h.state m).queue.waiting = []

/-- A call returns only by a look at an idle queue. -/
theorem sawIdle_of_returned {i n : Nat} (returned : (h.state n).watchers i = .returned) :
    h.SawIdle i n := by
  induction n with
  | zero =>
    rw [h.fresh] at returned
    cases returned
  | succ n ih =>
    have earlier (before : (h.state n).watchers i = .returned) : h.SawIdle i (n + 1) := by
      obtain ⟨m, lt, seen⟩ := ih before
      exact ⟨m, Nat.lt_succ_of_lt lt, seen⟩
    rcases h.next n with same | turn
    · exact earlier (same ▸ returned)
    · rcases returned_turn turn returned with before | ⟨enabled, idle⟩
      · exact earlier before
      · obtain ⟨stopped, empty⟩ := (idle_iff _).mp idle
        have running := running_iff (sound_reaches sound_fresh (h.reaches n))
        have free : (h.state n).held = 0 := by
          by_contra some
          simp [stopped] at running
          exact some running
        exact ⟨n, Nat.lt_succ_self n, enabled, returned, free, empty⟩

theorem of_reaches {s : System α} (reached : Reaches {} s) :
    ∃ (h : History α) (n : Nat), h.state n = s := by
  induction reached with
  | refl => exact ⟨⟨fun _ => {}, rfl, fun _ => Or.inl rfl⟩, 0, rfl⟩
  | @tail s s' _ turn ih =>
    obtain ⟨h, n, here⟩ := ih
    refine ⟨⟨fun k => if k ≤ n then h.state k else s', by simp [h.fresh], fun k => ?_⟩, n + 1,
      by simp⟩
    rcases Nat.lt_trichotomy k n with before | rfl | behind
    · rw [if_pos (by omega), if_pos (by omega)]
      exact h.next k
    · rw [if_neg (Nat.not_succ_le_self k), if_pos (Nat.le_refl k), here]
      exact Or.inr turn
    · rw [if_neg (by omega), if_neg (by omega)]
      exact Or.inl rfl

end History

/-- The queue does not get stuck, no call misses its notification, and none returns from a queue
that was never idle while it looked. -/
theorem queue_wakeful :
    (∀ s : System α, Reaches {} s → Wakeful s) ∧
      ∀ (h : History α) (i n : Nat), (h.state n).watchers i = .returned → h.SawIdle i n :=
  ⟨fun _ => reached_wakeful, fun h _ _ => h.sawIdle_of_returned⟩

/-- A call parks while a job is executed, and returns after the job has panicked. -/
theorem panic_wakeful : ∃ s : System Nat, Reaches {} s ∧ s.ended = [(7, .panicked)] ∧
    Wakeful s ∧ ∃ (h : History Nat) (n : Nat), h.state n = s ∧
      (h.state n).watchers 0 = .returned ∧ h.SawIdle 0 n := by
  have called : Reaches {} ⟨⟨[], false⟩, .submit .back 7 ::ₘ 0, fun _ => .absent, [], [], []⟩ :=
    .single (.call .back 7)
  have pushed : Reaches {} ⟨⟨[7], false⟩, .drain ::ₘ 0, _, [(.back, 7)], [], []⟩ :=
    called.tail (.submit .back 7 0 rfl)
  have taken : Reaches {} ⟨⟨[], true⟩, .launch 7 ::ₘ 0, _, [(.back, 7)], [], []⟩ :=
    pushed.tail (.drain 0 rfl)
  have begun : Reaches {} ⟨⟨[], true⟩, .execute 7 ::ₘ 0, _, [(.back, 7)], [7], []⟩ :=
    taken.tail (.launch 7 0 rfl)
  have entered := begun.tail (.watch 0 (.entered false) rfl)
  have enabled := entered.tail (.watch 0 (.enabled false) rfl)
  have parked := enabled.tail (.watch 0 (.parked false) rfl)
  have failed : Reaches {} ⟨⟨[], true⟩, .mark 7 .panicked ::ₘ 0, _, [(.back, 7)], [7], []⟩ :=
    parked.tail (.execute 7 .panicked 0 rfl)
  have marked : Reaches {} ⟨⟨[], false⟩, .drain ::ₘ 0, _, [(.back, 7)], [7],
      [(7, .panicked)]⟩ := failed.tail (.mark 7 .panicked 0 rfl)
  have idle : Reaches {} ⟨⟨[], false⟩, .notify ::ₘ 0, _, [(.back, 7)], [7],
      [(7, .panicked)]⟩ := marked.tail (.drain 0 rfl)
  have told := idle.tail (.notify 0 rfl (fun _ => true) fun _ _ => rfl)
  have entered := told.tail (.watch 0 (.entered false) rfl)
  have enabled := entered.tail (.watch 0 (.enabled false) rfl)
  have returned := enabled.tail (.watch 0 .returned rfl)
  obtain ⟨h, n, here⟩ := History.of_reaches returned
  have at_end : (h.state n).watchers 0 = .returned := by
    rw [here]
    rfl
  exact ⟨_, returned, rfl, queue_wakeful.1 _ returned, h, n, here, at_end,
    queue_wakeful.2 h 0 n at_end⟩

end StepFlow.Queue.Shared
