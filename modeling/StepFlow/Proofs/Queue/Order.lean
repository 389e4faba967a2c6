import StepFlow.Proofs.Queue.Interleaving

/-!
The order in which jobs begin. Those that have begun, the one that was taken to begin next and those
that wait make up the schedule of a queue. A submission puts its job into it, at the end or before
all that wait; nothing else changes it, so that the order of two jobs in it stays. A job that is
executed goes on whatever is submitted, and nothing else begins or ends before it has ended.
-/
namespace StepFlow.Queue.Shared

variable {α : Type}

/-- The jobs in the order in which they begin, if nothing else is submitted. -/
noncomputable def System.schedule (s : System α) : List α :=
  s.begun ++ s.launched.toList ++ s.queue.waiting

def BegunFirst (begun : List α) (x y : α) : Prop := ∃ front, front <+: begun ∧ x ∈ front ∧ y ∉ front

def System.Executes (s : System α) (job : α) : Prop :=
  .execute job ∈ s.tasks ∨ ∃ outcome, .mark job outcome ∈ s.tasks

theorem begunFirst_asymm {begun : List α} {x y : α} (first : BegunFirst begun x y) :
    ¬ BegunFirst begun y x := by
  obtain ⟨front, early, own, other⟩ := first
  rintro ⟨front', early', own', other'⟩
  rcases List.prefix_or_prefix_of_prefix early early' with within | within
  · exact other' (within.subset own)
  · exact other (within.subset own')

theorem begunFirst_of_sublist {begun schedule : List α} {x y : α} (distinct : schedule.Nodup)
    (row : [x, y].Sublist schedule) (early : begun <+: schedule) (some : x ∈ begun ∨ y ∈ begun) :
    BegunFirst begun x y := by
  obtain ⟨front, rest, rfl, own, other⟩ := List.cons_sublist_iff.mp row
  have later : y ∉ front := fun twice =>
    (List.nodup_append.mp distinct).2.2 y twice y (List.singleton_sublist.mp other) rfl
  rcases List.prefix_or_prefix_of_prefix (List.prefix_append front rest) early with within | within
  · exact ⟨front, within, own, later⟩
  · have absent : y ∉ begun := fun member => later (within.subset member)
    exact ⟨begun, List.prefix_rfl, some.resolve_right absent, absent⟩

theorem pair_snoc {β : Type} {x y b : β} {l : List β} (row : [x, y].Sublist (l ++ [b])) :
    [x, y].Sublist l ∨ x ∈ l ∧ y = b := by
  obtain ⟨first, second, split, front, back⟩ := List.sublist_append_iff.mp row
  rcases List.sublist_singleton.mp back with rfl | rfl
  · exact Or.inl (by rwa [split, List.append_nil])
  · have halves : [x] ++ [y] = first ++ [b] := split
    obtain ⟨rfl, last⟩ := List.append_inj' halves rfl
    exact Or.inr ⟨List.singleton_sublist.mp front, (List.cons.inj last).1⟩

section
variable {s s' : System α} {others : Multiset (Task α)} {job : α}

theorem schedule_jobs (sound : Sound s) : (s.schedule : Multiset α) = s.jobs := by
  rw [sound.once, System.schedule, ← Multiset.coe_add, ← Multiset.coe_add, Multiset.coe_toList]
  ac_rfl

theorem idle_tasks {tasks : Multiset (Task α)} (idle : tasks.bind Task.held = 0) :
    ∀ task ∈ tasks, task.held = 0 := fun _ member =>
  Multiset.le_zero.mp (idle ▸ Multiset.le_bind tasks member)

theorem idle_launched {tasks : Multiset (Task α)} (idle : tasks.bind Task.held = 0) :
    tasks.bind Task.launched = 0 := by
  refine (Multiset.bind_congr fun task member => ?_).trans (Multiset.bind_zero tasks)
  have held := idle_tasks idle task member
  cases task with
  | launch job => exact held
  | _ => rfl

theorem held_alone (sound : Sound s) {task : Task α} (due : s.tasks = task ::ₘ others)
    (holds : task.held = {job}) : others.bind Task.held = 0 := by
  have single := sound.single
  rw [System.held, due, Multiset.cons_bind, holds, Multiset.card_add,
    Multiset.card_singleton] at single
  refine Multiset.card_eq_zero.mp ?_
  split at single <;> omega

theorem schedule_eq (begun : s'.begun = s.begun) (launched : s'.launched = s.launched) :
    s'.schedule = s.begun ++ s.launched.toList ++ s'.queue.waiting := by
  rw [System.schedule, begun, launched]

theorem drain_schedule (sound : Sound s) (due : s.tasks = .drain ::ₘ others) :
    ({ s with
      queue := s.queue.drain.1
      tasks := Drained.tasks s.queue.drain.2 + others } : System α).schedule = s.schedule ∧
      s.queue.drain.1.waiting <:+ s.queue.waiting := by
  rcases drain_cases s.queue with ⟨_, drained⟩ | ⟨_, _, drained⟩ |
    ⟨job, rest, stopped, waiting, drained⟩
  · rw [drained]
    refine ⟨schedule_eq rfl ?_, List.suffix_rfl⟩
    simp [System.launched, due, Drained.tasks, Task.launched]
  · rw [drained]
    refine ⟨schedule_eq rfl ?_, List.suffix_rfl⟩
    simp [System.launched, due, Drained.tasks, Task.launched]
  · have idle : s.tasks.bind Task.held = 0 := by
      have single := sound.single
      rw [stopped] at single
      exact Multiset.card_eq_zero.mp single
    have none : s.launched = 0 := idle_launched idle
    have others_none : others.bind Task.launched = 0 := by
      simpa [System.launched, due, Task.launched] using none
    rw [drained, waiting]
    refine ⟨?_, List.suffix_cons job rest⟩
    rw [System.schedule, System.schedule, none, waiting]
    simp [System.launched, Drained.tasks, Task.launched, others_none]

/-- Only a submission changes the schedule, and only among the jobs that wait. -/
theorem turn_schedule (sound : Sound s) (turn : Turn s s') :
    s'.submitted = s.submitted ∧ s'.schedule = s.schedule ∧
        s'.queue.waiting <:+ s.queue.waiting ∨
      ∃ entrance job, s'.submitted = s.submitted ++ [(entrance, job)] ∧
        s'.queue.waiting = (s.queue.push entrance job).waiting ∧
        s'.schedule = s.begun ++ s.launched.toList ++ (s.queue.push entrance job).waiting := by
  cases turn with
  | call entrance job =>
    have launched : (Task.submit entrance job ::ₘ s.tasks).bind Task.launched = s.launched := by
      simp [System.launched, Task.launched]
    exact Or.inl ⟨rfl, schedule_eq rfl launched, List.suffix_rfl⟩
  | submit entrance job others due =>
    have launched : (Task.drain ::ₘ others).bind Task.launched = s.launched := by
      simp [System.launched, due, Task.launched]
    exact Or.inr ⟨entrance, job, rfl, rfl, schedule_eq rfl launched⟩
  | drain others due =>
    obtain ⟨schedule, waiting⟩ := drain_schedule sound due
    exact Or.inl ⟨rfl, schedule, waiting⟩
  | launch job others due =>
    have none := idle_launched (held_alone sound due rfl)
    refine Or.inl ⟨rfl, ?_, List.suffix_rfl⟩
    simp [System.schedule, System.launched, due, Task.launched, none]
  | execute job outcome others due =>
    have launched : (Task.mark job outcome ::ₘ others).bind Task.launched = s.launched := by
      simp [System.launched, due, Task.launched]
    exact Or.inl ⟨rfl, schedule_eq rfl launched, List.suffix_rfl⟩
  | mark job outcome others due =>
    have launched : (Task.drain ::ₘ others).bind Task.launched = s.launched := by
      simp [System.launched, due, Task.launched]
    exact Or.inl ⟨rfl, schedule_eq rfl launched, List.suffix_rfl⟩
  | notify others due reached enabled =>
    have launched : others.bind Task.launched = s.launched := by
      simp [System.launched, due, Task.launched]
    exact Or.inl ⟨rfl, schedule_eq rfl launched, List.suffix_rfl⟩
  | watch i next made => exact Or.inl ⟨rfl, rfl, List.suffix_rfl⟩
  | leave i waits => exact Or.inl ⟨rfl, rfl, List.suffix_rfl⟩

theorem push_sublist (q : Queue α) (entrance : Entrance) (job : α) :
    q.waiting.Sublist (q.push entrance job).waiting := by
  cases entrance with
  | back => exact List.sublist_append_left q.waiting [job]
  | front => exact List.sublist_cons_self job q.waiting

theorem turn_keeps_order (sound : Sound s) (turn : Turn s s') :
    s.schedule.Sublist s'.schedule ∧ s.submitted <+: s'.submitted := by
  rcases turn_schedule sound turn with ⟨submitted, schedule, _⟩ |
    ⟨entrance, job, submitted, _, schedule⟩
  · exact ⟨schedule ▸ List.Sublist.refl _, submitted ▸ List.prefix_rfl⟩
  · rw [schedule, submitted]
    exact ⟨(List.Sublist.refl _).append (push_sublist s.queue entrance job),
      List.prefix_append _ _⟩

theorem reaches_keeps_order (sound : Sound s) (reached : Reaches s s') :
    s.schedule.Sublist s'.schedule ∧ s.submitted <+: s'.submitted := by
  induction reached with
  | refl => exact ⟨List.Sublist.refl _, List.prefix_rfl⟩
  | tail before turn ih =>
    obtain ⟨schedule, submitted⟩ := turn_keeps_order (sound_reaches sound before) turn
    exact ⟨ih.1.trans schedule, ih.2.trans submitted⟩

/-- A job put at the back stands behind all submitted before it; one put before the others stands
before those that wait. -/
structure Ranked (s : System α) : Prop where
  back : ∀ {entrance : Entrance} {a b : α}, [(entrance, a), (.back, b)].Sublist s.submitted →
    [a, b].Sublist s.schedule
  front : s.jobs.Nodup → ∀ {entrance : Entrance} {a b : α},
    [(entrance, a), (.front, b)].Sublist s.submitted → a ∈ s.queue.waiting → [b, a].Sublist s.schedule
  plain : (∀ submission ∈ s.submitted, submission.1 = .back) →
    s.schedule = s.submitted.map Prod.snd

theorem ranked_fresh : Ranked ({} : System α) :=
  ⟨nofun, fun _ => nofun, fun _ => by simp [System.schedule, System.launched]⟩

theorem submitted_scheduled (sound : Sound s) {entrance : Entrance}
    (member : (entrance, job) ∈ s.submitted) : job ∈ s.schedule := by
  rw [← Multiset.mem_coe, schedule_jobs sound]
  exact Multiset.mem_coe.mpr (List.mem_map_of_mem (f := Prod.snd) member)

theorem submitted_other {entrance entrance' : Entrance} {a b : α} {submitted : List (Entrance × α)}
    (distinct : ((submitted ++ [(entrance', b)]).map Prod.snd).Nodup)
    (member : (entrance, a) ∈ submitted) : a ≠ b := by
  rw [List.map_append, List.nodup_append] at distinct
  exact distinct.2.2 a (List.mem_map_of_mem (f := Prod.snd) member) b List.mem_cons_self

theorem push_other {q : Queue α} {entrance : Entrance} {a b : α} (other : a ≠ b)
    (waits : a ∈ (q.push entrance b).waiting) : a ∈ q.waiting := by
  cases entrance <;> simpa [Queue.push, other] using waits

theorem ranked_submit (sound : Sound s) (ranked : Ranked s) {entrance : Entrance}
    (submitted : s'.submitted = s.submitted ++ [(entrance, job)])
    (waiting : s'.queue.waiting = (s.queue.push entrance job).waiting)
    (schedule : s'.schedule =
      s.begun ++ s.launched.toList ++ (s.queue.push entrance job).waiting) : Ranked s' := by
  have kept : s.schedule.Sublist s'.schedule := by
    rw [schedule]
    exact (List.Sublist.refl _).append (push_sublist s.queue entrance job)
  have behind : entrance = .back → s'.schedule = s.schedule ++ [job] := by
    rintro rfl
    exact schedule.trans (List.append_assoc _ _ _).symm
  refine ⟨?_, ?_, ?_⟩
  · intro _ a b row
    rw [submitted] at row
    rcases pair_snoc row with before | ⟨member, last⟩
    · exact (ranked.back before).trans kept
    · cases last
      rw [behind rfl]
      exact (List.singleton_sublist.mpr (submitted_scheduled sound member)).append
        (List.Sublist.refl [job])
  · intro distinct _ a b row waits
    rw [System.jobs, submitted, Multiset.coe_nodup] at distinct
    rw [submitted] at row
    rw [waiting] at waits
    rcases pair_snoc row with before | ⟨member, last⟩
    · have waited := push_other (submitted_other distinct (before.subset List.mem_cons_self)) waits
      rw [List.map_append, List.nodup_append] at distinct
      exact (ranked.front (Multiset.coe_nodup.mpr distinct.1) before waited).trans kept
    · cases last
      have waited := push_other (submitted_other distinct member) waits
      rw [schedule]
      exact ((List.singleton_sublist.mpr waited).cons_cons job).trans
        (List.sublist_append_right _ _)
  · intro back
    rw [submitted] at back
    have before := ranked.plain fun submission member =>
      back submission (List.mem_append_left _ member)
    rw [behind (back (entrance, job) (by simp)), submitted, List.map_append, ← before]
    rfl

/-- Every turn keeps the jobs in the ranks that they were submitted to. -/
theorem ranked_turn (sound : Sound s) (ranked : Ranked s) (turn : Turn s s') : Ranked s' := by
  rcases turn_schedule sound turn with ⟨submitted, schedule, waiting⟩ |
    ⟨entrance, job, submitted, waiting, schedule⟩
  · refine ⟨?_, ?_, ?_⟩
    · rw [submitted, schedule]
      exact ranked.back
    · intro distinct _ a b row waits
      rw [System.jobs, submitted] at distinct
      rw [submitted] at row
      rw [schedule]
      exact ranked.front distinct row (waiting.subset waits)
    · rw [submitted, schedule]
      exact ranked.plain
  · exact ranked_submit sound ranked submitted waiting schedule

theorem ranked_reaches (reached : Reaches {} s) : Ranked s := by
  induction reached with
  | refl => exact ranked_fresh
  | tail before turn ih => exact ranked_turn (sound_reaches sound_fresh before) ih turn

theorem begun_leads (s : System α) : s.begun <+: s.schedule := by
  rw [System.schedule, List.append_assoc]
  exact List.prefix_append _ _

theorem begunFirst_of_row (sound : Sound s) (later : Reaches s s') (distinct : s'.jobs.Nodup)
    {a b : α} (row : [a, b].Sublist s.schedule) (some : a ∈ s'.begun ∨ b ∈ s'.begun) :
    BegunFirst s'.begun a b := by
  have apart : s'.schedule.Nodup := by
    rwa [← Multiset.coe_nodup, schedule_jobs (sound_reaches sound later)]
  exact begunFirst_of_sublist apart (row.trans (reaches_keeps_order sound later).1)
    (begun_leads s') some

theorem executes_stays (executes : s.Executes job)
    (kept : ∀ task ∈ s.tasks, task.held ≠ 0 → task ∈ s'.tasks) : s'.Executes job := by
  rcases executes with member | ⟨outcome, member⟩
  · exact Or.inl (kept _ member (Multiset.singleton_ne_zero job))
  · exact Or.inr ⟨outcome, kept _ member (Multiset.singleton_ne_zero job)⟩

theorem holders_others {task : Task α} (due : s.tasks = task ::ₘ others) (free : task.held = 0) :
    ∀ holder ∈ s.tasks, holder.held ≠ 0 → holder ∈ others := by
  intro holder member holds
  rw [due] at member
  exact (Multiset.mem_cons.mp member).resolve_left fun same => holds (same ▸ free)

theorem executes_running (sound : Sound s) (executes : s.Executes job) :
    s.queue.running = true := by
  rw [running_iff sound]
  intro none
  rcases executes with member | ⟨outcome, member⟩
  · exact Multiset.singleton_ne_zero job (idle_tasks none _ member)
  · exact Multiset.singleton_ne_zero job (idle_tasks none _ member)

theorem executes_alone (sound : Sound s) (executes : s.Executes job) {task : Task α} {own : α}
    (due : s.tasks = task ::ₘ others) (holds : task.held = {own}) :
    task = .execute job ∨ ∃ outcome, task = .mark job outcome := by
  have idle := idle_tasks (held_alone sound due holds)
  have here : ∀ holder ∈ s.tasks, holder.held = {job} → holder = task := by
    intro holder member busy
    rw [due] at member
    refine (Multiset.mem_cons.mp member).resolve_right fun other => ?_
    exact Multiset.singleton_ne_zero job (busy.symm.trans (idle holder other))
  rcases executes with member | ⟨outcome, member⟩
  · exact Or.inl (here _ member rfl).symm
  · exact Or.inr ⟨outcome, (here _ member rfl).symm⟩

theorem executes_turn (sound : Sound s) (executes : s.Executes job) (turn : Turn s s') :
    s'.Executes job ∧ s'.begun = s.begun ∧ s'.ended = s.ended ∨
      ∃ outcome, s'.ended = s.ended ++ [(job, outcome)] := by
  cases turn with
  | call entrance other =>
    exact Or.inl ⟨executes_stays executes fun _ member _ => Multiset.mem_cons_of_mem member,
      rfl, rfl⟩
  | submit entrance other others due =>
    have kept := holders_others due rfl
    exact Or.inl ⟨executes_stays executes fun holder member busy =>
      Multiset.mem_cons_of_mem (kept holder member busy), rfl, rfl⟩
  | drain others due =>
    have kept := holders_others due rfl
    have drained : s.queue.drain = (s.queue, .busy) := by
      simp [Queue.drain, executes_running sound executes]
    rw [drained]
    exact Or.inl ⟨executes_stays executes fun holder member busy =>
      Multiset.mem_add.mpr (Or.inr (kept holder member busy)), rfl, rfl⟩
  | launch other others due =>
    rcases executes_alone sound executes due rfl with same | ⟨outcome, same⟩ <;> cases same
  | execute other outcome others due =>
    rcases executes_alone sound executes due rfl with same | ⟨outcome, same⟩ <;> cases same
    exact Or.inl ⟨Or.inr ⟨outcome, Multiset.mem_cons_self _ _⟩, rfl, rfl⟩
  | mark other outcome others due =>
    rcases executes_alone sound executes due rfl with same | ⟨outcome, same⟩ <;> cases same
    exact Or.inr ⟨_, rfl⟩
  | notify others due reached enabled =>
    exact Or.inl ⟨executes_stays executes (holders_others due rfl), rfl, rfl⟩
  | watch i next made => exact Or.inl ⟨executes, rfl, rfl⟩
  | leave i waits => exact Or.inl ⟨executes, rfl, rfl⟩

theorem ended_grows (turn : Turn s s') : s.ended <+: s'.ended := by
  cases turn <;> first | exact List.prefix_rfl | exact List.prefix_append _ _

theorem executes_reaches (sound : Sound s) (executes : s.Executes job) (later : Reaches s s') :
    s'.Executes job ∧ s'.begun = s.begun ∧ s'.ended = s.ended ∨
      ∃ outcome, s.ended ++ [(job, outcome)] <+: s'.ended := by
  induction later with
  | refl => exact Or.inl ⟨executes, rfl, rfl⟩
  | tail before turn ih =>
    rcases ih with ⟨executes, begun, ended⟩ | ⟨outcome, past⟩
    · rcases executes_turn (sound_reaches sound before) executes turn with
        ⟨executes, begun', ended'⟩ | ⟨outcome, past⟩
      · exact Or.inl ⟨executes, begun'.trans begun, ended'.trans ended⟩
      · exact Or.inr ⟨outcome, by rw [past, ended]⟩
    · exact Or.inr ⟨outcome, past.trans (ended_grows turn)⟩

/-- A submission leaves what is executed and what has been as it is. -/
structure Undisturbed (s s' : System α) : Prop where
  running : s'.queue.running = s.queue.running
  held : s'.held = s.held
  executes : ∀ job, s'.Executes job ↔ s.Executes job
  begun : s'.begun = s.begun
  ended : s'.ended = s.ended

theorem submission_undisturbed (turn : Turn s s') (submits : s'.submitted ≠ s.submitted) :
    Undisturbed s s' := by
  cases turn with
  | submit entrance job others due =>
    refine ⟨push_running s.queue entrance job, ?_, fun own => ?_, rfl, rfl⟩
    · simp [System.held, due, Task.held]
    · simp [System.Executes, due]
  | _ => exact absurd rfl submits

/-- How the jobs of a queue begin between `s` and `s'`. A job is handed over when it is submitted,
so that none is submitted twice. -/
structure InOrder (s s' : System α) : Prop where
  waiting : s'.jobs.Nodup → ∀ {earlier later : Entrance} {a b : α},
    [(earlier, a), (later, b)].Sublist s.submitted → a ∈ s.queue.waiting → b ∈ s.queue.waiting →
    a ∈ s'.begun ∨ b ∈ s'.begun →
    (BegunFirst s'.begun b a ↔ later = .front) ∧ (BegunFirst s'.begun a b ↔ later = .back)
  submission : ∀ {next : System α}, Turn s' next → next.submitted ≠ s'.submitted →
    Undisturbed s' next
  executing : ∀ {job : α}, s.Executes job →
    s'.Executes job ∧ s'.begun = s.begun ∧ s'.ended = s.ended ∨
      ∃ outcome, s.ended ++ [(job, outcome)] <+: s'.ended
  behind : s'.jobs.Nodup → ∀ {earlier : Entrance} {a b : α},
    [(earlier, a), (.back, b)].Sublist s'.submitted → a ∈ s'.begun ∨ b ∈ s'.begun →
    BegunFirst s'.begun a b
  plain : (∀ submission ∈ s'.submitted, submission.1 = .back) →
    s'.begun <+: s'.submitted.map Prod.snd

/-- Whatever the order of the sections of all callers, and however the jobs end. -/
theorem reached_in_order (reached : Reaches {} s) (later : Reaches s s') : InOrder s s' := by
  have sound := sound_reaches sound_fresh reached
  have ranked := ranked_reaches reached
  have ranked' := ranked_reaches (reached.trans later)
  refine ⟨?_, submission_undisturbed, fun executes => executes_reaches sound executes later, ?_, ?_⟩
  · intro distinct earlier entrance a b row waits _ some
    cases entrance with
    | back =>
      have first := begunFirst_of_row sound later distinct (ranked.back row) some
      simp [first, begunFirst_asymm first]
    | front =>
      obtain ⟨new, submitted⟩ := (reaches_keeps_order sound later).2
      have before : s.jobs.Nodup := by
        rw [System.jobs, ← submitted, List.map_append, Multiset.coe_nodup,
          List.nodup_append] at distinct
        exact Multiset.coe_nodup.mpr distinct.1
      have first := begunFirst_of_row sound later distinct (ranked.front before row waits) some.symm
      simp [first, begunFirst_asymm first]
  · intro distinct earlier a b row some
    exact begunFirst_of_row (sound_reaches sound later) .refl distinct (ranked'.back row) some
  · intro back
    rw [← ranked'.plain back]
    exact begun_leads s'

/-- While the first job is executed a second one is put behind it and a third one cuts in. -/
theorem cut_in_in_order : ∃ s s' : System Nat, Reaches {} s ∧ Reaches s s' ∧ s.Executes 1 ∧
    s.queue.waiting = [3, 2] ∧ s'.begun = [1, 3] ∧ s'.jobs.Nodup ∧ InOrder s s' := by
  let still : Nat → Watcher := fun _ => .absent
  let all : List (Entrance × Nat) := [(.back, 1), (.back, 2), (.front, 3)]
  have called : Reaches {} ⟨⟨[], false⟩, .submit .back 1 ::ₘ 0, still, [], [], []⟩ :=
    .single (.call .back 1)
  have pushed : Reaches {} ⟨⟨[1], false⟩, .drain ::ₘ 0, still, [(.back, 1)], [], []⟩ :=
    called.tail (.submit .back 1 0 rfl)
  have taken : Reaches {} ⟨⟨[], true⟩, .launch 1 ::ₘ 0, still, [(.back, 1)], [], []⟩ :=
    pushed.tail (.drain 0 rfl)
  have begun : Reaches {} ⟨⟨[], true⟩, .execute 1 ::ₘ 0, still, [(.back, 1)], [1], []⟩ :=
    taken.tail (.launch 1 0 rfl)
  have called : Reaches {} ⟨⟨[], true⟩, .submit .back 2 ::ₘ .execute 1 ::ₘ 0, still,
      [(.back, 1)], [1], []⟩ := begun.tail (.call .back 2)
  have pushed : Reaches {} ⟨⟨[2], true⟩, .drain ::ₘ .execute 1 ::ₘ 0, still,
      [(.back, 1), (.back, 2)], [1], []⟩ := called.tail (.submit .back 2 (.execute 1 ::ₘ 0) rfl)
  have busy : Reaches {} ⟨⟨[2], true⟩, .execute 1 ::ₘ 0, still,
      [(.back, 1), (.back, 2)], [1], []⟩ := pushed.tail (.drain (.execute 1 ::ₘ 0) rfl)
  have called : Reaches {} ⟨⟨[2], true⟩, .submit .front 3 ::ₘ .execute 1 ::ₘ 0, still,
      [(.back, 1), (.back, 2)], [1], []⟩ := busy.tail (.call .front 3)
  have pushed : Reaches {} ⟨⟨[3, 2], true⟩, .drain ::ₘ .execute 1 ::ₘ 0, still, all, [1], []⟩ :=
    called.tail (.submit .front 3 (.execute 1 ::ₘ 0) rfl)
  have waits : Reaches {} ⟨⟨[3, 2], true⟩, .execute 1 ::ₘ 0, still, all, [1], []⟩ :=
    pushed.tail (.drain (.execute 1 ::ₘ 0) rfl)
  let s : System Nat := ⟨⟨[3, 2], true⟩, .execute 1 ::ₘ 0, still, all, [1], []⟩
  have past : Reaches s ⟨⟨[3, 2], true⟩, .mark 1 .failed ::ₘ 0, still, all, [1], []⟩ :=
    .single (.execute 1 .failed 0 rfl)
  have marked : Reaches s ⟨⟨[3, 2], false⟩, .drain ::ₘ 0, still, all, [1], [(1, .failed)]⟩ :=
    past.tail (.mark 1 .failed 0 rfl)
  have taken : Reaches s ⟨⟨[2], true⟩, .launch 3 ::ₘ 0, still, all, [1], [(1, .failed)]⟩ :=
    marked.tail (.drain 0 rfl)
  have later : Reaches s ⟨⟨[2], true⟩, .execute 3 ::ₘ 0, still, all, [1, 3], [(1, .failed)]⟩ :=
    taken.tail (.launch 3 0 rfl)
  have executes : s.Executes 1 := Or.inl (Multiset.mem_cons_self (Task.execute 1) 0)
  have distinct : ([1, 2, 3] : List Nat).Nodup := by decide
  exact ⟨s, _, waits, later, executes, rfl, rfl, distinct, reached_in_order waits later⟩

end

end StepFlow.Queue.Shared
