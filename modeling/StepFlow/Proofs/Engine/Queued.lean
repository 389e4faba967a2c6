import StepFlow.Proofs.Engine.Request
import StepFlow.Proofs.Queue.Interleaving

/-!
Runs from the queue next to direct runs. The queue executes one job at a time and the slot is held
by one run at a time, but neither knows of the other: a direct run takes the slot without asking the
queue, and a job asks for the slot as any call does.

So runs from the queue never stand in each other's way. Where one asks for the slot while a direct
run holds it, it is turned away as a second direct run would be, and its job has ended with that.
Every other request that the queue has taken up is carried out.
-/
namespace StepFlow.Queue.Shared

variable {α : Type}

def Task.brings : Task α → Multiset α
  | submit _ job => {job}
  | _ => 0

def System.brought (q : System α) : Multiset α := q.tasks.bind Task.brings + q.jobs

def System.Executed (q : System α) (job : α) (outcome : Outcome) : Prop :=
  .mark job outcome ∈ q.tasks ∨ (job, outcome) ∈ q.ended

section
variable {q q' : System α} {job : α} {outcome : Outcome}

theorem drained_brings (drained : Drained α) : (Drained.tasks drained).bind Task.brings = 0 := by
  cases drained <;> rfl

theorem brought_turn (turn : Turn q q') : q'.brought = q.brought ∨
    ∃ entrance job, q'.tasks = .submit entrance job ::ₘ q.tasks ∧
      q'.brought = job ::ₘ q.brought := by
  cases turn with
  | call entrance job => exact Or.inr ⟨entrance, job, rfl, by simp [System.brought, Task.brings,
      System.jobs]⟩
  | submit entrance job others due =>
    refine Or.inl ?_
    simp only [System.brought, System.jobs, due, Multiset.cons_bind, Task.brings, List.map_append,
      List.map_cons, List.map_nil, coe_snoc, zero_add]
    ac_rfl
  | drain others due =>
    refine Or.inl ?_
    simp [System.brought, System.jobs, due, Multiset.add_bind, drained_brings, Task.brings]
  | launch job others due | execute job outcome others due | mark job outcome others due
  | notify others due =>
    refine Or.inl ?_
    simp [System.brought, System.jobs, due, Task.brings]
  | watch | leave => exact Or.inl rfl

theorem execute_turn (turn : Turn q q') (executing : .execute job ∈ q.tasks) :
    .execute job ∈ q'.tasks ∨ ∃ outcome others, q.tasks = .execute job ::ₘ others ∧
      q'.tasks = .mark job outcome ::ₘ others := by
  cases turn with
  | call => exact Or.inl (Multiset.mem_cons_of_mem executing)
  | submit entrance job' others due | launch job' others due | mark job' outcome others due =>
    refine Or.inl ?_
    simp only [due, Multiset.mem_cons, reduceCtorEq, false_or] at executing
    exact Multiset.mem_cons_of_mem executing
  | drain others due =>
    refine Or.inl ?_
    simp only [due, Multiset.mem_cons, reduceCtorEq, false_or] at executing
    exact Multiset.mem_add.mpr (Or.inr executing)
  | notify others due =>
    refine Or.inl ?_
    simpa [due] using executing
  | execute job' outcome others due =>
    rw [due, Multiset.mem_cons] at executing
    rcases executing with same | executing
    · cases same
      exact Or.inr ⟨outcome, others, due, rfl⟩
    · exact Or.inl (Multiset.mem_cons_of_mem executing)
  | watch | leave => exact Or.inl executing

theorem executed_turn (turn : Turn q q') (executed : q'.Executed job outcome) :
    q.Executed job outcome ∨ ∃ others, q.tasks = .execute job ::ₘ others ∧
      q'.tasks = .mark job outcome ::ₘ others := by
  cases turn with
  | call => exact Or.inl (by simpa [System.Executed] using executed)
  | submit entrance job' others due | launch job' others due =>
    exact Or.inl (by simpa [System.Executed, due] using executed)
  | drain others due =>
    refine Or.inl ?_
    have none : .mark job outcome ∉ Drained.tasks q.queue.drain.2 := by
      cases q.queue.drain.2 <;> simp [Drained.tasks]
    simpa [System.Executed, due, none] using executed
  | mark job' outcome' others due =>
    refine Or.inl ?_
    simp only [System.Executed, Multiset.mem_cons, reduceCtorEq, false_or, List.mem_append,
      List.mem_singleton, Prod.mk.injEq] at executed
    simp only [System.Executed, due, Multiset.mem_cons, Task.mark.injEq]
    tauto
  | notify others due => exact Or.inl (by simpa [System.Executed, due] using executed)
  | execute job' outcome' others due =>
    simp only [System.Executed, Multiset.mem_cons, Task.mark.injEq] at executed
    rcases executed with (⟨rfl, rfl⟩ | marked) | ended
    · exact Or.inr ⟨others, due, rfl⟩
    · exact Or.inl (Or.inl (by simp [due, marked]))
    · exact Or.inl (Or.inr ended)
  | watch | leave => exact Or.inl executed

end

end StepFlow.Queue.Shared

namespace StepFlow.Engine
open Run

/-- The calls, and the queue from which some of them are begun: a job is the number of its call. -/
structure Coordinator (σ : Type) where
  engine : System σ
  queue : Queue.Shared.System Nat := {}

namespace Coordinator

def outcome : Except Error Outcome → Queue.Shared.Outcome
  | .ok _ => .succeeded
  | .error _ => .failed

/-- One thing that happens where some calls are direct and the others are `queued`. A call from the
queue goes on only while its job is executed, and that ends when the call has returned. -/
inductive Step {σ : Type} [World σ] (config : Config) (queued : Nat → Bool)
    (s : Coordinator σ) : Coordinator σ → Prop where
  | proceed (i : Nat) (t : Stepped σ)
      (mayGo : queued i = true → .execute i ∈ s.queue.tasks)
      (made : (s.engine.calls i).step? config s.engine.world s.engine.shared = some t) :
      Step config queued s { s with engine := s.engine.goOn i t }
  | intervene (engine : System σ) (move : Move config s.engine engine)
      (same : engine.calls = s.engine.calls) : Step config queued s { s with engine := engine }
  | attend (queue : Queue.Shared.System Nat) (turn : Queue.Shared.Turn s.queue queue)
      (brings : ∀ entrance i, queue.tasks = .submit entrance i ::ₘ s.queue.tasks →
        queued i = true ∧ i ∉ s.queue.brought)
      (ends : ∀ i o others, s.queue.tasks = .execute i ::ₘ others →
        queue.tasks = .mark i o ::ₘ others →
        ∃ result, (s.engine.calls i).phase = .returned result ∧ o = outcome result) :
      Step config queued s { s with queue := queue }

abbrev Reaches {σ : Type} [World σ] (config : Config) (queued : Nat → Bool) :
    Coordinator σ → Coordinator σ → Prop := Relation.ReflTransGen (Step config queued)

def fresh {σ : Type} (w : σ) (names : Nat → String) (requests : Nat → Request) :
    Coordinator σ where
  engine := Engine.fresh w names requests

structure Tied {σ : Type} (queued : Nat → Bool) (s : Coordinator σ) : Prop where
  distinct : s.queue.brought.Nodup
  brought : ∀ i ∈ s.queue.brought, queued i = true
  executing : ∀ i, queued i = true → (s.engine.calls i).phase.holds = true →
    .execute i ∈ s.queue.tasks
  executed : ∀ i o, s.queue.Executed i o →
    ∃ result, (s.engine.calls i).phase = .returned result ∧ o = outcome result
  turnedAway : ∀ i run, queued i = true →
    (s.engine.calls i).phase = .returned (.error (.runInProgress run)) →
    ∃ k, queued k = false ∧ (s.engine.calls k).run = run

section
variable {σ : Type} {queued : Nat → Bool} {s s' : Coordinator σ} {i k : Nat}

theorem executing_alone {q : Queue.Shared.System Nat} (orderly : Queue.Shared.Orderly q)
    (first : .execute i ∈ q.tasks) (second : .execute k ∈ q.tasks) : i = k := by
  by_contra different
  obtain ⟨others, due⟩ := Multiset.exists_cons_of_mem first
  have later : .execute k ∈ others := by
    simpa [due, Ne.symm different] using second
  obtain ⟨rest, due'⟩ := Multiset.exists_cons_of_mem later
  have single := orderly.single
  simp [Queue.Shared.System.held, due, due', Queue.Shared.Task.held] at single

theorem tied_fresh (w : σ) (names : Nat → String) (requests : Nat → Request) :
    Tied queued (fresh w names requests) where
  distinct := Multiset.nodup_zero
  brought := fun _ member => by cases member
  executing := fun _ _ holds => by cases holds
  executed := fun _ _ executed => by
    rcases executed with marked | ended
    · cases marked
    · cases ended
  turnedAway := fun _ _ _ returned => by cases returned

theorem tied_intervene (tied : Tied queued s) {engine : System σ}
    (same : engine.calls = s.engine.calls) : Tied queued { s with engine := engine } := by
  obtain ⟨distinct, brought, executing, executed, turnedAway⟩ := tied
  refine ⟨distinct, brought, ?_, ?_, ?_⟩
  all_goals simpa only [same]

theorem tied_attend {queue : Queue.Shared.System Nat} (tied : Tied queued s)
    (turn : Queue.Shared.Turn s.queue queue)
    (brings : ∀ entrance i, queue.tasks = .submit entrance i ::ₘ s.queue.tasks →
      queued i = true ∧ i ∉ s.queue.brought)
    (ends : ∀ i o others, s.queue.tasks = .execute i ::ₘ others →
      queue.tasks = .mark i o ::ₘ others →
      ∃ result, (s.engine.calls i).phase = .returned result ∧ o = outcome result) :
    Tied queued { s with queue := queue } := by
  obtain ⟨distinct, brought, executing, executed, turnedAway⟩ := tied
  refine ⟨?_, ?_, ?_, ?_, turnedAway⟩
  · rcases Queue.Shared.brought_turn turn with same | ⟨entrance, job, due, more⟩
    · rwa [same]
    · rw [more, Multiset.nodup_cons]
      exact ⟨(brings entrance job due).2, distinct⟩
  · rcases Queue.Shared.brought_turn turn with same | ⟨entrance, job, due, more⟩
    · rwa [same]
    · intro i member
      rw [more, Multiset.mem_cons] at member
      rcases member with rfl | member
      · exact (brings entrance i due).1
      · exact brought i member
  · intro i fromQueue holds
    rcases Queue.Shared.execute_turn turn (executing i fromQueue holds) with still |
      ⟨o, others, due, due'⟩
    · exact still
    · obtain ⟨result, returned, _⟩ := ends i o others due due'
      simp [returned, Phase.holds] at holds
  · intro i o done
    rcases Queue.Shared.executed_turn turn done with before | ⟨others, due, due'⟩
    · exact executed i o before
    · exact ends i o others due due'

variable [World σ] {config : Config}

theorem engine_reaches (reached : Reaches config queued s s') :
    Engine.Reaches config s.engine s'.engine := by
  induction reached with
  | refl => exact .refl
  | tail _ step ih =>
    cases step with
    | proceed i t mayGo made => exact ih.tail (.proceed i t made)
    | intervene engine move => exact ih.tail move
    | attend => exact ih

theorem queue_reaches (reached : Reaches config queued s s') :
    Queue.Shared.Reaches s.queue s'.queue := by
  induction reached with
  | refl => exact .refl
  | tail _ step ih =>
    cases step with
    | proceed | intervene => exact ih
    | attend queue turn => exact ih.tail turn

/-- Whoever holds the slot while a call from the queue asks for it is a direct call. -/
theorem holder_direct {run : String} (sound : Sound s.engine)
    (orderly : Queue.Shared.Orderly s.queue) (tied : Tied queued s)
    (executing : .execute i ∈ s.queue.tasks) (phase : (s.engine.calls i).phase = .reserve)
    (names : s.engine.shared.slot.map Active.run = some run) :
    ∃ k, queued k = false ∧ (s.engine.calls k).phase.holds = true ∧
      (s.engine.calls k).run = run := by
  obtain ⟨k, holds, named⟩ := slot_owned sound names
  refine ⟨k, ?_, holds, named⟩
  -- a run from the queue would have its job executed, but only one job is at a time
  by_contra other
  have same := executing_alone orderly executing (tied.executing k (by simpa using other) holds)
  rw [← same, phase] at holds
  cases holds

theorem tied_proceed {t : Stepped σ} (sound : Sound s.engine)
    (orderly : Queue.Shared.Orderly s.queue) (tied : Tied queued s)
    (mayGo : queued i = true → .execute i ∈ s.queue.tasks)
    (made : (s.engine.calls i).step? config s.engine.world s.engine.shared = some t) :
    Tied queued { s with engine := s.engine.goOn i t } where
  distinct := tied.distinct
  brought := tied.brought
  executing := by
    intro k fromQueue holds
    by_cases own : k = i
    · exact own ▸ mayGo (own ▸ fromQueue)
    · dsimp only at holds
      rw [goOn_other own] at holds
      exact tied.executing k fromQueue holds
  executed := by
    intro k o executed
    obtain ⟨result, returned, same⟩ := tied.executed k o executed
    have own : k ≠ i := by
      rintro rfl
      simp [Call.step?, returned] at made
    exact ⟨result, by rwa [goOn_other own], same⟩
  turnedAway := by
    intro k run fromQueue returned
    have named : ∃ j, queued j = false ∧ (s.engine.calls j).run = run := by
      by_cases own : k = i
      · subst own
        have before : (s.engine.calls k).phase ≠ .returned (.error (.runInProgress run)) := by
          intro returned
          simp [Call.step?, returned] at made
        obtain ⟨phase, names, _⟩ := move_turnsAway sound (.proceed k t made) before returned
        obtain ⟨j, direct, _, named⟩ := holder_direct sound orderly tied (mayGo fromQueue) phase
          names
        exact ⟨j, direct, named⟩
      · dsimp only at returned
        rw [goOn_other own] at returned
        exact tied.turnedAway k run fromQueue returned
    obtain ⟨j, direct, named⟩ := named
    exact ⟨j, direct, (goOn_run (Call.step_cases made) j).trans named⟩

/-- Every step keeps the calls from the queue tied to the jobs that are executed. -/
theorem tied_step (sound : Sound s.engine) (orderly : Queue.Shared.Orderly s.queue)
    (tied : Tied queued s) (step : Step config queued s s') : Tied queued s' := by
  cases step with
  | proceed i t mayGo made => exact tied_proceed sound orderly tied mayGo made
  | intervene engine move same => exact tied_intervene tied same
  | attend queue turn brings ends => exact tied_attend tied turn brings ends

theorem tied_reaches {w : σ} {names : Nat → String} {requests : Nat → Request}
    (distinct : Function.Injective names)
    (reached : Reaches config queued (fresh w names requests) s) : Tied queued s := by
  induction reached with
  | refl => exact tied_fresh w names requests
  | tail before step ih =>
    have sound := sound_reaches (sound_fresh distinct) (engine_reaches before)
    have orderly := Queue.Shared.reached_orderly (queue_reaches before)
    exact tied_step sound orderly ih step

/-- What requests that are brought to the queue can rely on. Each is waiting, taken up, or ended,
and its job goes on until its call has returned. The call gets the slot unless a direct run holds it
at that moment; so a job that has ended has carried out its request, or was turned away for that
run. -/
structure Reliable (config : Config) (queued : Nat → Bool) (s : Coordinator σ) : Prop where
  kept : s.queue.jobs =
    s.queue.queue.waiting + s.queue.held + (s.queue.ended.map Prod.fst : Multiset Nat)
  once : s.queue.begun.Nodup
  goesOn : ∀ i, .execute i ∈ s.queue.tasks →
    ((s.engine.calls i).waits = true ∧ (s.engine.calls i).run ∈ s.engine.launched) ∨
    (∃ t, (s.engine.calls i).step? config s.engine.world s.engine.shared = some t ∧
      Step config queued s { s with engine := s.engine.goOn i t }) ∨
    ∃ o queue, .mark i o ∈ queue.tasks ∧ Step config queued s { s with queue := queue }
  asks : ∀ i s', queued i = true → (s.engine.calls i).phase = .reserve →
    Step config queued s s' → (s'.engine.calls i).phase ≠ .reserve →
    (s.engine.shared.slot = none ∧ (s'.engine.calls i).phase.holds = true) ∨
    ∃ k, queued k = false ∧ (s.engine.calls k).phase.holds = true ∧
      s' = { s with engine := { s.engine with
        calls := Function.update s.engine.calls i
          ((s.engine.calls i).turnedAway (s.engine.calls k).run) } }
  ended : ∀ i o, (i, o) ∈ s.queue.ended → ∃ result,
    (s.engine.calls i).phase = .returned result ∧ o = outcome result ∧
    (CarriedOut config s.engine (s.engine.calls i) result ∨
      ∃ k, queued k = false ∧ result = .error (.runInProgress (s.engine.calls k).run))

theorem attend_step {queue : Queue.Shared.System Nat}
    (turn : Queue.Shared.Turn s.queue queue)
    (few : queue.tasks.card ≤ s.queue.tasks.card) (idle : ∀ i, .execute i ∉ s.queue.tasks) :
    Step config queued s { s with queue := queue } := by
  refine .attend queue turn ?_ ?_
  · intro entrance i more
    rw [more, Multiset.card_cons] at few
    exact absurd few (Nat.not_succ_le_self _)
  · intro i o others due
    exact absurd (due ▸ Multiset.mem_cons_self _ _) (idle i)

theorem mark_step {result : Except Error Outcome} {others : Multiset (Queue.Shared.Task Nat)}
    (orderly : Queue.Shared.Orderly s.queue) (due : s.queue.tasks = .execute i ::ₘ others)
    (returned : (s.engine.calls i).phase = .returned result) :
    Step config queued s { s with queue := { s.queue with
      tasks := .mark i (outcome result) ::ₘ others } } := by
  refine .attend _ (.execute i (outcome result) others due) ?_ ?_
  · intro entrance k more
    have same := congrArg Multiset.card more
    simp [due] at same
  · intro k o rest due' marked
    have own : k = i := executing_alone orderly (by simp [due']) (by simp [due])
    subst own
    have same : others = rest := by simpa [due] using due'
    subst same
    exact ⟨result, returned, by simpa using marked.symm⟩

theorem goes_on (sound : Sound s.engine) (orderly : Queue.Shared.Orderly s.queue)
    (executing : .execute i ∈ s.queue.tasks) :
    ((s.engine.calls i).waits = true ∧ (s.engine.calls i).run ∈ s.engine.launched) ∨
    (∃ t, (s.engine.calls i).step? config s.engine.world s.engine.shared = some t ∧
      Step config queued s { s with engine := s.engine.goOn i t }) ∨
    ∃ o queue, .mark i o ∈ queue.tasks ∧ Step config queued s { s with queue := queue } := by
  cases made : (s.engine.calls i).step? config s.engine.world s.engine.shared with
  | some t => exact Or.inr (Or.inl ⟨t, rfl, .proceed i t (fun _ => executing) made⟩)
  | none =>
    rcases Call.step_none made with waits | ⟨result, returned⟩
    · exact Or.inl ⟨waits, waiting_launched sound waits⟩
    · obtain ⟨others, due⟩ := Multiset.exists_cons_of_mem executing
      exact Or.inr (Or.inr ⟨outcome result, _, Multiset.mem_cons_self _ _,
        mark_step orderly due returned⟩)

theorem step_asks (sound : Sound s.engine) (orderly : Queue.Shared.Orderly s.queue)
    (tied : Tied queued s) (fromQueue : queued i = true)
    (phase : (s.engine.calls i).phase = .reserve) (step : Step config queued s s')
    (asked : (s'.engine.calls i).phase ≠ .reserve) :
    (s.engine.shared.slot = none ∧ (s'.engine.calls i).phase.holds = true) ∨
    ∃ k, queued k = false ∧ (s.engine.calls k).phase.holds = true ∧
      s' = { s with engine := { s.engine with
        calls := Function.update s.engine.calls i
          ((s.engine.calls i).turnedAway (s.engine.calls k).run) } } := by
  cases step with
  | intervene engine move same => exact absurd (same ▸ phase) asked
  | attend => exact absurd phase asked
  | proceed k t mayGo made =>
    have own : i = k := by
      by_contra other
      exact asked (by rwa [goOn_other other])
    subst own
    rcases Call.step_reserve phase made with ⟨free, holds⟩ | ⟨active, taken, away⟩
    · exact Or.inl ⟨free, by rwa [goOn_own]⟩
    · have returned : ((s.engine.goOn i t).calls i).phase =
          .returned (.error (.runInProgress active.run)) := by rw [goOn_own, away]; rfl
      obtain ⟨_, names, left⟩ := move_turnsAway sound (.proceed i t made) (by simp [phase]) returned
      obtain ⟨k, direct, holds, named⟩ := holder_direct sound orderly tied (mayGo fromQueue) phase
        names
      refine Or.inr ⟨k, direct, holds, ?_⟩
      rw [left, named]

theorem ended_reliable {o : Queue.Shared.Outcome} (sound : Sound s.engine)
    (orderly : Queue.Shared.Orderly s.queue) (tied : Tied queued s)
    (informed : ∀ i, (s.engine.calls i).Informed config) (ended : (i, o) ∈ s.queue.ended) :
    ∃ result, (s.engine.calls i).phase = .returned result ∧ o = outcome result ∧
      (CarriedOut config s.engine (s.engine.calls i) result ∨
        ∃ k, queued k = false ∧ result = .error (.runInProgress (s.engine.calls k).run)) := by
  obtain ⟨result, returned, same⟩ := tied.executed i o (Or.inr ended)
  refine ⟨result, returned, same, ?_⟩
  rcases returned_carriedOut sound (informed i) returned with ⟨run, rfl⟩ | carriedOut
  · have job : i ∈ s.queue.jobs := by
      rw [orderly.kept]
      exact Multiset.mem_add.mpr (Or.inr (List.mem_map.mpr ⟨_, ended, rfl⟩))
    have fromQueue := tied.brought i (Multiset.mem_add.mpr (Or.inr job))
    obtain ⟨k, direct, named⟩ := tied.turnedAway i run fromQueue returned
    exact Or.inr ⟨k, direct, by rw [named]⟩
  · exact Or.inl carriedOut

/-- However direct calls, requests to the queue, control calls and time limits are interleaved. -/
theorem queued_requests_reliable {w : σ} {names : Nat → String} {requests : Nat → Request}
    (distinct : Function.Injective names)
    (reached : Reaches config queued (fresh w names requests) s) : Reliable config queued s := by
  have sound := sound_reaches (sound_fresh distinct) (engine_reaches reached)
  have orderly := Queue.Shared.reached_orderly (queue_reaches reached)
  have tied := tied_reaches distinct reached
  have informed := reached_informed (engine_reaches reached)
  refine ⟨orderly.kept, ?_, ?_, ?_, ?_⟩
  · have once : s.queue.jobs.Nodup := Multiset.nodup_of_le (Multiset.le_add_left _ _) tied.distinct
    exact (orderly.distinct once).1
  · exact fun i executing => goes_on sound orderly executing
  · exact fun i s' fromQueue phase step asked =>
      step_asks sound orderly tied fromQueue phase step asked
  · exact fun i o ended => ended_reliable sound orderly tied informed ended

end

section

def secondQueued (i : Nat) : Bool := i == 1

def firstHolds : System Stage :=
  (Engine.fresh {} runName fun _ => emptyFlow).goOn 0
    ⟨⟨runName 0, emptyFlow, .compile⟩, {}, { slot := some ⟨runName 0, "demo", none⟩ }, [], none⟩

theorem crowded_out : ∃ s : Coordinator Stage,
    Reaches plain secondQueued (fresh {} runName fun _ => emptyFlow) s ∧
    s.queue.ended = [(1, .failed)] ∧
    (s.engine.calls 1).phase = .returned (.error (.runInProgress (runName 0))) := by
  let still : Nat → Queue.Shared.Watcher := fun _ => .absent
  let start : Coordinator Stage := fresh {} runName fun _ => emptyFlow
  have reserved : Reaches plain secondQueued start ⟨firstHolds, {}⟩ :=
    .single (.proceed 0 _ (fun fromQueue => by cases fromQueue) rfl)
  have brought : Reaches plain secondQueued start
      ⟨firstHolds, ⟨⟨[], false⟩, .submit .back 1 ::ₘ 0, still, [], [], []⟩⟩ := by
    refine reserved.tail (.attend _ (.call .back 1) ?_ ?_)
    · intro entrance i more
      obtain ⟨_, rfl⟩ : .back = entrance ∧ 1 = i := by simpa using more
      exact ⟨rfl, by simp [Queue.Shared.System.brought, Queue.Shared.System.jobs]⟩
    · simp
  have pushed : Reaches plain secondQueued start
      ⟨firstHolds, ⟨⟨[1], false⟩, .drain ::ₘ 0, still, [(.back, 1)], [], []⟩⟩ :=
    brought.tail (attend_step (.submit .back 1 0 rfl) (by simp) (by simp))
  have taken : Reaches plain secondQueued start
      ⟨firstHolds, ⟨⟨[], true⟩, .launch 1 ::ₘ 0, still, [(.back, 1)], [], []⟩⟩ :=
    pushed.tail (attend_step (.drain 0 rfl) (by simp) (by simp))
  have begun : Reaches plain secondQueued start
      ⟨firstHolds, ⟨⟨[], true⟩, .execute 1 ::ₘ 0, still, [(.back, 1)], [1], []⟩⟩ :=
    taken.tail (attend_step (.launch 1 0 rfl) (by simp) (by simp))
  let second : Call := (firstHolds.calls 1).turnedAway (runName 0)
  let left := firstHolds.goOn 1 ⟨second, firstHolds.world, firstHolds.shared, [], none⟩
  have away : Reaches plain secondQueued start
      ⟨left, ⟨⟨[], true⟩, .execute 1 ::ₘ 0, still, [(.back, 1)], [1], []⟩⟩ :=
    begun.tail (.proceed 1 _ (by simp) rfl)
  have returned : (left.calls 1).phase = .returned (.error (.runInProgress (runName 0))) := rfl
  have orderly := Queue.Shared.reached_orderly (queue_reaches away)
  have failed : Reaches plain secondQueued start
      ⟨left, ⟨⟨[], true⟩, .mark 1 .failed ::ₘ 0, still, [(.back, 1)], [1], []⟩⟩ :=
    away.tail (mark_step orderly rfl returned)
  have marked : Reaches plain secondQueued start
      ⟨left, ⟨⟨[], false⟩, .drain ::ₘ 0, still, [(.back, 1)], [1], [(1, .failed)]⟩⟩ :=
    failed.tail (attend_step (.mark 1 .failed 0 rfl) (by simp) (by simp))
  exact ⟨_, marked, rfl, returned⟩

theorem crowded_out_reliable : ∃ s : Coordinator Stage,
    Reaches plain secondQueued (fresh {} runName fun _ => emptyFlow) s ∧
    s.queue.ended = [(1, .failed)] ∧ Reliable plain secondQueued s := by
  obtain ⟨s, reached, ended, _⟩ := crowded_out
  exact ⟨s, reached, ended, queued_requests_reliable runName_injective reached⟩

theorem crowded_out_not_carriedOut : ¬ ∀ s : Coordinator Stage,
    Reaches plain secondQueued (fresh {} runName fun _ => emptyFlow) s →
    ∀ i o, (i, o) ∈ s.queue.ended → ∃ result,
      (s.engine.calls i).phase = .returned result ∧
      CarriedOut plain s.engine (s.engine.calls i) result := by
  intro carriedOut
  obtain ⟨s, reached, ended, away⟩ := crowded_out
  obtain ⟨result, returned, done⟩ := carriedOut s reached 1 .failed (by simp [ended])
  rw [away] at returned
  cases returned
  cases done

end

end Coordinator

end StepFlow.Engine
