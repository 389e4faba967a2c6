import StepFlow.Proofs.Run.Ending

/-!
Courses of a run. A deed is what is done in one turn, with all that it leaves, so that the signals
issued, the lines heard and the stops accepted can be read off the list of deeds. A course is such a
list with the systems it leads from and to; every turn has a deed, so that courses lead wherever
turns do.

Most facts about a course are about the accepted start. `lead_induction` follows that one call from
its acceptance on: whatever the others do is one of the six kinds of `LeadTurn` to it.
-/
namespace StepFlow.Run

inductive Deed where
  | proceed (i : Nat) (m : Move)
  | answer (i : Nat) (result : Except ProcessError Unit)
  | hear (i : Nat) (said : Option Transport)
  | control (c : Control) (left : Section (Except ProcessError Unit))
  | dispose

inductive Does (app : Option Json) (s : System) : Deed → System → Prop where
  | proceed (i : Nat) (now : Int) (m : Move)
      (made : (s.calls i).phase.step app now s.runner = some m) :
      Does app s (.proceed i m) ⟨m.runner, Function.update s.calls i ((s.calls i).goOn m.phase),
        s.log ++ m.events, s.launches + m.launches.toNat⟩
  | answer (i : Nat) (waits : (s.calls i).phase = .spawning)
      (result : Except ProcessError Unit) :
      Does app s (.answer i result) { s with
        calls := Function.update s.calls i ((s.calls i).answered result) }
  | hear (i : Nat) (waits : (s.calls i).phase = .reading) (said : Option Transport) :
      Does app s (.hear i said) ⟨(Phase.receive s.runner said).runner,
        Function.update s.calls i ((s.calls i).goOn (Phase.receive s.runner said).phase),
        s.log ++ (Phase.receive s.runner said).events, s.launches⟩
  | control (c : Control) (deliver : Delivery) :
      Does app s (.control c (s.runner.control c deliver)) { s with
        runner := (s.runner.control c deliver).runner
        log := s.log ++ (s.runner.control c deliver).events }
  | dispose : Does app s .dispose { s with runner := s.runner.dispose }

inductive Course (app : Option Json) (start : System) : List Deed → System → Prop where
  | nil : Course app start [] start
  | snoc {ds : List Deed} {s s' : System} {d : Deed} (before : Course app start ds s)
      (does : Does app s d s') : Course app start (ds ++ [d]) s'

theorem turn_iff {app : Option Json} {s s' : System} :
    Turn app s s' ↔ ∃ d, Does app s d s' := by
  constructor
  · intro turn
    cases turn with
    | proceed i now m made => exact ⟨_, .proceed i now m made⟩
    | answer i waits result => exact ⟨_, .answer i waits result⟩
    | hear i waits said => exact ⟨_, .hear i waits said⟩
    | control c deliver => exact ⟨_, .control c deliver⟩
    | dispose => exact ⟨_, .dispose⟩
  · rintro ⟨d, does⟩
    cases does with
    | proceed i now m made => exact .proceed i now m made
    | answer i waits result => exact .answer i waits result
    | hear i waits said => exact .hear i waits said
    | control c deliver => exact .control c deliver
    | dispose => exact .dispose

theorem reaches_iff {app : Option Json} {s s' : System} :
    Reaches app s s' ↔ ∃ ds, Course app s ds s' := by
  constructor
  · intro reached
    induction reached with
    | refl => exact ⟨[], .nil⟩
    | tail _ turn ih =>
      obtain ⟨ds, course⟩ := ih
      obtain ⟨d, does⟩ := turn_iff.mp turn
      exact ⟨ds ++ [d], course.snoc does⟩
  · rintro ⟨ds, course⟩
    induction course with
    | nil => exact .refl
    | snoc _ does ih => exact ih.tail (turn_iff.mpr ⟨_, does⟩)

namespace Deed

def signal? : Deed → Option Signal
  | proceed _ m => m.signal
  | control _ left => left.signal
  | _ => none

def launches : Deed → Bool
  | proceed _ m => m.launches
  | _ => false

def spawns : Deed → Bool
  | answer _ (.ok ()) => true
  | _ => false

def starts : Deed → Bool
  | proceed _ m => m.phase.isAnnounce
  | _ => false

/-- A stop or timeout is accepted: it moves the state, whether or not a signal is delivered. -/
def stops : Deed → Bool
  | control .stop left => !left.events.isEmpty
  | control .timeout left => !left.events.isEmpty
  | _ => false

def said? : Deed → Option (Option Transport)
  | hear _ said => some said
  | _ => none

structure Idle (d : Deed) : Prop where
  signal : d.signal? = none
  launches : d.launches = false
  spawns : d.spawns = false
  said : d.said? = none

end Deed

section
variable {app : Option Json} {start s s' : System} {ds : List Deed} {d : Deed} {i : Nat}

theorem sound_course (sound : Sound start) (course : Course app start ds s) : Sound s :=
  sound_reaches sound (reaches_iff.mpr ⟨ds, course⟩)

theorem accepted_does (does : Does app s d s') (lead : (s.calls i).accepted = true) :
    (s'.calls i).accepted = true := by
  have kept : ∀ {j : Nat} {c : Call}, (j = i → c.accepted = true) →
      (Function.update s.calls j c i).accepted = true := by
    intro j c own
    by_cases same : j = i
    · subst same
      simpa using own rfl
    · rwa [Function.update_of_ne (Ne.symm same)]
  cases does with
  | proceed j now m made => exact kept fun own => by simp [Call.goOn, own, lead]
  | answer j waits result =>
    exact kept fun own => by cases result <;> simp [Call.answered, own, lead]
  | hear j waits said => exact kept fun own => by simp [Call.goOn, own, lead]
  | control | dispose => exact lead

def awayMove (r : Runner) (e : ProcessError) : Move := ⟨r, .returned (.error e), [], none, false⟩

def acceptMove (r : Runner) : Move :=
  ⟨{ r with state := .running }, .announce, [.stateChanged .running], none, false⟩

theorem begin_step {now : Int} {r : Runner} {m : Move}
    (made : Phase.begin.step app now r = some m) :
    (r.state = .initial ∧ m = acceptMove r) ∨
      (r.state ≠ .initial ∧ m = awayMove r (.invalidTransition r.state .start)) := by
  cases made
  by_cases initial : r.state = .initial
  · exact Or.inl ⟨initial, by simp [Runner.move, initial, State.apply, Phase.after, acceptMove]⟩
  · have refused : r.state.apply .start = none := by
      cases state : r.state <;> first | rfl | exact absurd state initial
    exact Or.inr ⟨initial, by simp [move_refused refused, Phase.after, awayMove]⟩

theorem control_detached {r : Runner} (detached : r.attached = false) (c : Control)
    (deliver : Delivery) : (r.control c deliver).signal = none := by
  have moved : ∀ action, (r.move action).signal = none := by
    intro action
    unfold Runner.move
    split <;> rfl
  have signalled : ∀ action signal,
      (r.signalThenMove action signal deliver).signal = none := by
    intro action signal
    unfold Runner.signalThenMove
    cases r.state.apply action <;> simp [detached]
  have killed : ∀ action, (r.moveThenKill action deliver).signal = none := by
    intro action
    simp only [Runner.moveThenKill, detached]
    split <;> exact moved action
  cases c <;> first | exact signalled _ _ | exact killed _

theorem control_keeps (r : Runner) (c : Control) (deliver : Delivery) :
    (r.control c deliver).runner.attached = r.attached ∧
      (r.control c deliver).runner.stepFailed = r.stepFailed := by
  rcases control_takes r c deliver with ⟨runner, _⟩ | ⟨next, _, runner, _⟩ <;> simp [runner]

theorem control_steps (r : Runner) (c : Control) (deliver : Delivery) :
    (r.control c deliver).events.filter Event.isStep = [] := by
  rcases control_takes r c deliver with ⟨_, events⟩ | ⟨next, _, _, events⟩ <;>
    simp [events, Event.isStep]

structure Still (ds : List Deed) (s : System) : Prop where
  idle : ∀ d ∈ ds, d.Idle
  detached : s.runner.attached = false
  noFailure : s.runner.stepFailed = false
  noSteps : s.log.filter Event.isStep = []

theorem still_snoc (still : Still ds s) (idle : d.Idle)
    (attached : s'.runner.attached = false) (noFailure : s'.runner.stepFailed = false)
    (noSteps : s'.log.filter Event.isStep = []) : Still (ds ++ [d]) s' := by
  refine ⟨?_, attached, noFailure, noSteps⟩
  intro e member
  rcases List.mem_append.mp member with old | new
  · exact still.idle e old
  · rwa [List.mem_singleton.mp new]

theorem course_still (course : Course app {} ds s) (none : ∀ i, (s.calls i).accepted = false) :
    Still ds s := by
  induction course with
  | nil => exact ⟨(fun _ member => by cases member), rfl, rfl, rfl⟩
  | @snoc ds s s' d before does ih =>
    have sound := sound_course sound_fresh before
    have none' : ∀ i, (s.calls i).accepted = false := by
      intro i
      by_contra lead
      have := accepted_does does (i := i) (by simpa using lead)
      simp [none i] at this
    have still := ih none'
    cases does with
    | proceed j now m made =>
      rcases sound.outside j (none' j) with ⟨fresh, _⟩ | ⟨e, away⟩
      · rw [fresh] at made
        rcases begin_step made with ⟨_, rfl⟩ | ⟨_, rfl⟩
        · have := none j
          simp [acceptMove, Call.goOn, Phase.isAnnounce] at this
        · exact still_snoc still ⟨rfl, rfl, rfl, rfl⟩ still.detached still.noFailure
            (by simpa [awayMove] using still.noSteps)
      · rw [away] at made
        cases made
    | answer j waits result =>
      have lead := waiting_leads sound (Or.inl waits)
      simp [none' j] at lead
    | hear j waits said =>
      have lead := waiting_leads sound (Or.inr waits)
      simp [none' j] at lead
    | control c deliver =>
      obtain ⟨attached, failed⟩ := control_keeps s.runner c deliver
      exact still_snoc still ⟨control_detached still.detached c deliver, rfl, rfl, rfl⟩
        (attached.trans still.detached) (failed.trans still.noFailure)
        (by simp [still.noSteps, control_steps])
    | dispose => exact still_snoc still ⟨rfl, rfl, rfl, rfl⟩ rfl still.noFailure still.noSteps

/-- What a turn is to the accepted start `c`, whose call it is or is not. -/
inductive LeadTurn (app : Option Json) (r : Runner) (c : Call) :
    Deed → Runner → Call → List Event → Prop where
  | proceed (i : Nat) (now : Int) (m : Move) (made : c.phase.step app now r = some m) :
      LeadTurn app r c (.proceed i m) m.runner (c.goOn m.phase) m.events
  | answer (i : Nat) (waits : c.phase = .spawning) (result : Except ProcessError Unit) :
      LeadTurn app r c (.answer i result) r (c.answered result) []
  | hear (i : Nat) (waits : c.phase = .reading) (said : Option Transport) :
      LeadTurn app r c (.hear i said) (Phase.receive r said).runner
        (c.goOn (Phase.receive r said).phase) []
  | control (k : Control) (deliver : Delivery) :
      LeadTurn app r c (.control k (r.control k deliver)) (r.control k deliver).runner c
        (r.control k deliver).events
  | away (i : Nat) (e : ProcessError) : LeadTurn app r c (.proceed i (awayMove r e)) r c []
  | dispose : LeadTurn app r c .dispose r.dispose c []

/-- Every deed is a turn to the accepted start. -/
theorem does_lead (sound : Sound s) (does : Does app s d s')
    (lead : (s.calls i).accepted = true) :
    ∃ events, LeadTurn app s.runner (s.calls i) d s'.runner (s'.calls i) events ∧
      s'.log = s.log ++ events := by
  cases does with
  | proceed j now m made =>
    by_cases own : j = i
    · subst own
      exact ⟨m.events, by simpa using .proceed j now m made, rfl⟩
    · have elsewhere : Function.update s.calls j ((s.calls j).goOn m.phase) i = s.calls i :=
        Function.update_of_ne (Ne.symm own) ..
      rcases sound.outside j (alone_of_lead sound lead j own) with ⟨fresh, _⟩ | ⟨e, away⟩
      · rw [fresh] at made
        rcases begin_step made with ⟨initial, _⟩ | ⟨_, rfl⟩
        · exact absurd initial (sound.led i lead).begun
        · refine ⟨[], ?_, rfl⟩
          simp only [elsewhere]
          exact .away j _
      · rw [away] at made
        cases made
  | answer j waits result =>
    cases sound.single j i (waiting_leads sound (Or.inl waits)) lead
    exact ⟨[], by simpa using .answer i waits result, (List.append_nil _).symm⟩
  | hear j waits said =>
    cases sound.single j i (waiting_leads sound (Or.inr waits)) lead
    refine ⟨[], by simpa using .hear i waits said, ?_⟩
    simp only [receive_quiet]
  | control c deliver => exact ⟨_, .control c deliver, rfl⟩
  | dispose => exact ⟨[], .dispose, (List.append_nil _).symm⟩

theorem does_accepts (sound : Sound s) (does : Does app s d s')
    (before : (s.calls i).accepted = false) (lead : (s'.calls i).accepted = true) :
    s.runner.state = .initial ∧ d = .proceed i (acceptMove s.runner) ∧
      s'.runner = { s.runner with state := .running } ∧ s'.calls i = ⟨.announce, true, none⟩ ∧
      s'.log = s.log ++ [.stateChanged .running] := by
  cases does with
  | proceed j now m made =>
    by_cases own : j = i
    · subst own
      rcases sound.outside j before with ⟨fresh, noRefusal⟩ | ⟨e, away⟩
      · rw [fresh] at made
        rcases begin_step made with ⟨initial, rfl⟩ | ⟨_, rfl⟩
        · exact ⟨initial, rfl, rfl,
            by simp [Call.goOn, acceptMove, Phase.isAnnounce, noRefusal], rfl⟩
        · simp [Call.goOn, awayMove, Phase.isAnnounce, before] at lead
      · rw [away] at made
        cases made
    · simp [Function.update_of_ne (Ne.symm own), before] at lead
  | answer j waits result =>
    by_cases own : j = i
    · subst own
      simp [waiting_leads sound (Or.inl waits)] at before
    · simp [Function.update_of_ne (Ne.symm own), before] at lead
  | hear j waits said =>
    by_cases own : j = i
    · subst own
      simp [waiting_leads sound (Or.inr waits)] at before
    · simp [Function.update_of_ne (Ne.symm own), before] at lead
  | control | dispose => simp [before] at lead

theorem none_of_initial (sound : Sound s) (initial : s.runner.state = .initial) (i : Nat) :
    (s.calls i).accepted = false := by
  by_contra lead
  exact (sound.led i (by simpa using lead)).begun initial

/-- What holds of a start as it is accepted, and is kept by every turn, holds from then on. -/
theorem lead_induction {P : List Deed → Runner → Call → List Event → Prop}
    (accepted : ∀ {ds s} (i : Nat), Still ds s →
      P (ds ++ [Deed.proceed i (acceptMove s.runner)]) { s.runner with state := .running }
        ⟨.announce, true, none⟩ (s.log ++ [.stateChanged .running]))
    (turn : ∀ {ds s i d r' c' events}, Course app {} ds s → (s.calls i).accepted = true →
      P ds s.runner (s.calls i) s.log → LeadTurn app s.runner (s.calls i) d r' c' events →
      P (ds ++ [d]) r' c' (s.log ++ events))
    (course : Course app {} ds s) (lead : (s.calls i).accepted = true) :
    P ds s.runner (s.calls i) s.log := by
  induction course with
  | nil => cases lead
  | @snoc ds s s' d before does ih =>
    have sound := sound_course sound_fresh before
    cases known : (s.calls i).accepted with
    | true =>
      obtain ⟨events, leads, log⟩ := does_lead sound does known
      rw [log]
      exact turn before known (ih known) leads
    | false =>
      obtain ⟨initial, rfl, runner, call, log⟩ := does_accepts sound does known lead
      rw [runner, call, log]
      exact accepted i (course_still before (none_of_initial sound initial))

end

end StepFlow.Run
