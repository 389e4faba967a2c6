import Mathlib.Data.List.Chain
import StepFlow.Proofs.Run.Refusals
import StepFlow.Proofs.Run.Stopping

/-!
The signals of a run and its state. The pauses and resumes that were delivered take turns, and as
long as the run goes on the last of them says whether it is paused. Once a kill has been issued, or
the accepted start has dealt with the end of the process, no signal is issued any more: the run has
ended, and the one place that still signals a run that has ended is the start with a new process in
its hands.
-/
namespace StepFlow.Run

/-- The signal that was issued and delivered by a control call. What becomes of the kill that a
start sends to a process that comes too late is told to nobody; the run has ended by then. -/
def Deed.delivered? : Deed → Option Signal
  | control _ left =>
    match left.result with
    | .ok () => left.signal
    | .error _ => none
  | _ => none

def delivered (ds : List Deed) : List Signal := ds.filterMap Deed.delivered?

def toggles (ds : List Deed) : List Signal := (delivered ds).filter (· ≠ .kill)

structure Alternates (signals : List Signal) : Prop where
  first : ∀ signal ∈ signals.head?, signal = .pause
  turns : signals.IsChain (· ≠ ·)

structure Mirrors (ds : List Deed) (state : State) : Prop where
  alternate : Alternates (toggles ds)
  unkilled : state.isTerminal = false → .kill ∉ delivered ds
  last : state.isTerminal = false → (state = .paused ↔ (delivered ds).getLast? = some .pause)

def Phase.isConcluded : Phase → Bool
  | conclude .. => true
  | returned _ => true
  | _ => false

section
variable {app : Option Json} {s s' : System} {ds : List Deed} {d : Deed} {i : Nat}
  {r r' : Runner} {c c' : Call} {signal : Signal} {state next : State}

theorem delivered_snoc : delivered (ds ++ [d]) = delivered ds ++ d.delivered?.toList := by
  rw [delivered, List.filterMap_append]
  cases told : d.delivered? <;> simp [told, delivered]

theorem toggles_snoc :
    toggles (ds ++ [d]) = toggles ds ++ d.delivered?.toList.filter (· ≠ .kill) := by
  simp only [toggles, delivered_snoc, List.filter_append]

theorem toggles_unkilled (unkilled : .kill ∉ delivered ds) : toggles ds = delivered ds := by
  refine List.filter_eq_self.mpr fun signal member => ?_
  simp only [decide_eq_true_eq]
  rintro rfl
  exact unkilled member

theorem alternates_snoc {signals : List Signal} (alternate : Alternates signals)
    (starts : signals = [] → signal = .pause) (turn : ∀ last ∈ signals.getLast?, last ≠ signal) :
    Alternates (signals ++ [signal]) where
  first := by
    cases signals with
    | nil => simpa using starts
    | cons head rest => simpa using alternate.first
  turns := by
    refine List.isChain_append.mpr ⟨alternate.turns, List.isChain_singleton _, ?_⟩
    intro last member next new
    simp only [List.head?_cons, Option.mem_def, Option.some.injEq] at new
    exact new ▸ turn last member

theorem mirrors_quiet (mirrors : Mirrors ds state) (quiet : d.delivered? = none)
    (kept : next.isTerminal = true ∨
      (state.isTerminal = false ∧ (next = .paused ↔ state = .paused))) :
    Mirrors (ds ++ [d]) next := by
  have same : delivered (ds ++ [d]) = delivered ds := by simp [delivered_snoc, quiet]
  have toggled : toggles (ds ++ [d]) = toggles ds := by simp [toggles_snoc, quiet]
  refine ⟨toggled ▸ mirrors.alternate, fun live => ?_, fun live => ?_⟩
  all_goals
    obtain ⟨was, still⟩ := kept.resolve_left (by simp [live])
    rw [same]
  · exact mirrors.unkilled was
  · rw [still]
    exact mirrors.last was

theorem mirrors_killed (mirrors : Mirrors ds state) (killed : d.delivered? = some .kill)
    (ended : next.isTerminal = true) : Mirrors (ds ++ [d]) next := by
  have toggled : toggles (ds ++ [d]) = toggles ds := by simp [toggles_snoc, killed]
  exact ⟨toggled ▸ mirrors.alternate, fun live => by simp [live] at ended,
    fun live => by simp [live] at ended⟩

theorem mirrors_paused (mirrors : Mirrors ds .running) (told : d.delivered? = some .pause) :
    Mirrors (ds ++ [d]) .paused := by
  have unkilled := mirrors.unkilled rfl
  have last := mirrors.last rfl
  have now : delivered (ds ++ [d]) = delivered ds ++ [.pause] := by simp [delivered_snoc, told]
  have toggled : toggles (ds ++ [d]) = toggles ds ++ [.pause] := by simp [toggles_snoc, told]
  refine ⟨?_, fun _ => by simp [now, unkilled], fun _ => by simp [now]⟩
  rw [toggled]
  refine alternates_snoc mirrors.alternate (fun _ => rfl) ?_
  rw [toggles_unkilled unkilled]
  rintro _ member rfl
  exact absurd (last.mpr member) (by simp)

theorem mirrors_resumed (mirrors : Mirrors ds .paused) (told : d.delivered? = some .resume) :
    Mirrors (ds ++ [d]) .running := by
  have unkilled := mirrors.unkilled rfl
  have paused := (mirrors.last rfl).mp rfl
  have now : delivered (ds ++ [d]) = delivered ds ++ [.resume] := by simp [delivered_snoc, told]
  have toggled : toggles (ds ++ [d]) = toggles ds ++ [.resume] := by simp [toggles_snoc, told]
  refine ⟨?_, fun _ => by simp [now, unkilled], fun _ => by simp [now]⟩
  rw [toggled]
  refine alternates_snoc mirrors.alternate (fun none => ?_) ?_
  · rw [toggles_unkilled unkilled] at none
    simp [none] at paused
  · rw [toggles_unkilled unkilled, paused]
    simp

theorem pause_allowed (allowed : state.apply .pause = some next) :
    state = .running ∧ next = .paused := by
  cases state <;> cases allowed
  exact ⟨rfl, rfl⟩

theorem resume_allowed (allowed : state.apply .resume = some next) :
    state = .paused ∧ next = .running := by
  cases state <;> cases allowed
  exact ⟨rfl, rfl⟩

theorem mirrors_refused {k : Control} {issued : Option Signal} {e : ProcessError}
    (mirrors : Mirrors ds r.state) :
    Mirrors (ds ++ [Deed.control k ⟨r, [], issued, .error e⟩]) r.state := by
  refine mirrors_quiet mirrors rfl ?_
  cases ended : r.state.isTerminal with
  | true => exact Or.inl rfl
  | false => exact Or.inr ⟨rfl, Iff.rfl⟩

theorem mirrors_ending {k : Control} (mirrors : Mirrors ds r.state) (deliver : Delivery)
    (ends : k.ending? = some next) :
    Mirrors (ds ++ [Deed.control k (r.control k deliver)]) (r.control k deliver).runner.state := by
  cases ended : r.state.isTerminal with
  | true =>
    rw [control_terminal ended]
    exact mirrors_refused mirrors
  | false =>
    rw [ending_control ends ended]
    have terminal : next.isTerminal = true := ending_terminal ends
    cases r.attached with
    | false => exact mirrors_quiet mirrors rfl (Or.inl terminal)
    | true =>
      cases deliver .kill with
      | none => exact mirrors_killed mirrors rfl terminal
      | some e => exact mirrors_quiet mirrors rfl (Or.inl terminal)

/-- A control call keeps the state mirrored, whether or not its signal is delivered. -/
theorem mirrors_control (mirrors : Mirrors ds r.state) (k : Control) (deliver : Delivery) :
    Mirrors (ds ++ [Deed.control k (r.control k deliver)]) (r.control k deliver).runner.state := by
  cases k with
  | pause =>
    rw [Runner.control]
    rcases signalThenMove_cases r .pause .pause deliver with
      ⟨_, _, _, left⟩ | ⟨next, allowed, _, _, left⟩
    · rw [left]
      exact mirrors_refused mirrors
    · obtain ⟨running, rfl⟩ := pause_allowed allowed
      rw [running] at mirrors
      rw [left]
      exact mirrors_paused mirrors rfl
  | resume =>
    rw [Runner.control]
    rcases signalThenMove_cases r .resume .resume deliver with
      ⟨_, _, _, left⟩ | ⟨next, allowed, _, _, left⟩
    · rw [left]
      exact mirrors_refused mirrors
    · obtain ⟨paused, rfl⟩ := resume_allowed allowed
      rw [paused] at mirrors
      rw [left]
      exact mirrors_resumed mirrors rfl
  | stop => exact mirrors_ending mirrors deliver rfl
  | timeout => exact mirrors_ending mirrors deliver rfl

theorem spawnFailure_terminal (allowed : state.apply .spawnFailure = some next) :
    next.isTerminal = true := by
  cases state <;> cases allowed
  rfl

theorem exit_terminal {failed : Bool} (allowed : state.apply (.exit failed) = some next) :
    next.isTerminal = true := by
  cases state <;> cases failed <;> cases allowed <;> rfl

theorem step_state {now : Int} {phase : Phase} {m : Move} (made : phase.step app now r = some m) :
    m.runner.state = r.state ∨ (r.state = .initial ∧ m.runner.state = .running) ∨
      m.runner.state.isTerminal = true := by
  cases phase with
  | begin =>
    rcases begin_step made with ⟨initial, rfl⟩ | ⟨_, rfl⟩
    · exact Or.inr (Or.inl ⟨initial, rfl⟩)
    · exact Or.inl rfl
  | fail e =>
    cases made
    rcases move_takes r .spawnFailure with ⟨runner, _⟩ | ⟨next, allowed, runner, _⟩
    · exact Or.inl (congrArg Runner.state runner)
    · exact Or.inr (Or.inr (by simpa only [runner] using spawnFailure_terminal allowed))
  | attach =>
    rcases attach_step made with ⟨_, rfl⟩ | ⟨_, rfl⟩ <;> exact Or.inl rfl
  | finish =>
    simp only [Phase.step] at made
    split at made <;> cases made
    · exact Or.inl rfl
    · rw [after_runner]
      rcases move_takes { r with attached := false } (.exit r.stepFailed) with
        ⟨runner, _⟩ | ⟨next, allowed, runner, _⟩
      · exact Or.inl (by simp only [runner])
      · exact Or.inr (Or.inr (by simpa only [runner] using exit_terminal allowed))
  | announce | launch | lament | relay | conclude =>
    cases made
    exact Or.inl rfl
  | spawning | reading | returned => cases made

theorem mirrors_same (mirrors : Mirrors ds state) (quiet : d.delivered? = none)
    (same : next = state) : Mirrors (ds ++ [d]) next := by
  refine mirrors_quiet mirrors quiet ?_
  rw [same]
  cases ended : state.isTerminal with
  | true => exact Or.inl rfl
  | false => exact Or.inr ⟨rfl, Iff.rfl⟩

theorem mirrors_does (mirrors : Mirrors ds s.runner.state) (does : Does app s d s') :
    Mirrors (ds ++ [d]) s'.runner.state := by
  cases does with
  | proceed j now m made =>
    rcases step_state made with same | ⟨initial, running⟩ | ended
    · exact mirrors_same mirrors rfl same
    · exact mirrors_quiet mirrors rfl (Or.inr (by simp [initial, running, State.isTerminal]))
    · exact mirrors_quiet mirrors rfl (Or.inl ended)
  | answer j waits result => exact mirrors_same mirrors rfl rfl
  | hear j waits said => exact mirrors_same mirrors rfl (receive_state s.runner said)
  | control k deliver => exact mirrors_control mirrors k deliver
  | dispose => exact mirrors_same mirrors rfl rfl

theorem mirrors_course (course : Course app {} ds s) : Mirrors ds s.runner.state := by
  induction course with
  | nil =>
    exact ⟨⟨by simp [toggles, delivered], .nil⟩, fun _ => by simp [delivered],
      fun _ => by simp [delivered]⟩
  | snoc _ does ih => exact mirrors_does ih does

theorem attached_begun (sound : Sound s) (attached : s.runner.attached = true) :
    s.runner.state ≠ .initial := by
  by_cases lead : ∃ i, (s.calls i).accepted = true
  · obtain ⟨i, lead⟩ := lead
    exact (sound.led i lead).begun
  · have vacant := sound.vacant fun i => by simpa using not_exists.mp lead i
    simp [vacant.detached] at attached

theorem lead_silent {events : List Event} (turn : LeadTurn app r c d r' c' events)
    (ended : r.state.isTerminal = true) (past : c.phase ≠ .attach) : d.signal? = none := by
  cases turn with
  | proceed j now m made =>
    cases phase : c.phase with
    | begin =>
      rw [phase] at made
      rcases begin_step made with ⟨_, rfl⟩ | ⟨_, rfl⟩ <;> rfl
    | attach => exact absurd phase past
    | finish =>
      simp only [phase, Phase.step, ended, if_true, Option.some.injEq] at made
      exact made ▸ rfl
    | spawning | reading | returned =>
      rw [phase] at made
      cases made
    | _ =>
      rw [phase] at made
      cases made
      rfl
  | control k deliver => simp [Deed.signal?, control_terminal ended]
  | answer | hear | away | dispose => rfl

theorem killed_past (guarded : Guarded ds r c) (killed : 0 < kills ds) :
    r.state.isTerminal = true ∧ c.phase ≠ .attach := by
  have due := Nat.lt_of_lt_of_le killed guarded.atMost
  refine ⟨isStop_terminal ((due_le c r.state).2 due).2, fun attach => ?_⟩
  simp [due_early (c := c) (by rw [attach]; rfl)] at due

theorem silent_after_kill (course : Course app {} ds s) (killed : 0 < kills ds)
    (does : Does app s d s') : d.signal? = none := by
  by_cases lead : ∃ i, (s.calls i).accepted = true
  · obtain ⟨i, lead⟩ := lead
    obtain ⟨events, turn, -⟩ := does_lead (sound_course sound_fresh course) does lead
    obtain ⟨ended, past⟩ := killed_past (lead_guarded course lead) killed
    exact lead_silent turn ended past
  · have still := course_still course fun i => by simpa using not_exists.mp lead i
    simp [(still_kills still).1] at killed

theorem kills_pos (member : d ∈ ds) (killed : d.kills = true) : 0 < kills ds :=
  List.countP_pos_iff.mpr ⟨d, member, killed⟩

/-- Behind a kill a course is silent. -/
theorem course_silent (course : Course app {} ds s) :
    ds.Pairwise fun first second => first.kills = true → second.signal? = none := by
  induction course with
  | nil => exact .nil
  | snoc before does ih =>
    refine List.pairwise_append.mpr ⟨ih, List.pairwise_singleton .., ?_⟩
    intro first member second new killed
    rw [List.mem_singleton.mp new]
    exact silent_after_kill before (kills_pos member killed) does

theorem concluded_terminal (led : Led s c) (concluded : c.phase.isConcluded = true) :
    s.runner.state.isTerminal = true := by
  have knows := led.knows
  unfold Call.Knows at knows
  cases phase : c.phase <;> simp_all [Phase.isConcluded]

theorem lead_concluded {events : List Event} (turn : LeadTurn app r c d r' c' events)
    (concluded : c.phase.isConcluded = true) : c'.phase.isConcluded = true := by
  cases turn with
  | proceed j now m made =>
    cases phase : c.phase with
    | conclude state result =>
      rw [phase] at made
      cases made
      rfl
    | returned result =>
      rw [phase] at made
      cases made
    | _ => simp [phase, Phase.isConcluded] at concluded
  | answer j waits | hear j waits => simp [waits, Phase.isConcluded] at concluded
  | control | away | dispose => exact concluded

theorem silent_when_concluded (sound : Sound s) (lead : (s.calls i).accepted = true)
    (concluded : (s.calls i).phase.isConcluded = true) (later : Course app s ds s') :
    ∀ d ∈ ds, d.signal? = none := by
  suffices kept : (∀ d ∈ ds, d.signal? = none) ∧ (s'.calls i).accepted = true ∧
      (s'.calls i).phase.isConcluded = true from kept.1
  induction later with
  | nil => exact ⟨fun _ member => (List.not_mem_nil member).elim, lead, concluded⟩
  | @snoc ds s₁ s₂ d before does ih =>
    obtain ⟨silent, lead, concluded⟩ := ih
    have sound := sound_course sound before
    obtain ⟨events, turn, -⟩ := does_lead sound does lead
    refine ⟨fun e member => ?_, accepted_does does lead, lead_concluded turn concluded⟩
    rcases List.mem_append.mp member with old | new
    · exact silent e old
    · rw [List.mem_singleton.mp new]
      refine lead_silent turn (concluded_terminal (sound.led i lead) concluded) fun attach => ?_
      simp [attach, Phase.isConcluded] at concluded

/-- How the signals of a run go with its state. None is issued after a kill, delivered or not. -/
structure SignalsMirrored (app : Option Json) (ds : List Deed) (s : System) : Prop where
  alternate : Alternates (toggles ds)
  afterKill : ds.Pairwise fun first second => first.kills = true → second.signal? = none
  afterExit : ∀ i, (s.calls i).accepted = true → (s.calls i).phase.isConcluded = true →
    ∀ later s', Course app s later s' → ∀ d ∈ later, d.signal? = none
  state : s.runner.attached = true → s.runner.state.isTerminal = false →
    s.runner.state = if (delivered ds).getLast? = some .pause then .paused else .running

/-- Whatever the order of the calls on a run, and whichever signals are delivered. -/
theorem signals_mirror_state (course : Course app {} ds s) : SignalsMirrored app ds s := by
  have sound := sound_course sound_fresh course
  have mirrors := mirrors_course course
  refine ⟨mirrors.alternate, course_silent course, ?_, ?_⟩
  · intro i lead concluded later s' further
    exact silent_when_concluded sound lead concluded further
  · intro attached live
    have begun := attached_begun sound attached
    have last := mirrors.last live
    split
    · rename_i paused
      exact last.mpr paused
    · rename_i other
      have notPaused := mt last.mp other
      cases state : s.runner.state <;> simp_all [State.isTerminal]

/-- A resume is not delivered, the next one is, and then a stop. -/
theorem resumed_late_mirrored : ∃ ds s, Course none {} ds s ∧
    toggles ds = [.pause, .resume] ∧ kills ds = 1 ∧ s.runner.state = .stopped ∧
    SignalsMirrored none ds s := by
  have accepted : Course none {} _ _ := Course.nil.snoc (.proceed 0 0 _ rfl)
  have announced := accepted.snoc (.proceed 0 0 _ rfl)
  have launched := announced.snoc (.proceed 0 0 _ rfl)
  have answered := launched.snoc (.answer 0 rfl (.ok ()))
  have attached := answered.snoc (.proceed 0 0 _ rfl)
  have paused := attached.snoc (.control .pause fun _ => none)
  have refused := paused.snoc (.control .resume deafTo)
  have resumed := refused.snoc (.control .resume fun _ => none)
  have stopped := resumed.snoc (.control .stop fun _ => none)
  exact ⟨_, _, stopped, rfl, rfl, rfl, signals_mirror_state stopped⟩

end

end StepFlow.Run
