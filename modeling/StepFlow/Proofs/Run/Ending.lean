import Mathlib.Logic.Relation
import StepFlow.Proofs.Run.Return
import StepFlow.Run.World

/-!
What any number of turns comes to. Once the accepted start has returned, the run has ended and
nothing more is reported, whatever is called. A starting call in a world takes turns too.
-/
namespace StepFlow.Run

abbrev Reaches (app : Option Json) : System → System → Prop := Relation.ReflTransGen (Turn app)

section
variable {app : Option Json} {s s' : System} {i : Nat}

theorem sound_reaches (sound : Sound s) (reached : Reaches app s s') : Sound s' := by
  induction reached with
  | refl => exact sound
  | tail _ turn ih => exact sound_turn ih turn

/-- Once the accepted start has returned, no turn adds to the log. -/
theorem returned_turn (sound : Sound s) (lead : (s.calls i).accepted = true)
    {result : Except ProcessError State} (phase : (s.calls i).phase = .returned result)
    (turn : Turn app s s') :
    s'.log = s.log ∧ (s'.calls i).accepted = true ∧ (s'.calls i).phase = .returned result := by
  have l := sound.led i lead
  have ended : s.runner.state.isTerminal = true := returned_terminal l.knows phase
  cases turn with
  | proceed j now m made =>
    by_cases own : j = i
    · subst own
      rw [phase] at made
      cases made
    · refine ⟨?_, ?_, ?_⟩
      · rcases sound.outside j (alone_of_lead sound lead j own) with ⟨fresh, _⟩ | ⟨e, away⟩
        · rw [fresh] at made
          cases made
          simp [Runner.move, apply_terminal ended, Phase.after]
        · rw [away] at made
          cases made
      · simpa [Function.update_of_ne (Ne.symm own)] using lead
      · simpa [Function.update_of_ne (Ne.symm own)] using phase
  | answer j waits answer =>
    have own := sound.single j i (waiting_leads sound (Or.inl waits)) lead
    subst own
    simp [phase] at waits
  | hear j waits said =>
    have own := sound.single j i (waiting_leads sound (Or.inr waits)) lead
    subst own
    simp [phase] at waits
  | control c deliver =>
    refine ⟨?_, lead, phase⟩
    rcases control_takes s.runner c deliver with ⟨_, events⟩ | ⟨next, allowed, _⟩
    · simp [events]
    · simp [apply_terminal ended] at allowed
  | dispose => exact ⟨rfl, lead, phase⟩

theorem returned_reaches (sound : Sound s) (lead : (s.calls i).accepted = true)
    {result : Except ProcessError State} (phase : (s.calls i).phase = .returned result)
    (reached : Reaches app s s') : s'.log = s.log := by
  have kept : s'.log = s.log ∧ (s'.calls i).accepted = true ∧
      (s'.calls i).phase = .returned result := by
    induction reached with
    | refl => exact ⟨rfl, lead, phase⟩
    | tail before turn ih =>
      obtain ⟨log, lead, phase⟩ := ih
      obtain ⟨same, lead, phase⟩ := returned_turn (sound_reaches sound before) lead phase turn
      exact ⟨same.trans log, lead, phase⟩
  exact kept.1

theorem vacant_or_led (sound : Sound s) :
    Vacant s ∨ ∃ i, (s.calls i).accepted = true ∧ Led s (s.calls i) := by
  by_cases vacant : ∀ i, (s.calls i).accepted = false
  · exact Or.inl (sound.vacant vacant)
  · obtain ⟨i, lead⟩ := not_forall.mp vacant
    have lead : (s.calls i).accepted = true := by simpa using lead
    exact Or.inr ⟨i, lead, sound.led i lead⟩

/-- What can be relied on of a run that all its calls have brought this far. A start returns if it
is served again and again and its process falls silent. -/
structure Lawful (app : Option Json) (s : System) : Prop where
  path : Path .initial (changes s.log) s.runner.state
  single : ∀ i j, (s.calls i).accepted = true → (s.calls j).accepted = true → i = j
  launches : s.launches ≤ 1
  unaccepted : (∀ i, (s.calls i).accepted = false) → s.log.countP Event.isStart = 0 ∧
    s.log.countP Event.isStep = 0 ∧ s.log.countP Event.isEnd = 0
  started : ∀ i, (s.calls i).accepted = true →
    s.log.countP Event.isStart = if (s.calls i).phase.isAnnounce then 0 else 1
  order : ∀ before e after, s.log = before ++ e :: after →
    (e.isStart = true → .stateChanged .running ∈ before ∧ before.countP Event.isStart = 0 ∧
      before.countP Event.isStep = 0) ∧
    (e.isStep = true → before.countP Event.isStart = 1)
  returned : ∀ i result, (s.calls i).accepted = true → (s.calls i).phase = .returned result →
    (∃ before time app', s.log = before ++ [.runEnded time s.runner.state app'] ∧
      before.countP Event.isEnd = 0) ∧
    s.runner.state.isTerminal = true ∧ (changes s.log).getLast? = some s.runner.state ∧
    result = (s.calls i).outcome s.runner.state ∧ ∀ s', Reaches app s s' → s'.log = s.log
  ready : ∀ i, (∀ result, (s.calls i).phase ≠ .returned result) →
    ∃ s', Turn app s s' ∧ (s'.calls i).phase ≠ (s.calls i).phase
  returns : ∀ (f : Future app s) i, f.Serves i → f.FallsSilent i →
    ∃ n result, f.phase i n = .returned result

/-- Whatever the order of the calls on a run, and whatever the process and its signals do. -/
theorem reached_lawful (reached : Reaches app {} s) : Lawful app s := by
  have sound := sound_reaches sound_fresh reached
  have reported : ∃ progress, readLog s.log = some progress := by
    rcases vacant_or_led sound with v | ⟨i, _, l⟩
    · exact ⟨_, v.progress⟩
    · exact ⟨_, l.progress⟩
  refine ⟨sound.path, sound.single, ?_, ?_, ?_, ?_, ?_, fun _ ongoing => turn_ready ongoing,
    fun _ _ serves silent => future_returns serves silent⟩
  · rcases vacant_or_led sound with v | ⟨i, _, l⟩
    · rw [v.launches]
      exact Nat.zero_le 1
    · rw [l.launches]
      cases (s.calls i).phase <;> simp [Phase.launches]
  · intro vacant
    have held := readLog_holds (sound.vacant vacant).progress
    exact ⟨held.starts, held.steps rfl, held.ends⟩
  · intro i lead
    have l := sound.led i lead
    rw [(readLog_holds l.progress).starts]
    have knows := l.knows
    cases phase : (s.calls i).phase <;> simp [Phase.progress, Progress.starts, Phase.isAnnounce]
    simp [Call.Knows, phase] at knows
  · intro before e after split
    obtain ⟨progress, read⟩ := reported
    rw [split] at read
    exact ⟨start_in_order read, step_in_order read⟩
  · intro i result lead phase
    have l := sound.led i lead
    have knows := l.knows
    simp only [Call.Knows, phase] at knows
    have closed := l.progress
    rw [phase] at closed
    exact ⟨closed_ends closed, knows.1, path_last sound.path (Ne.symm l.begun), knows.2,
      fun s' later => returned_reaches sound lead phase later⟩

theorem stopped_early_lawful : ∃ s, Reaches none {} s ∧
    (s.calls 0).phase = .returned (.error (.spawn "missing")) ∧ Lawful none s := by
  have accepted : Reaches none {} _ := .tail .refl (Turn.proceed 0 0 _ rfl)
  have stopped := accepted.tail (.control .stop fun _ => none)
  have announced := stopped.tail (.proceed 0 0 _ rfl)
  have launched := announced.tail (.proceed 0 0 _ rfl)
  have refused := launched.tail (.answer 0 rfl (.error (.spawn "missing")))
  have lamented := refused.tail (.proceed 0 0 _ rfl)
  have failed := lamented.tail (.proceed 0 0 _ rfl)
  have returned := failed.tail (.proceed 0 0 _ rfl)
  exact ⟨_, returned, rfl, reached_lawful returned⟩

end

def Phase.isLaunch : Phase → Bool
  | launch => true
  | _ => false

theorem step_launches {app : Option Json} {now : Int} {r : Runner} {phase : Phase} {m : Move}
    (made : phase.step app now r = some m) : m.launches = phase.isLaunch := by
  have quiet : ∀ (s : Section (Except ProcessError Unit)) next,
      (Phase.after s next).launches = false := by
    intro s next
    unfold Phase.after
    split <;> rfl
  cases phase with
  | begin =>
    cases made
    exact quiet _ _
  | announce | launch | lament | fail | relay | conclude =>
    cases made
    rfl
  | attach =>
    simp only [Phase.step] at made
    split at made <;> cases made <;> rfl
  | finish =>
    simp only [Phase.step] at made
    split at made
    · cases made
      rfl
    · cases made
      exact quiet _ _
  | spawning | reading | returned => cases made

section
variable {σ : Type} [World σ] {a : Attempt} {w : σ} {r : Runner} {s : System} {i : Nat}

theorem step?_turn {next : Stepped σ} (made : a.step? w r = some next) (shared : s.runner = r)
    (phase : (s.calls i).phase = a.phase) :
    ∃ s', Turn a.config.app s s' ∧ s'.runner = next.runner ∧
      (s'.calls i).phase = next.attempt.phase ∧ s'.log = s.log ++ next.events ∧
      next.attempt.config = a.config ∧ (∀ k, k ≠ i → s'.calls k = s.calls k) ∧
      s'.launches = s.launches + a.phase.isLaunch.toNat := by
  subst shared
  unfold Attempt.step? at made
  split at made
  · rename_i waits
    split at made
    · rename_i w' result _
      cases made
      refine ⟨_, .answer i (phase.trans waits) result, rfl, ?_, (List.append_nil _).symm, rfl,
        fun k other => Function.update_of_ne other .., by simp [waits, Phase.isLaunch]⟩
      cases result <;> simp [Call.answered]
    · cases made
  · rename_i waits
    split at made
    · rename_i w' said _
      cases made
      exact ⟨_, .hear i (phase.trans waits) said, rfl, by simp [Call.goOn], rfl, rfl,
        fun k other => Function.update_of_ne other .., by simp [waits, Phase.isLaunch]⟩
    · cases made
  · split at made
    · cases made
    · rename_i m stepped
      cases made
      have asks := step_launches stepped
      rw [← phase] at stepped
      exact ⟨_, .proceed i _ m stepped, rfl, by simp [Call.goOn], rfl, rfl,
        fun k other => Function.update_of_ne other .., by simp only [asks]⟩

theorem run_reaches (fuel : Nat) {events : List Event} (shared : s.runner = r)
    (phase : (s.calls i).phase = a.phase) (log : s.log = events) :
    ∃ s', Reaches a.config.app s s' ∧ s'.runner = (a.run fuel w r events).runner ∧
      (s'.calls i).phase = (a.run fuel w r events).attempt.phase ∧
      s'.log = (a.run fuel w r events).events := by
  induction fuel generalizing a w r s events with
  | zero => exact ⟨s, .refl, shared, phase, log⟩
  | succ fuel ih =>
    rw [Attempt.run]
    cases made : a.step? w r with
    | none => exact ⟨s, .refl, shared, phase, log⟩
    | some next =>
      obtain ⟨s₁, turn, runner, phase, log₁, config, _⟩ := step?_turn made shared phase
      obtain ⟨s', reached, rest⟩ := ih runner phase (log₁.trans (by rw [log]))
      exact ⟨s', .head turn (config ▸ reached), rest⟩

end

end StepFlow.Run
