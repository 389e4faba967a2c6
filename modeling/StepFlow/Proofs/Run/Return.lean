import StepFlow.Proofs.Run.Interleaving

/-!
A starting call returns. Every step of its own brings it nearer, but for the lines its process says;
no turn of another call moves it. So it returns in every future in which it is served again and
again and its process falls silent, by an end or by nothing more.
-/
namespace StepFlow.Run

/-- All the turns to come, with pauses between them. -/
structure Future (app : Option Json) (s : System) where
  state : Nat → System
  now : state 0 = s
  turn : ∀ n, state (n + 1) = state n ∨ Turn app (state n) (state (n + 1))

/-- How many steps a call can still take to return, if its process says nothing more. -/
def Phase.left : Phase → Nat
  | begin => 8
  | announce => 7
  | launch => 6
  | spawning => 5
  | attach => 4
  | relay _ => 4
  | reading => 3
  | lament _ => 3
  | fail _ => 2
  | finish => 2
  | conclude .. => 1
  | returned _ => 0

section
variable {app : Option Json} {s s' : System}

theorem after_left {r : Section (Except ProcessError Unit)} {next : Phase} {bound : Nat}
    (nearer : next.left < bound) : (Phase.after r next).phase.left < bound := by
  unfold Phase.after
  split
  · exact nearer
  · exact Nat.zero_lt_of_lt nearer

theorem step_left {now : Int} {r : Runner} {phase : Phase} {m : Move}
    (made : phase.step app now r = some m) : m.phase.left < phase.left := by
  cases phase with
  | begin =>
    cases made
    exact after_left (by decide)
  | announce | launch | lament | fail | relay | conclude =>
    cases made
    simp [Phase.left]
  | attach =>
    simp only [Phase.step] at made
    split at made <;> cases made <;> simp [Phase.left]
  | finish =>
    simp only [Phase.step] at made
    split at made
    · cases made
      simp [Phase.left]
    · cases made
      exact after_left (by simp [Phase.left])
  | spawning | reading | returned => cases made

theorem turn_left (turn : Turn app s s') (i : Nat) :
    (s'.calls i).phase = (s.calls i).phase ∨
    (s'.calls i).phase.left < (s.calls i).phase.left ∨
    ((s.calls i).phase = .reading ∧ ∃ line, (s'.calls i).phase = .relay line) := by
  have elsewhere : ∀ {j : Nat} {c : Call}, i ≠ j →
      (Function.update s.calls j c i).phase = (s.calls i).phase := by
    intro j c other
    rw [Function.update_of_ne other]
  cases turn with
  | proceed j now m made =>
    by_cases own : i = j
    · subst own
      exact Or.inr (Or.inl (by simpa [Call.goOn] using step_left made))
    · exact Or.inl (elsewhere own)
  | answer j waits result =>
    by_cases own : i = j
    · subst own
      refine Or.inr (Or.inl ?_)
      cases result <;> simp [waits, Call.answered, Phase.spawned, Phase.left]
    · exact Or.inl (elsewhere own)
  | hear j waits said =>
    by_cases own : i = j
    · subst own
      refine Or.inr ?_
      cases said with
      | none => exact Or.inl (by simp [waits, Call.goOn, Phase.receive, Phase.left])
      | some t =>
        cases t with
        | exited => exact Or.inl (by simp [waits, Call.goOn, Phase.receive, Phase.left])
        | line => exact Or.inr ⟨waits, _, by simp [Call.goOn, Phase.receive]; rfl⟩
    · exact Or.inl (elsewhere own)
  | control => exact Or.inl rfl
  | dispose => exact Or.inl rfl

theorem step_none {now : Int} {r : Runner} {phase : Phase}
    (none : phase.step app now r = none) :
    phase = .spawning ∨ phase = .reading ∨ ∃ result, phase = .returned result := by
  cases phase with
  | spawning => exact Or.inl rfl
  | reading => exact Or.inr (Or.inl rfl)
  | returned result => exact Or.inr (Or.inr ⟨result, rfl⟩)
  | attach | finish =>
    simp only [Phase.step] at none
    split at none <;> cases none
  | _ => cases none

theorem turn_ready {i : Nat} (ongoing : ∀ result, (s.calls i).phase ≠ .returned result) :
    ∃ s', Turn app s s' ∧ (s'.calls i).phase ≠ (s.calls i).phase := by
  cases made : (s.calls i).phase.step app 0 s.runner with
  | some m =>
    refine ⟨_, .proceed i 0 m made, ?_⟩
    have nearer := step_left made
    intro same
    simp only [Function.update_self, Call.goOn] at same
    rw [same] at nearer
    exact Nat.lt_irrefl _ nearer
  | none =>
    rcases step_none made with waits | waits | ⟨result, returned⟩
    · exact ⟨_, .answer i waits (.ok ()), by simp [waits, Call.answered, Phase.spawned]⟩
    · exact ⟨_, .hear i waits none, by simp [waits, Call.goOn, Phase.receive]⟩
    · exact absurd returned (ongoing result)

end

namespace Future
variable {app : Option Json} {s : System} (f : Future app s) (i : Nat)

def phase (n : Nat) : Phase := ((f.state n).calls i).phase

def Serves : Prop :=
  ∀ n, (∃ result, f.phase i n = .returned result) ∨ ∃ m ≥ n, f.phase i (m + 1) ≠ f.phase i m

def FallsSilent : Prop :=
  ∃ n, ∀ m ≥ n, f.phase i m = .reading → ∀ line, f.phase i (m + 1) ≠ .relay line

variable {f i} {quiet n m : Nat}
  (silent : ∀ m ≥ quiet, f.phase i m = .reading → ∀ line, f.phase i (m + 1) ≠ .relay line)
include silent

theorem left_next (later : quiet ≤ n) : f.phase i (n + 1) = f.phase i n ∨
    (f.phase i (n + 1)).left < (f.phase i n).left := by
  rcases f.turn n with same | turn
  · exact Or.inl (by rw [phase, phase, same])
  · rcases turn_left turn i with same | nearer | ⟨reads, line, hears⟩
    · exact Or.inl same
    · exact Or.inr nearer
    · exact absurd hears (silent n later reads line)

theorem left_later (later : quiet ≤ n) (behind : n ≤ m) :
    (f.phase i m).left ≤ (f.phase i n).left := by
  induction behind with
  | refl => exact Nat.le_refl _
  | step behind ih =>
    rcases left_next silent (Nat.le_trans later behind) with same | nearer
    · rw [same]
      exact ih
    · exact Nat.le_trans (Nat.le_of_lt nearer) ih

theorem returns_from (serves : f.Serves i) (later : quiet ≤ n) :
    ∃ m result, f.phase i m = .returned result := by
  generalize left : (f.phase i n).left = bound
  induction bound using Nat.strongRecOn generalizing n with
  | ind bound ih =>
    rcases serves n with ⟨result, returned⟩ | ⟨m, behind, moved⟩
    · exact ⟨n, result, returned⟩
    · have still : quiet ≤ m := Nat.le_trans later behind
      have nearer := (left_next silent still).resolve_left moved
      have before := left_later silent later behind
      exact ih (f.phase i (m + 1)).left (by omega) (Nat.le_succ_of_le still) rfl

end Future

/-- Whatever the other calls do in between. -/
theorem future_returns {app : Option Json} {s : System} {i : Nat} {f : Future app s}
    (serves : f.Serves i) (silent : f.FallsSilent i) :
    ∃ n result, f.phase i n = .returned result := by
  obtain ⟨quiet, silent⟩ := silent
  exact Future.returns_from silent serves (Nat.le_refl quiet)

end StepFlow.Run
