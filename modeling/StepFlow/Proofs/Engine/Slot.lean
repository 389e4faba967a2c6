import StepFlow.Proofs.Engine.Ending

/-!
The slot and the control calls. One call at a time holds the slot, and it has let go of it by the
time it returns, whatever it returns. A control call that acts late, when the run that it found in
the slot has gone, comes to nothing: that run has ended, and no other is touched.
-/
namespace StepFlow.Engine
open Run

section
variable {σ : Type} [World σ] {config : Config} {s s' : System σ} {i : Nat}

/-- A move that turns a call away does nothing else. -/
theorem move_turnsAway {run : String} (sound : Sound s) (move : Move config s s')
    (before : (s.calls i).phase ≠ .returned (.error (.runInProgress run)))
    (after : (s'.calls i).phase = .returned (.error (.runInProgress run))) :
    (s.calls i).phase = .reserve ∧ s.shared.slot.map Active.run = some run ∧
      s' = { s with calls := Function.update s.calls i ((s.calls i).turnedAway run) } := by
  cases move with
  | proceed k t made =>
    by_cases own : i = k
    · subst own
      have phase : t.call.phase = .returned (.error (.runInProgress run)) := by
        simpa [System.goOn] using after
      cases Call.step_cases made with
      | turnedAway active fresh taken =>
        cases phase
        refine ⟨fresh, by simp [taken], ?_⟩
        simp [System.goOn, fresh, Phase.isLaunch, Timer.obey, Call.turnedAway]
      | prepare next w' early later =>
        cases phase
        simp [Phase.isEarly] at later
      | settle next order stage held later =>
        cases phase
        simp [Phase.holds] at later
      | dispose result next held later =>
        cases phase
        simp [Phase.holds] at later
      | release result held =>
        cases phase
        exact absurd held (sound.admitted i run)
      | reserve | install | run => cases phase
    · exact absurd (by simpa [System.goOn, own] using after) before
  | act j c => exact absurd ((act_keeps s c (s.seen j)).1 ▸ after) before
  | look | elapse | strike | drift => exact absurd after before

theorem reach_ended {app run : String} (c : Control)
    (ended : (s.shared.runner run).state.isTerminal = true) :
    (s.reach app run c).world = s.world ∧ (s.reach app run c).log = s.log ∧
      ∀ other, (s.reach app run c).view other = s.view other := by
  have nothing := control_terminal ended c fun signal => (World.deliver signal s.world).2
  refine ⟨?_, ?_, ?_⟩
  · simp [System.reach, Runner.controlIn, nothing, issue]
  · simp [System.reach, Runner.controlIn, nothing]
  · intro other
    obtain ⟨deliver, view⟩ := view_reach (s := s) app run other c
    rw [view]
    by_cases own : other = run
    · subst own
      simp [System.view, control_terminal ended]
    · simp [own]

/-- From `s` to `s'` at most one run is affected. -/
structure ActsOn (run : String) (s s' : System σ) : Prop where
  slot : s'.shared.slot = s.shared.slot
  others : ∀ other, other ≠ run → s'.view other = s.view other
  late : s.shared.slot.map Active.run ≠ some run →
    s'.world = s.world ∧ s'.log = s.log ∧ ∀ other, s'.view other = s.view other

/-- What can be relied on of the slot, however far the calls have got. Being turned away changes
nothing but the call itself, and a run that never had a runner is seen by nobody. A control call
acts on the run that it found in the slot, or on nothing. -/
structure Orderly (config : Config) (s : System σ) : Prop where
  single : ∀ i j, (s.calls i).phase.holds = true → (s.calls j).phase.holds = true → i = j
  held : ∀ i, (s.calls i).phase.holds = true → s.shared.slot.map Active.run = some (s.calls i).run
  owned : ∀ run, s.shared.slot.map Active.run = some run →
    ∃ i, (s.calls i).phase.holds = true ∧ (s.calls i).run = run
  turnedAway : ∀ i run s', Move config s s' →
    (s.calls i).phase ≠ .returned (.error (.runInProgress run)) →
    (s'.calls i).phase = .returned (.error (.runInProgress run)) →
    (s.calls i).phase = .reserve ∧ s.shared.slot.map Active.run = some run ∧
      s' = { s with calls := Function.update s.calls i ((s.calls i).turnedAway run) }
  released : ∀ i result, (s.calls i).phase = .returned result →
    s.shared.slot.map Active.run ≠ some (s.calls i).run
  unseen : ∀ i e, (s.calls i).phase = .returned (.error e) → (∀ e', e ≠ .process e') →
    eventsOf (s.calls i).run s.log = [] ∧ (s.calls i).run ∉ s.launched
  controls : ∀ j c, s.act c (s.seen j) = s ∨
    ∃ run app, s.seen j = some ⟨run, app, some run⟩ ∧ ActsOn run s (s.act c (s.seen j))

theorem slot_names (sound : Sound s) (holds : (s.calls i).phase.holds = true) :
    s.shared.slot.map Active.run = some (s.calls i).run := by
  rw [sound.held i holds]
  rfl

theorem slot_owned {run : String} (sound : Sound s)
    (names : s.shared.slot.map Active.run = some run) :
    ∃ i, (s.calls i).phase.holds = true ∧ (s.calls i).run = run := by
  have taken : s.shared.slot ≠ none := by
    intro free
    simp [free] at names
  obtain ⟨i, holds⟩ := sound.owned taken
  exact ⟨i, holds, Option.some.inj ((slot_names sound holds).symm.trans names)⟩

theorem act_found (sound : Sound s) (j : Nat) (c : Control) :
    s.act c (s.seen j) = s ∨
      ∃ run app, s.seen j = some ⟨run, app, some run⟩ ∧ ActsOn run s (s.act c (s.seen j)) := by
  cases saw : s.seen j with
  | none => exact Or.inl rfl
  | some active =>
    obtain ⟨name, app, runner⟩ := active
    cases runner with
    | none => exact Or.inl rfl
    | some run =>
      obtain ⟨rfl, i, named, equipped⟩ := sound.seen j _ run saw rfl
      refine Or.inr ⟨run, app, rfl, rfl, ?_, ?_⟩
      · intro other elsewhere
        obtain ⟨deliver, view⟩ := view_reach (s := s) app run other c
        exact view.trans (if_neg elsewhere)
      · intro gone
        have away : (s.calls i).phase.holds = false := by
          by_contra holds
          exact gone (named ▸ slot_names sound (by simpa using holds))
        exact reach_ended c (named ▸ gone_ended sound equipped away)

theorem sound_orderly (sound : Sound s) : Orderly config s where
  single := fun _ _ first second => held_alone sound first second
  held := fun _ holds => slot_names sound holds
  owned := fun _ names => slot_owned sound names
  turnedAway := fun _ _ _ move before after => move_turnsAway sound move before after
  released := by
    intro i result returned names
    obtain ⟨k, holds, same⟩ := slot_owned sound names
    cases sound.distinct k i same
    simp [returned, Phase.holds] at holds
  unseen := by
    intro i e returned early
    have accounts := sound.accounts i
    rw [returned, Phase.accounts_none] at accounts
    · exact ⟨accounts.1, List.count_eq_zero.mp accounts.2⟩
    · cases e with
      | process e' => exact absurd rfl (early e')
      | _ => rfl
  controls := fun j c => act_found sound j c

/-- However many calls there are, and however they are interleaved with control calls and time
limits, as long as their runs have names of their own. -/
theorem slot_stays_orderly {w : σ} {names : Nat → String} {requests : Nat → Request}
    (distinct : Function.Injective names) (reached : Reaches config (fresh w names requests) s) :
    Orderly config s :=
  sound_orderly (sound_reaches (sound_fresh distinct) reached)

end

theorem second_call_orderly : ∃ s,
    Reaches plain (fresh ({} : Stage) runName fun _ => emptyFlow) s ∧
    (s.calls 0).phase.holds = true ∧
    (s.calls 1).phase = .returned (.error (.runInProgress (runName 0))) ∧ Orderly plain s := by
  have reserved : Reaches plain (fresh ({} : Stage) runName fun _ => emptyFlow) _ :=
    .tail .refl (.proceed 0 _ rfl)
  have turnedAway := reserved.tail (.proceed 1 _ rfl)
  exact ⟨_, turnedAway, rfl, rfl, slot_stays_orderly runName_injective turnedAway⟩

end StepFlow.Engine
