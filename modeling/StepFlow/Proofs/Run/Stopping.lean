import StepFlow.Proofs.Run.Outcome

/-!
A stop reaches the process. There are two places that kill: the section of a stop, once the process
is attached, and the accepted start, which looks at the state with the new process in its hands. The
state and how far that start has come tell how many kills are due, and that many have been sent.
-/
namespace StepFlow.Run

def Deed.kills (d : Deed) : Bool := d.signal? == some .kill

def kills (ds : List Deed) : Nat := ds.countP Deed.kills

def Call.served (c : Call) : Bool :=
  match c.phase with
  | .attach => true
  | .reading => true
  | .relay _ => true
  | .finish => true
  | .conclude .. => c.refusal.isNone
  | .returned _ => c.refusal.isNone
  | _ => false

def Phase.isRead : Phase → Bool
  | reading => true
  | relay _ => true
  | finish => true
  | _ => false

/-- The kills that are due: one for a stopped run, once the accepted start has attached its process
or found the run stopped. -/
def Call.due (c : Call) (state : State) : Nat :=
  match c.phase with
  | .reading => state.isStop.toNat
  | .relay _ => state.isStop.toNat
  | .finish => state.isStop.toNat
  | .conclude .. => (c.refusal.isNone && state.isStop).toNat
  | .returned _ => (c.refusal.isNone && state.isStop).toNat
  | _ => 0

/-- What a course has to do with the process of its accepted start. Only if the process has never
been let go of is every kill sure to have been sent. -/
structure Guarded (ds : List Deed) (r : Runner) (c : Call) : Prop where
  served : ds.countP Deed.spawns = c.served.toNat
  atMost : kills ds ≤ c.due r.state
  atLeast : .dispose ∉ ds → c.due r.state ≤ kills ds
  attached : .dispose ∉ ds → c.phase.isRead = true → r.state.isTerminal = false →
    r.attached = true

section
variable {app : Option Json} {s s' : System} {ds : List Deed} {d : Deed} {i : Nat}
  {r r' : Runner} {c c' : Call}

theorem kills_snoc : kills (ds ++ [d]) = kills ds + d.kills.toNat := by
  rw [kills, List.countP_append, ← kills]
  cases killed : d.kills <;> simp [killed]

theorem due_live (live : r.state.isTerminal = false) : c.due r.state = 0 := by
  have goesOn := live_not_stop live
  unfold Call.due
  cases c.phase <;> simp [goesOn]

theorem due_early (early : c.phase.isEarly = true) (state : State) : c.due state = 0 := by
  unfold Call.due
  cases phase : c.phase <;> simp_all [Phase.isEarly]

theorem due_read (isRead : c.phase.isRead = true) (state : State) :
    c.due state = state.isStop.toNat := by
  unfold Call.due
  cases phase : c.phase <;> simp_all [Phase.isRead]

theorem read_or_early (led : Led s c) (live : s.runner.state.isTerminal = false) :
    c.phase.isRead = true ∨ c.phase.isEarly = true := by
  have knows := led.knows
  unfold Call.Knows at knows
  cases phase : c.phase <;> simp_all [Phase.isRead, Phase.isEarly]

theorem early_kills (guarded : Guarded ds r c) (early : c.phase.isEarly = true) :
    kills ds = 0 := by
  have atMost := guarded.atMost
  rwa [due_early early, Nat.le_zero] at atMost

theorem live_kills (guarded : Guarded ds r c) (live : r.state.isTerminal = false) :
    kills ds = 0 := by
  have atMost := guarded.atMost
  rwa [due_live live, Nat.le_zero] at atMost

theorem guarded_exact (served : ds.countP Deed.spawns = c.served.toNat)
    (sent : kills ds = c.due r.state)
    (attached : c.phase.isRead = true → r.state.isTerminal = false → r.attached = true) :
    Guarded ds r c :=
  ⟨served, Nat.le_of_eq sent, fun _ => Nat.le_of_eq sent.symm, fun _ => attached⟩

theorem kept_before (kept : Deed.dispose ∉ ds ++ [d]) : Deed.dispose ∉ ds :=
  fun member => kept (List.mem_append_left _ member)

theorem guarded_idle (guarded : Guarded ds r c) (silent : d.kills = false)
    (spawns : d.spawns = false) (served : c'.served = c.served)
    (due : c'.due r'.state = c.due r.state)
    (attached : c'.phase.isRead = true → r'.state.isTerminal = false →
      c.phase.isRead = true ∧ r.state.isTerminal = false ∧ r'.attached = r.attached) :
    Guarded (ds ++ [d]) r' c' where
  served := by simp [guarded.served, spawns, served]
  atMost := by simpa [kills_snoc, silent, due] using guarded.atMost
  atLeast := by
    intro kept
    simpa [kills_snoc, silent, due] using guarded.atLeast (kept_before kept)
  attached := by
    intro kept isRead live
    obtain ⟨wasRead, wasLive, same⟩ := attached isRead live
    exact same.trans (guarded.attached (kept_before kept) wasRead wasLive)

theorem guarded_attach {now : Int} {m : Move} (phase : c.phase = .attach)
    (decided : r.state ≠ .success ∧ r.state ≠ .error) (guarded : Guarded ds r c)
    (made : Phase.attach.step app now r = some m) :
    Guarded (ds ++ [Deed.proceed i m]) m.runner (c.goOn m.phase) := by
  have none : kills ds = 0 := early_kills guarded (by rw [phase]; rfl)
  have served : ds.countP Deed.spawns = 1 := by simp [guarded.served, Call.served, phase]
  rcases attach_step made with ⟨terminal, rfl⟩ | ⟨live, rfl⟩
  · refine guarded_exact ?_ ?_ fun _ live => by simp [terminal] at live
    · simp [served, Deed.spawns, Call.served, Call.goOn]
    · rw [kills_snoc, none, due_read rfl, terminal_isStop decided terminal]
      rfl
  · refine guarded_exact ?_ ?_ fun _ _ => rfl
    · simp [served, Deed.spawns, Call.served, Call.goOn]
    · rw [kills_snoc, none, due_live live]
      rfl

theorem guarded_finish {now : Int} {m : Move} (phase : c.phase = .finish)
    (noRefusal : c.refusal = none) (begun : r.state ≠ .initial) (guarded : Guarded ds r c)
    (made : Phase.finish.step app now r = some m) :
    Guarded (ds ++ [Deed.proceed i m]) m.runner (c.goOn m.phase) := by
  rcases finish_step begun made with ⟨_, rfl⟩ | ⟨live, rfl⟩
  · exact guarded_idle guarded rfl rfl (by simp [Call.served, Call.goOn, phase, noRefusal])
      (by simp [Call.due, Call.goOn, phase, noRefusal]) (by simp [Call.goOn, Phase.isRead])
  · have goesOn : r.verdict.isStop = false := by
      unfold Runner.verdict
      split <;> rfl
    refine guarded_idle guarded rfl rfl (by simp [Call.served, Call.goOn, phase, noRefusal]) ?_
      (by simp [Call.goOn, Phase.isRead])
    rw [due_live live, Call.due]
    simp [Call.goOn, goesOn]

theorem guarded_step {now : Int} {m : Move} (led : Led s c) (decided : Decided s.runner c)
    (guarded : Guarded ds s.runner c) (made : c.phase.step app now s.runner = some m) :
    Guarded (ds ++ [Deed.proceed i m]) m.runner (c.goOn m.phase) := by
  have knows := led.knows
  unfold Call.Knows at knows
  unfold Decided at decided
  -- only the step with the new process can kill; the others keep the balance
  cases phase : c.phase with
  | begin => simp [phase] at knows
  | announce | launch | lament | conclude =>
    rw [phase] at made
    cases made
    exact guarded_idle guarded rfl rfl (by simp [Call.served, Call.goOn, phase])
      (by simp [Call.due, Call.goOn, phase]) (by simp [Call.goOn, Phase.isRead])
  | fail e =>
    simp only [phase] at made knows
    cases made
    exact guarded_idle guarded rfl rfl (by simp [Call.served, Call.goOn, phase, knows])
      (by simp [Call.due, Call.goOn, phase, knows]) (by simp [Call.goOn, Phase.isRead])
  | attach =>
    simp only [phase] at made decided
    exact guarded_attach phase decided guarded made
  | relay line =>
    rw [phase] at made
    cases made
    exact guarded_idle guarded rfl rfl (by simp [Call.served, Call.goOn, phase])
      (by simp [Call.due, Call.goOn, phase])
      (fun _ live => ⟨by simp [phase, Phase.isRead], live, rfl⟩)
  | finish =>
    simp only [phase] at made knows
    exact guarded_finish phase knows led.begun guarded made
  | spawning | reading | returned =>
    rw [phase] at made
    cases made

theorem guarded_answer {result : Except ProcessError Unit} (waits : c.phase = .spawning)
    (guarded : Guarded ds r c) :
    Guarded (ds ++ [Deed.answer i result]) r (c.answered result) := by
  cases result with
  | error e =>
    exact guarded_idle guarded rfl rfl (by simp [Call.served, Call.answered, Phase.spawned, waits])
      (by simp [Call.due, Call.answered, Phase.spawned, waits])
      (by simp [Call.answered, Phase.spawned, Phase.isRead])
  | ok done =>
    have none : kills ds = 0 := early_kills guarded (by rw [waits]; rfl)
    refine guarded_exact ?_ ?_ fun isRead => ?_
    · simp [guarded.served, Deed.spawns, Call.served, Call.answered, Phase.spawned, waits]
    · rw [kills_snoc, none, due_early rfl]
      rfl
    · simp [Call.answered, Phase.spawned, Phase.isRead] at isRead

theorem guarded_hear (waits : c.phase = .reading) (guarded : Guarded ds r c)
    (said : Option Transport) :
    Guarded (ds ++ [Deed.hear i said]) (Phase.receive r said).runner
      (c.goOn (Phase.receive r said).phase) := by
  have attached : (Phase.receive r said).runner.attached = r.attached := by
    cases said with
    | none => rfl
    | some t => cases t <;> rfl
  have isRead : (Phase.receive r said).phase.isRead = true ∧
      (c.goOn (Phase.receive r said).phase).served = true := by
    cases said with
    | none => exact ⟨rfl, rfl⟩
    | some t => cases t <;> exact ⟨rfl, rfl⟩
  refine guarded_idle guarded rfl rfl ?_ ?_ fun _ live => ?_
  · rw [isRead.2, Call.served, waits]
  · rw [due_read isRead.1, due_read (by rw [waits]; rfl), receive_state]
  · exact ⟨by rw [waits]; rfl, receive_state r said ▸ live, attached⟩

theorem control_kills (r : Runner) (k : Control) (deliver : Delivery) :
    (Deed.control k (r.control k deliver)).kills =
      ((Deed.control k (r.control k deliver)).stops && r.attached) := by
  have signalled : ∀ action signal, signal ≠ .kill →
      ((r.signalThenMove action signal deliver).signal == some .kill) = false := by
    intro action signal other
    unfold Runner.signalThenMove
    cases r.state.apply action with
    | none => rfl
    | some next =>
      cases r.attached <;> cases deliver signal <;> simp [other]
  have killed : ∀ action, ((r.moveThenKill action deliver).signal == some .kill) =
      (!(r.moveThenKill action deliver).events.isEmpty && r.attached) := by
    intro action
    unfold Runner.moveThenKill
    cases allowed : r.state.apply action with
    | none => simp [move_refused allowed]
    | some next => cases attached : r.attached <;> simp [move_allowed allowed]
  cases k with
  | pause => exact signalled .pause .pause (by simp)
  | resume => exact signalled .resume .resume (by simp)
  | stop => exact killed .stop
  | timeout => exact killed .timeout

theorem stops_live {k : Control} {deliver : Delivery}
    (stops : (Deed.control k (r.control k deliver)).stops = true) :
    r.state.isTerminal = false := by
  rcases control_takes r k deliver with ⟨_, events⟩ | ⟨next, allowed, _⟩
  · cases k <;> simp [Deed.stops, events] at stops
  · exact apply_live allowed

theorem guarded_control (led : Led s c) (guarded : Guarded ds s.runner c) (k : Control)
    (deliver : Delivery) :
    Guarded (ds ++ [Deed.control k (s.runner.control k deliver)])
      (s.runner.control k deliver).runner c := by
  have stopped := control_isStop s.runner k deliver
  have killed := control_kills s.runner k deliver
  obtain ⟨attached, _⟩ := control_keeps s.runner k deliver
  cases stops : (Deed.control k (s.runner.control k deliver)).stops with
  | false =>
    rw [stops, Bool.or_false] at stopped
    rw [stops, Bool.false_and] at killed
    refine guarded_idle guarded killed rfl rfl ?_ fun isRead live => ⟨isRead, ?_, attached⟩
    · unfold Call.due
      simp only [stopped]
    · rcases control_takes s.runner k deliver with ⟨runner, _⟩ | ⟨next, allowed, _⟩
      · rwa [runner] at live
      · exact apply_live allowed
  | true =>
    have live := stops_live stops
    have none := live_kills guarded live
    rw [stops, Bool.or_true] at stopped
    rw [stops, Bool.true_and] at killed
    have count : kills (ds ++ [Deed.control k (s.runner.control k deliver)]) =
        s.runner.attached.toNat := by
      rw [kills_snoc, none, killed, Nat.zero_add]
    have ended := isStop_terminal stopped
    refine ⟨by simp [guarded.served, Deed.spawns], ?_, ?_, fun _ _ live => by simp [ended] at live⟩
    · rw [count]
      rcases read_or_early led live with isRead | early
      · rw [due_read isRead, stopped]
        exact Bool.toNat_le _
      · rw [(led.early early).1]
        exact Nat.zero_le _
    · intro kept
      rw [count]
      rcases read_or_early led live with isRead | early
      · refine Nat.le_of_eq ?_
        rw [due_read isRead, stopped, guarded.attached (kept_before kept) isRead live]
      · rw [due_early early]
        exact Nat.zero_le _

theorem still_kills (still : Still ds s) : kills ds = 0 ∧ ds.countP Deed.spawns = 0 := by
  refine ⟨List.countP_eq_zero.mpr fun d member => ?_, List.countP_eq_zero.mpr fun d member => ?_⟩
  · simp [Deed.kills, (still.idle d member).signal]
  · simp [(still.idle d member).spawns]

/-- However a course goes, the process of its accepted start is guarded. -/
theorem lead_guarded (course : Course app {} ds s) (lead : (s.calls i).accepted = true) :
    Guarded ds s.runner (s.calls i) := by
  refine lead_induction (P := fun ds r c _ => Guarded ds r c) ?_ ?_ course lead
  · intro ds s i still
    obtain ⟨none, unspawned⟩ := still_kills still
    refine guarded_exact ?_ ?_ fun isRead => by cases isRead
    · simp [unspawned, Deed.spawns, Call.served]
    · rw [kills_snoc, none]
      rfl
  · intro ds s i d r' c' events course lead guarded turn
    have led := (sound_course sound_fresh course).led i lead
    cases turn with
    | proceed j now m made => exact guarded_step led (lead_decided course lead) guarded made
    | answer j waits result => exact guarded_answer waits guarded
    | hear j waits said => exact guarded_hear waits guarded said
    | control k deliver => exact guarded_control led guarded k deliver
    | away j e =>
      exact guarded_idle guarded rfl rfl rfl rfl fun isRead live => ⟨isRead, live, rfl⟩
    | dispose =>
      refine ⟨?_, ?_, fun kept => by simp at kept, fun kept => by simp at kept⟩
      · simp [guarded.served, Deed.spawns]
      · simpa [kills_snoc, Deed.kills, Deed.signal?, Runner.dispose] using guarded.atMost

theorem starts_initial (sound : Sound s) (does : Does app s d s') (starts : d.starts = true) :
    s.runner.state = .initial := by
  cases does with
  | proceed j now m made =>
    cases lead : (s.calls j).accepted with
    | false =>
      refine (does_accepts sound (.proceed j now m made) lead ?_).1
      have announce : m.phase.isAnnounce = true := starts
      simp [Call.goOn, announce]
    | true =>
      have knows := (sound.led j lead).knows
      have announce : m.phase.isAnnounce = true := starts
      unfold Call.Knows at knows
      cases phase : (s.calls j).phase with
      | begin => simp [phase] at knows
      | attach =>
        rw [phase] at made
        rcases attach_step made with ⟨_, rfl⟩ | ⟨_, rfl⟩ <;> cases announce
      | finish =>
        rw [phase] at made
        rcases finish_step (sound.led j lead).begun made with ⟨_, rfl⟩ | ⟨_, rfl⟩ <;> cases announce
      | spawning | reading | returned => simp [phase, Phase.step] at made
      | _ =>
        rw [phase] at made
        cases made
        cases announce
  | answer | hear | control | dispose => cases starts

theorem course_order (course : Course app {} ds s) :
    ds.Pairwise fun first second => first.stops = true → second.starts = false := by
  induction course with
  | nil => exact .nil
  | @snoc ds s s' d before does ih =>
    refine List.pairwise_append.mpr ⟨ih, List.pairwise_singleton .., ?_⟩
    intro e member f new stops
    rw [List.mem_singleton.mp new]
    by_contra starts
    have initial := starts_initial (sound_course sound_fresh before) does (by simpa using starts)
    have stopped := course_isStop before
    rw [initial, List.any_eq_true.mpr ⟨e, member, stops⟩] at stopped
    cases stopped

theorem course_accepted (course : Course app {} ds s) (lead : (s.calls i).accepted = true) :
    ∃ d ∈ ds, d.starts = true := by
  refine lead_induction (P := fun ds _ _ _ => ∃ d ∈ ds, d.starts = true) ?_ ?_ course lead
  · intro ds s i _
    exact ⟨_, List.mem_concat_self, rfl⟩
  · intro ds s i d r' c' events _ _ accepted _
    obtain ⟨e, member, starts⟩ := accepted
    exact ⟨e, List.mem_append_left _ member, starts⟩

theorem stop_first (course : Course app {} ds s) {before after : List Deed}
    (split : ds = before ++ d :: after) (stops : d.stops = true)
    (first : ∀ e ∈ before, e.starts = false) (i : Nat) : (s.calls i).accepted = false := by
  by_contra lead
  obtain ⟨e, member, starts⟩ := course_accepted course (i := i) (by simpa using lead)
  have order := course_order course
  rw [split] at member order
  rcases List.mem_append.mp member with early | late
  · simp [first e early] at starts
  rcases List.mem_cons.mp late with rfl | late
  · cases e <;> simp [Deed.stops, Deed.starts] at stops starts
  · have := List.rel_of_pairwise_cons (List.pairwise_append.mp order).2.1 late stops
    simp [this] at starts

theorem returned_silent (sound : Sound s) (lead : (s.calls i).accepted = true)
    {result : Except ProcessError State} (phase : (s.calls i).phase = .returned result)
    (does : Does app s d s') : d.kills = false := by
  obtain ⟨events, turn, -⟩ := does_lead sound does lead
  generalize s'.runner = r', s'.calls i = c' at turn
  cases turn with
  | proceed j now m made =>
    rw [phase] at made
    cases made
  | answer j waits | hear j waits => simp [phase] at waits
  | control k deliver =>
    rw [control_kills]
    by_contra killed
    have live := stops_live (Bool.and_eq_true_iff.mp (by simpa using killed)).1
    simp [returned_terminal (sound.led i lead).knows phase] at live
  | away | dispose => rfl

theorem returned_kills (sound : Sound s) (lead : (s.calls i).accepted = true)
    {result : Except ProcessError State} (phase : (s.calls i).phase = .returned result)
    (later : Course app s ds s') : kills ds = 0 := by
  suffices kept : kills ds = 0 ∧ (s'.calls i).accepted = true ∧
      (s'.calls i).phase = .returned result from kept.1
  induction later with
  | nil => exact ⟨rfl, lead, phase⟩
  | @snoc ds s₁ s₂ d before does ih =>
    obtain ⟨none, lead, phase⟩ := ih
    have sound := sound_course sound before
    obtain ⟨_, lead', phase'⟩ := returned_turn sound lead phase (turn_iff.mpr ⟨d, does⟩)
    refine ⟨?_, lead', phase'⟩
    rw [kills_snoc, none, returned_silent sound lead phase does]
    rfl

/-- What can be relied on of the stops of a run. A kill is sent at most once, and only to the
process of a stopped run; when the accepted start has returned it has been sent there, unless the
process has been let go of. A stop accepted before any start keeps a process from being asked for.
-/
structure StopsKept (app : Option Json) (ds : List Deed) (s : System) : Prop where
  single : ds.countP Deed.spawns ≤ 1
  needed : 0 < kills ds → kills ds = 1 ∧ ds.countP Deed.spawns = 1 ∧
    (s.runner.state = .stopped ∨ s.runner.state = .timeout)
  sent : ∀ i result, (s.calls i).accepted = true → (s.calls i).phase = .returned result →
    .dispose ∉ ds → ds.countP Deed.spawns = 1 →
    s.runner.state = .stopped ∨ s.runner.state = .timeout → kills ds = 1
  quiet : ∀ i result, (s.calls i).accepted = true → (s.calls i).phase = .returned result →
    ∀ later s', Course app s later s' → kills later = 0
  first : ∀ before d after, ds = before ++ d :: after → d.stops = true →
    (∀ e ∈ before, e.starts = false) → ∀ e ∈ ds, e.launches = false ∧ e.spawns = false

theorem due_le (c : Call) (state : State) :
    c.due state ≤ 1 ∧ (0 < c.due state → c.served = true ∧ state.isStop = true) := by
  unfold Call.due Call.served
  cases c.phase <;> cases c.refusal.isNone <;> cases state.isStop <;> simp

/-- Whatever the order of the calls on a run, and whatever becomes of its process. -/
theorem stop_never_lost (course : Course app {} ds s) : StopsKept app ds s := by
  have sound := sound_course sound_fresh course
  have led : Still ds s ∨ ∃ c : Call, Guarded ds s.runner c := by
    by_cases none : ∀ i, (s.calls i).accepted = false
    · exact Or.inl (course_still course none)
    · obtain ⟨i, lead⟩ := not_forall.mp none
      exact Or.inr ⟨_, lead_guarded course (i := i) (by simpa using lead)⟩
  refine ⟨?_, ?_, ?_, ?_, ?_⟩
  · rcases led with still | ⟨c, guarded⟩
    · simp [(still_kills still).2]
    · rw [guarded.served]
      exact Bool.toNat_le _
  · intro killed
    rcases led with still | ⟨c, guarded⟩
    · simp [(still_kills still).1] at killed
    · obtain ⟨once, due⟩ := due_le c s.runner.state
      obtain ⟨served, stopped⟩ := due (Nat.lt_of_lt_of_le killed guarded.atMost)
      have atMost := guarded.atMost
      exact ⟨by omega, by simp [guarded.served, served], isStop_iff.mp stopped⟩
  · intro i result lead phase kept spawned stopped
    have guarded := lead_guarded course lead
    have served : (s.calls i).refusal = none := by
      simpa [guarded.served, Call.served, phase] using spawned
    have due : (s.calls i).due s.runner.state = 1 := by
      simp [Call.due, phase, served, isStop_iff.mpr stopped]
    have atMost := guarded.atMost
    have atLeast := guarded.atLeast kept
    omega
  · intro i result lead phase later s' further
    exact returned_kills sound lead phase further
  · intro before d after split stops first e member
    have idle := (course_still course (stop_first course split stops first)).idle e member
    exact ⟨idle.launches, idle.spawns⟩

theorem stop_while_spawning_kept : ∃ ds s, Course none {} ds s ∧
    (s.calls 0).phase = .returned (.ok .stopped) ∧ kills ds = 1 ∧ StopsKept none ds s := by
  have accepted : Course none {} _ _ := Course.nil.snoc (.proceed 0 0 _ rfl)
  have announced := accepted.snoc (.proceed 0 0 _ rfl)
  have launched := announced.snoc (.proceed 0 0 _ rfl)
  have stopped := launched.snoc (.control .stop fun _ => none)
  have answered := stopped.snoc (.answer 0 rfl (.ok ()))
  have killed := answered.snoc (.proceed 0 0 _ rfl)
  have silent := killed.snoc (.hear 0 rfl none)
  have finished := silent.snoc (.proceed 0 0 _ rfl)
  have returned := finished.snoc (.proceed 0 0 _ rfl)
  exact ⟨_, _, returned, rfl, rfl, stop_never_lost returned⟩

end

end StepFlow.Run
