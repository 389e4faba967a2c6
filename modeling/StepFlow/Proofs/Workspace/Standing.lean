import StepFlow.Proofs.Workspace.Placed

/-!
Work that is done again. A task that has been done stands from then on, whatever grows around it: a
standing task is done at once and makes nothing, and a file that stands is rewritten where it is. So
standing tasks leave a tree as it was, entry for entry, when they leave its files as they were.
-/
namespace StepFlow.Workspace
open FileTree

/-- Entries that differ at most in what is found at some places. Only the first entry of a place is
found, and what stands behind it, or at a hidden place, is the same. -/
inductive Revised : List Place → List (Place × Entry) → List (Place × Entry) → Prop where
  | nil (hidden : List Place) : Revised hidden [] []
  | cons {hidden : List Place} {p : Place} {old new : Entry} {l l' : List (Place × Entry)}
      (same : p ∈ hidden → new = old) (others : Revised (p :: hidden) l l') :
      Revised hidden ((p, old) :: l) ((p, new) :: l')

namespace Revised
variable {hidden : List Place} {l l' l'' : List (Place × Entry)} {p : Place} {old new : Entry}

theorem refl (hidden : List Place) (l : List (Place × Entry)) : Revised hidden l l := by
  induction l generalizing hidden with
  | nil => exact .nil hidden
  | cons entry l ih => exact .cons (fun _ => rfl) (ih _)

theorem trans (first : Revised hidden l l') (second : Revised hidden l' l'') :
    Revised hidden l l'' := by
  induction first generalizing l'' with
  | nil => exact second
  | cons same _ ih =>
    cases second with
    | cons same' others => exact .cons (fun inside => (same' inside).trans (same inside)) (ih others)

theorem putEntry (shown : p ∉ hidden) (lies : l.lookup p = some old) (new : Entry) :
    Revised hidden l (FileTree.putEntry p new l) := by
  induction l generalizing hidden with
  | nil => cases lies
  | cons first l ih =>
    obtain ⟨q, entry⟩ := first
    rw [FileTree.putEntry]
    split
    · rename_i same
      exact .cons (fun inside => absurd (same ▸ inside) shown) (refl _ l)
    · rename_i other
      rw [List.lookup_cons, beq_eq_false_iff_ne.mpr (Ne.symm other)] at lies
      exact .cons (fun _ => rfl) (ih (by simp [shown, Ne.symm other]) lies)

theorem lookup_isSome (revised : Revised hidden l l') (p : Place) :
    (l'.lookup p).isSome = (l.lookup p).isSome := by
  induction revised with
  | nil => rfl
  | @cons _ q _ _ _ _ _ _ ih =>
    rw [List.lookup_cons, List.lookup_cons]
    cases p == q with
    | true => rfl
    | false => exact ih

theorem eq_of_lookup (revised : Revised hidden l l')
    (found : ∀ p, p ∉ hidden → l'.lookup p = l.lookup p) : l' = l := by
  induction revised with
  | nil => rfl
  | @cons hidden q old new l l' same _ ih =>
    have first : new = old := by
      by_cases inside : q ∈ hidden
      · exact same inside
      · simpa using found q inside
    have others : l' = l := ih fun p shown => by
      obtain ⟨other, shown⟩ := not_or.mp (List.mem_cons.not.mp shown)
      simpa [List.lookup_cons, beq_eq_false_iff_ne.mpr other] using found p shown
    rw [first, others]

end Revised

/-- One tree comes from another by exchanging what is found at places below the root. -/
structure Rewrites (t u : FileTree) : Prop where
  here : u.here = t.here
  entries : Revised [[]] t.entries u.entries

namespace Rewrites
variable {t u v : FileTree} {p : Place} {old new : Entry}

theorem refl (t : FileTree) : Rewrites t t := ⟨rfl, .refl _ _⟩

theorem trans (first : Rewrites t u) (second : Rewrites u v) : Rewrites t v :=
  ⟨second.here.trans first.here, first.entries.trans second.entries⟩

theorem put (below : p ≠ []) (lies : t.get? p = some old) (new : Entry) :
    Rewrites t (t.put p new) := by
  obtain ⟨name, rest, rfl⟩ := List.exists_cons_of_ne_nil below
  exact ⟨rfl, .putEntry (by simp) lies new⟩

theorem get?_isSome (rewrites : Rewrites t u) (p : Place) :
    (u.get? p).isSome = (t.get? p).isSome := by
  cases p with
  | nil => rfl
  | cons name rest => exact rewrites.entries.lookup_isSome (name :: rest)

theorem eq (rewrites : Rewrites t u) (found : ∀ p, u.get? p = t.get? p) : u = t := by
  have entries : u.entries = t.entries := by
    refine rewrites.entries.eq_of_lookup fun p shown => ?_
    obtain ⟨name, rest, rfl⟩ := List.exists_cons_of_ne_nil (by simpa using shown : p ≠ [])
    exact found (name :: rest)
  have here := rewrites.here
  cases t
  cases u
  cases entries
  cases here
  rfl

end Rewrites

def HasDirectory (t : FileTree) (path : String) : Prop :=
  path = "" ∨ unfit? path = none ∧ (segments path = [] ∨
    ∃ p, t.follow (t.start path) (segments path) = .ok p ∧ t.get? p = some .directory)

section
variable {t u : FileTree} {start p : Place} {path : String} {may : Change → Place → Prop}

theorem ensureDirectory_leads {names : List String}
    (made : t.ensureDirectory start names = (u, none)) :
    ∃ p, u.follow start names = .ok p ∧ u.get? p = some .directory := by
  rw [ensureDirectory] at made
  split at made
  · rename_i new here
    cases made
    rw [makeDirectory] at here
    split at here
    · cases here
    · rename_i place leads
      split at here
      · cases here
      · rename_i free
        cases here
        have turns : Change.made.Turns (t.get? place) (some .directory) := free ▸ .made
        have touches : Touches t (t.put place .directory) fun _ _ => True := .put trivial turns
        refine ⟨place, touches.follow leads, ?_⟩
        rw [get?_put (below_root turns), if_pos rfl]
  · rw [Prod.mk.injEq] at made
    obtain ⟨rfl, there⟩ := made
    rw [leadsToDirectory] at there
    cases leads : t.follow start names with
    | error _ => simp [leads] at there
    | ok place =>
      rcases lies : t.get? place with _ | ⟨_ | _⟩
      · simp [leads, lies] at there
      · exact ⟨place, rfl, lies⟩
      · simp [leads, lies, Entry.isDirectory] at there

theorem makeAll_leads {s : String} {above : List String}
    (made : t.makeAll start (s :: above) = (u, none)) :
    ∃ p, u.follow start (s :: above).reverse = .ok p ∧ u.get? p = some .directory := by
  rw [makeAll] at made
  split at made
  · split at made
    · cases made
    · exact ensureDirectory_leads made
  · exact ensureDirectory_leads made

theorem makeDirectories_has (made : t.makeDirectories path = (u, none)) : HasDirectory u path := by
  rw [makeDirectories] at made
  split at made
  · exact .inl ‹_›
  · split at made
    · cases made
    · rename_i fit
      refine .inr ⟨fit, ?_⟩
      have touches : Touches t u fun _ _ => True := by
        have grown := makeAll_touches t (t.start path) (segments path).reverse
        rw [made] at grown
        exact grown.mono fun _ _ _ => trivial
      rw [touches.start]
      cases names : (segments path).reverse with
      | nil => exact .inl (List.reverse_eq_nil_iff.mp names)
      | cons s above =>
        rw [names] at made
        have leads := makeAll_leads made
        rw [← names, List.reverse_reverse] at leads
        exact .inr leads

theorem HasDirectory.later (touches : Touches t u may) (has : HasDirectory t path) :
    HasDirectory u path := by
  refine has.imp_right fun ⟨fit, there⟩ => ⟨fit, there.imp_right ?_⟩
  rintro ⟨p, leads, lies⟩
  rw [touches.start]
  exact ⟨p, touches.follow leads, touches.directory lies⟩

theorem HasDirectory.makes (has : HasDirectory t path) : t.makeDirectories path = (t, none) := by
  rw [makeDirectories]
  rcases has with rfl | ⟨fit, there⟩
  · rw [if_pos rfl]
  · split
    · rfl
    · rw [fit]
      rcases there with none | ⟨p, leads, lies⟩
      · rw [none, List.reverse_nil, makeAll]
      · cases names : (segments path).reverse with
        | nil => rw [makeAll]
        | cons s above =>
          have whole : (s :: above).reverse = segments path := by
            rw [← names, List.reverse_reverse]
          have stays : t.ensureDirectory (t.start path) (segments path) = (t, none) := by
            simp [ensureDirectory, makeDirectory, leadsToDirectory, leads, lies,
              Entry.isDirectory]
          rw [makeAll]
          dsimp only
          rw [whole, stays]

theorem unfit?_eq_none : unfit? path = none ↔
    '\x00' ∉ path.toList ∧ path ≠ "" ∧ path.utf8ByteSize ≤ pathLimit := by
  unfold unfit?
  split
  · simp_all
  · split
    · simp_all
    · split <;> simp_all

theorem joinPath_longer (base : String) (relative : isAbsolute path = false) :
    ∃ more, joinPath base path = base ++ more := by
  rw [joinPath, if_neg (by simp [relative])]
  cases last : base.toList.getLast? with
  | none =>
    have empty : base = "" := String.toList_inj.mp (List.getLast?_eq_none_iff.mp last)
    exact ⟨path, by rw [empty, String.empty_append]⟩
  | some c =>
    dsimp only
    split
    · exact ⟨path, rfl⟩
    · exact ⟨"/" ++ path, String.append_assoc ..⟩

theorem hasDirectory_of_read {dir name s contents : String} (one : components name = [.normal s])
    (reads : t.read (joinPath dir name) = .ok contents) : HasDirectory t dir := by
  obtain ⟨_, segment, _⟩ := components_normal.mp one
  have relative := normal_relative one
  by_cases empty : dir = ""
  · exact .inl empty
  · obtain ⟨p, _, leads, _, _⟩ := read_iff.mp reads
    have fit : unfit? (joinPath dir name) = none := by
      rw [locate] at leads
      split at leads
      · cases leads
      · assumption
    obtain ⟨more, longer⟩ := joinPath_longer dir relative
    obtain ⟨clean, _, short⟩ := unfit?_eq_none.mp fit
    rw [longer, String.toList_append] at clean
    rw [longer, String.utf8ByteSize_append] at short
    have fit : unfit? dir = none :=
      unfit?_eq_none.mpr ⟨fun inside => clean (List.mem_append_left _ inside), empty, by omega⟩
    have leads := locate_follow leads
    have start : t.start (joinPath dir name) = t.start dir := by
      rw [FileTree.start, FileTree.start, joinPath_absolute relative]
    rw [start, segments_joinPath relative, segment] at leads
    obtain ⟨mid, toDir, down⟩ := follow_append.mp leads
    refine .inr ⟨fit, .inr ⟨mid, toDir, ?_⟩⟩
    rw [follow] at down
    split at down
    · cases down
    · cases down
    · assumption

theorem contains_iff : t.contains path = true ↔ ∃ p, t.locate path = .ok p ∧
    (t.get? p = some .directory ∨ meansDirectory path = false ∧
      ∃ contents executable, t.get? p = some (.file contents executable)) := by
  rw [contains, find]
  cases t.locate path with
  | error e => simp
  | ok place =>
    rcases there : t.get? place with _ | ⟨_ | ⟨_, _⟩⟩ <;> cases meansDirectory path <;>
      simp [there, -Bool.exists_bool]

theorem file_later {contents : String} {executable : Bool} (touches : Touches t u may)
    (lies : t.get? p = some (.file contents executable)) :
    ∃ contents, u.get? p = some (.file contents executable) := by
  rcases touches.places p with same | ⟨change, _, turns⟩
  · exact ⟨contents, same.trans lies⟩
  · rw [lies] at turns
    generalize u.get? p = new at turns
    cases turns with
    | rewritten old new => exact ⟨new, rfl⟩

theorem read_later (touches : Touches t u may) (reads : ∃ contents, t.read path = .ok contents) :
    ∃ contents, u.read path = .ok contents := by
  obtain ⟨_, reads⟩ := reads
  obtain ⟨p, executable, leads, plain, lies⟩ := read_iff.mp reads
  obtain ⟨contents, lies⟩ := file_later touches lies
  exact ⟨contents, read_iff.mpr ⟨p, executable, touches.locate leads, plain, lies⟩⟩

theorem contains_later (touches : Touches t u may) (found : t.contains path = true) :
    u.contains path = true := by
  rw [contains_iff] at found ⊢
  obtain ⟨p, leads, lies⟩ := found
  refine ⟨p, touches.locate leads, ?_⟩
  rcases lies with lies | ⟨plain, contents, executable, lies⟩
  · exact .inl (touches.directory lies)
  · obtain ⟨contents, lies⟩ := file_later touches lies
    exact .inr ⟨plain, contents, executable, lies⟩

end

namespace Task
variable {t u : FileTree} {task : Task} {tasks : List Task} {may : Change → Place → Prop}

/-- What a task leaves behind when it is done. -/
def Standing (t : FileTree) : Task → Prop
  | checkName name => isSegment name = true
  | checkGroup group => t.contains group.path = true
  | directory path => HasDirectory t path
  | file path _ => ∃ contents, t.read path = .ok contents
  | freshFile path _ => t.contains path = true

theorem Standing.later (touches : Touches t u may) (stands : task.Standing t) :
    task.Standing u := by
  cases task with
  | checkName name => exact stands
  | checkGroup group => exact contains_later touches stands
  | directory path => exact HasDirectory.later touches stands
  | file path contents => exact read_later touches stands
  | freshFile path contents => exact contains_later touches stands

/-- A task that is done leaves behind what it stands for. -/
theorem run_standing (done : task.run t = (u, none)) : task.Standing u := by
  cases task with
  | checkName name => exact run_checked done
  | checkGroup group =>
    rw [run] at done
    split at done
    · rename_i found
      cases done
      exact found
    · cases done
  | directory path =>
    simp only [run, Prod.mk.injEq, Option.map_eq_none_iff] at done
    exact makeDirectories_has (Prod.ext done.1 done.2)
  | file path contents => exact ⟨contents, write_read (writing_ok done)⟩
  | freshFile path contents => exact freshFile_found done

theorem runAll_standing (done : runAll t tasks = (u, none)) : ∀ task ∈ tasks, task.Standing u := by
  intro task member
  obtain ⟨before, after, rfl⟩ := List.append_of_mem member
  obtain ⟨old, new, passed, rest⟩ := runAll_at done
  exact (run_standing passed).later (runAll_touches rest)

theorem Standing.run (stands : task.Standing t) : ∃ u, task.run t = (u, none) ∧ Rewrites t u := by
  cases task with
  | checkName name => exact ⟨t, if_pos stands, .refl t⟩
  | checkGroup group => exact ⟨t, if_pos stands, .refl t⟩
  | directory path =>
    have makes := HasDirectory.makes stands
    exact ⟨t, by simp [Task.run, makes], .refl t⟩
  | file path contents =>
    obtain ⟨old, reads⟩ := stands
    obtain ⟨p, executable, leads, plain, lies⟩ := read_iff.mp reads
    refine ⟨t.put p (.file contents executable), ?_, .put ?_ lies _⟩
    · simp [Task.run, writing, FileTree.write, leads, plain, lies]
    · rintro rfl
      cases lies
  | freshFile path contents => exact ⟨t, if_pos stands, .refl t⟩

theorem standing_runAll (stand : ∀ task ∈ tasks, task.Standing t) :
    ∃ u, runAll t tasks = (u, none) ∧ Rewrites t u := by
  induction tasks generalizing t with
  | nil => exact ⟨t, rfl, .refl t⟩
  | cons task tasks ih =>
    obtain ⟨first, others⟩ := List.forall_mem_cons.mp stand
    obtain ⟨mid, done, rewrites⟩ := first.run
    have touches : Touches t mid (task.MayChange mid) := run_touches (by rw [done])
    obtain ⟨u, done', rewrites'⟩ := ih fun task member => (others task member).later touches
    exact ⟨u, by rw [runAll, done]; exact done', rewrites.trans rewrites'⟩

theorem unchanged_of_reads (stand : ∀ task ∈ tasks, task.Standing t)
    (done : runAll t tasks = (u, none))
    (same : ∀ path contents, file path contents ∈ tasks → u.read path = t.read path) : u = t := by
  obtain ⟨v, again, rewrites⟩ := standing_runAll stand
  obtain rfl : v = u := (Prod.mk.inj (again.symm.trans done)).1
  refine rewrites.eq fun p => ?_
  rcases (runAll_touches done).places p with kept | ⟨change, changes, turns⟩
  · exact kept
  · have present := rewrites.get?_isSome p
    obtain ⟨task, member, changes⟩ := anyMayChange_mem changes
    generalize before : t.get? p = old at turns present
    generalize after : v.get? p = new at turns present
    cases turns with
    | created => cases present
    | made => cases present
    | rewritten old new executable =>
      cases task with
      | file path contents =>
        obtain ⟨_, reads⟩ : ∃ contents, t.read path = .ok contents := stand _ member
        obtain ⟨q, _, leads, plain, lies⟩ := read_iff.mp reads
        have leads' := (runAll_touches done).locate leads
        obtain rfl : q = p := Except.ok.inj (leads'.symm.trans changes.2)
        have first : t.read path = .ok old := read_iff.mpr ⟨q, _, leads, plain, before⟩
        have second : v.read path = .ok new := read_iff.mpr ⟨q, _, leads', plain, after⟩
        rw [same path contents member, first] at second
        rw [Except.ok.inj second]
      | directory path => cases changes.1
      | freshFile path contents => cases changes.1
      | checkName name => exact changes.elim
      | checkGroup group => exact changes.elim

end Task

end StepFlow.Workspace
