import Mathlib.Data.List.Basic
import StepFlow.Workspace.FileTree

/-!
Trees that grow. Making directories and writing files removes nothing: a directory stays one, a
file stays one, and what led somewhere before still leads there. What a piece of work may do is told
by the changes it may make and the places it may make them at.
-/
namespace StepFlow.Workspace

inductive Change where
  | rewritten
  | created
  | made
  deriving DecidableEq, Repr

/-- What lies at a place before and after a change: a file that is rewritten stays as executable as
it was, and one that is created is not. -/
inductive Change.Turns : Change → Option Entry → Option Entry → Prop
  | rewritten (old new executable) :
      Turns rewritten (some (.file old executable)) (some (.file new executable))
  | created (contents) : Turns created none (some (.file contents false))
  | made : Turns made none (some .directory)

theorem Change.Turns.trans {first second : Change} {old mid new : Option Entry}
    (one : first.Turns old mid) (two : second.Turns mid new) : first.Turns old new := by
  cases one with
  | rewritten => cases two; exact .rewritten _ _ _
  | created => cases two; exact .created _
  | made => cases two

theorem Change.Turns.rewrites {change : Change} {old : Entry} {new : Option Entry}
    (turns : change.Turns (some old) new) : change = .rewritten ∧ old ≠ .directory := by
  cases turns
  exact ⟨rfl, nofun⟩

theorem Change.Turns.file {change : Change} {old : Option Entry} {contents : String}
    {executable : Bool} (turns : change.Turns old (some (.file contents executable))) :
    change ≠ .made := by
  rintro rfl
  cases turns

namespace FileTree

section
variable {t : FileTree} {p q : Place} {entry : Entry}

theorem lookup_putEntry (entries : List (Place × Entry)) :
    (putEntry p entry entries).lookup q = if q = p then some entry else entries.lookup q := by
  induction entries with
  | nil =>
    by_cases same : q = p <;> simp [putEntry, List.lookup_cons, same, beq_eq_false_iff_ne.mpr]
  | cons first rest ih =>
    obtain ⟨place, old⟩ := first
    rw [putEntry]
    by_cases here : place = p
    · subst here
      by_cases same : q = place <;> simp [List.lookup_cons, same, beq_eq_false_iff_ne.mpr]
    · rw [if_neg here, List.lookup_cons, List.lookup_cons, ih]
      by_cases same : q = place
      · subst same
        simp [here]
      · simp [beq_eq_false_iff_ne.mpr same]

theorem get?_put (below : p ≠ []) :
    (t.put p entry).get? q = if q = p then some entry else t.get? q := by
  cases q with
  | nil => simp [get?, Ne.symm below]
  | cons name rest => exact lookup_putEntry t.entries

theorem below_root {change : Change} {new : Option Entry} (turns : change.Turns (t.get? p) new) :
    p ≠ [] := by
  rintro rfl
  exact turns.rewrites.2 rfl

end

structure Touches (t u : FileTree) (may : Change → Place → Prop) : Prop where
  here : u.here = t.here
  places : ∀ p, u.get? p = t.get? p ∨ ∃ change, may change p ∧ change.Turns (t.get? p) (u.get? p)

namespace Touches
variable {t u v : FileTree} {may might : Change → Place → Prop} {p q : Place}

theorem refl (t : FileTree) (may : Change → Place → Prop) : Touches t t may :=
  ⟨rfl, fun _ => .inl rfl⟩

theorem mono (touches : Touches t u may) (allowed : ∀ change p, may change p → might change p) :
    Touches t u might := by
  refine ⟨touches.here, fun p => (touches.places p).imp_right ?_⟩
  rintro ⟨change, may, turns⟩
  exact ⟨change, allowed change p may, turns⟩

theorem trans (first : Touches t u may) (second : Touches u v may) : Touches t v may := by
  refine ⟨second.here.trans first.here, fun p => ?_⟩
  rcases second.places p with same | ⟨later, allowed, turns⟩
  · rw [same]
    exact first.places p
  · rcases first.places p with same | ⟨change, may, before⟩
    · exact .inr ⟨later, allowed, same ▸ turns⟩
    · exact .inr ⟨change, may, before.trans turns⟩

theorem put {entry : Entry} {change : Change} (allowed : may change p)
    (turns : change.Turns (t.get? p) (some entry)) : Touches t (t.put p entry) may := by
  refine ⟨rfl, fun q => ?_⟩
  rw [get?_put (below_root turns)]
  split
  · rename_i same
    exact .inr ⟨change, same ▸ allowed, same ▸ turns⟩
  · exact .inl rfl

theorem directory (touches : Touches t u may) (is : t.get? p = some .directory) :
    u.get? p = some .directory := by
  rcases touches.places p with same | ⟨change, _, turns⟩
  · rw [same, is]
  · exact absurd rfl (is ▸ turns).rewrites.2

theorem kept {entry : Entry} (touches : Touches t u may) (lies : t.get? p = some entry)
    (apart : ¬may .rewritten p) : u.get? p = some entry := by
  rcases touches.places p with same | ⟨change, allowed, turns⟩
  · rw [same, lies]
  · rw [lies] at turns
    exact absurd (turns.rewrites.1 ▸ allowed) apart

theorem start (touches : Touches t u may) (path : String) : u.start path = t.start path := by
  rw [FileTree.start, FileTree.start, touches.here]

theorem follow (touches : Touches t u may) {path : List String}
    (leads : t.follow p path = .ok q) : u.follow p path = .ok q := by
  induction path generalizing p with
  | nil => exact leads
  | cons s path ih =>
    rw [FileTree.follow] at leads ⊢
    split at leads
    · cases leads
    · cases leads
    · rename_i is
      simp only [touches.directory is]
      split at leads
      · rename_i up
        rw [if_pos up]
        exact ih leads
      · rename_i down
        split at leads
        · cases leads
        · rename_i short
          rw [if_neg down, if_neg short]
          exact ih leads

theorem locate (touches : Touches t u may) {path : String} (leads : t.locate path = .ok p) :
    u.locate path = .ok p := by
  rw [FileTree.locate] at leads ⊢
  split at leads
  · cases leads
  · rw [touches.start]
    exact touches.follow leads

end Touches

section
variable {t u : FileTree} {p q : Place} {path : String}

theorem follow_append {first second : List String} : t.follow p (first ++ second) = .ok q ↔
    ∃ mid, t.follow p first = .ok mid ∧ t.follow mid second = .ok q := by
  induction first generalizing p with
  | nil => simp [follow]
  | cons s first ih =>
    rw [List.cons_append, follow, follow]
    split
    · simp
    · simp
    · split
      · exact ih
      · split
        · simp
        · exact ih

theorem follow_names {names : List String} (down : ".." ∉ names)
    (leads : t.follow p names = .ok q) : q = p ++ names := by
  induction names generalizing p with
  | nil =>
    rw [follow, Except.ok.injEq] at leads
    rw [← leads, List.append_nil]
  | cons s names ih =>
    obtain ⟨name, later⟩ := not_or.mp (List.mem_cons.not.mp down)
    rw [follow] at leads
    split at leads
    · cases leads
    · cases leads
    · rw [if_neg (Ne.symm name)] at leads
      split at leads
      · cases leads
      · rw [ih later leads, List.append_assoc, List.singleton_append]

theorem locate_follow (leads : t.locate path = .ok p) :
    t.follow (t.start path) (segments path) = .ok p := by
  rw [locate] at leads
  split at leads
  · cases leads
  · exact leads

theorem write_cases {contents : String} (written : t.write path contents = .ok u) :
    ∃ p, ∃ change : Change, ∃ executable, t.locate path = .ok p ∧ meansDirectory path = false ∧
      change.Turns (t.get? p) (some (.file contents executable)) ∧
      u = t.put p (.file contents executable) := by
  rw [write] at written
  split at written
  · cases written
  · rename_i place leads
    split at written
    · cases written
    · rename_i file
      have file : meansDirectory path = false := by simpa using file
      split at written
      · rename_i free
        cases written
        exact ⟨place, .created, false, leads, file, free ▸ .created contents, rfl⟩
      · cases written
      · rename_i old executable there
        cases written
        exact ⟨place, .rewritten, executable, leads, file, there ▸ .rewritten old contents _, rfl⟩

theorem read_iff {contents : String} : t.read path = .ok contents ↔
    ∃ p executable, t.locate path = .ok p ∧ meansDirectory path = false ∧
      t.get? p = some (.file contents executable) := by
  rw [read, find]
  cases t.locate path with
  | error e => simp
  | ok place =>
    rcases there : t.get? place with _ | ⟨_ | ⟨_, _⟩⟩ <;> cases meansDirectory path <;>
      simp [there, -Bool.exists_bool]

theorem contains_of_read {contents : String} (reads : t.read path = .ok contents) :
    t.contains path = true := by
  rw [read] at reads
  rw [contains]
  split at reads
  · cases reads
  · cases reads
  · rename_i found
    rw [found]

/-- Writing touches one place, where the path leads. -/
theorem write_touches {contents : String} (written : t.write path contents = .ok u) :
    Touches t u fun change p => change ≠ .made ∧ (t.contains path = false → change = .created) ∧
      u.locate path = .ok p := by
  obtain ⟨p, change, executable, leads, file, turns, rfl⟩ := write_cases written
  have touches : Touches t (t.put p (.file contents executable)) fun _ _ => True :=
    .put trivial turns
  have fresh : t.contains path = false → change = .created := by
    intro nothing
    generalize before : t.get? p = old at turns
    cases turns with
    | created => rfl
    | rewritten old =>
      have reads : t.read path = .ok old := read_iff.mpr ⟨p, executable, leads, file, before⟩
      exact absurd (contains_of_read reads) (by simp [nothing])
  exact .put ⟨turns.file, fresh, touches.locate leads⟩ turns

theorem write_read {contents : String} (written : t.write path contents = .ok u) :
    u.read path = .ok contents := by
  obtain ⟨p, change, executable, leads, file, turns, rfl⟩ := write_cases written
  have touches : Touches t (t.put p (.file contents executable)) fun _ _ => True :=
    .put trivial turns
  refine read_iff.mpr ⟨p, executable, touches.locate leads, file, ?_⟩
  rw [get?_put (below_root turns), if_pos rfl]

theorem Touches.read {may : Change → Place → Prop} {contents : String} (touches : Touches t u may)
    (reads : t.read path = .ok contents)
    (apart : ∀ p, u.locate path = .ok p → ¬may .rewritten p) : u.read path = .ok contents := by
  obtain ⟨p, executable, leads, file, lies⟩ := read_iff.mp reads
  have leads := touches.locate leads
  exact read_iff.mpr ⟨p, executable, leads, file, touches.kept lies (apart p leads)⟩

theorem makeDirectory_touches {start : Place} {segments : List String}
    (made : t.makeDirectory start segments = .ok u) :
    Touches t u fun change p => change = .made ∧ u.follow start segments = .ok p := by
  rw [makeDirectory] at made
  split at made
  · cases made
  · rename_i place leads
    split at made
    · cases made
    · rename_i free
      cases made
      have turns : Change.made.Turns (t.get? place) (some .directory) := free ▸ .made
      have touches : Touches t (t.put place .directory) fun _ _ => True := .put trivial turns
      exact .put ⟨rfl, touches.follow leads⟩ turns

def OnTheWay (u : FileTree) (start : Place) (segments : List String) (p : Place) : Prop :=
  ∃ front, front <+: segments ∧ u.follow start front = .ok p

section
variable {start : Place} {segments : List String}

theorem OnTheWay.later {may : Change → Place → Prop} (touches : Touches t u may)
    (way : OnTheWay t start segments p) : OnTheWay u start segments p :=
  way.imp fun _ leads => ⟨leads.1, touches.follow leads.2⟩

theorem OnTheWay.further (more : List String) (way : OnTheWay t start segments p) :
    OnTheWay t start (segments ++ more) p :=
  way.imp fun _ leads => ⟨leads.1.trans (List.prefix_append segments more), leads.2⟩

end

theorem ensureDirectory_touches (t : FileTree) (start : Place) (segments : List String) :
    Touches t (t.ensureDirectory start segments).1 fun change p =>
      change = .made ∧ OnTheWay (t.ensureDirectory start segments).1 start segments p := by
  rw [ensureDirectory]
  split
  · rename_i made
    refine (makeDirectory_touches made).mono ?_
    rintro change p ⟨made, leads⟩
    exact ⟨made, segments, List.prefix_rfl, leads⟩
  · exact .refl _ _

theorem makeAll_touches (t : FileTree) (start : Place) (above : List String) :
    Touches t (t.makeAll start above).1 fun change p =>
      change = .made ∧ OnTheWay (t.makeAll start above).1 start above.reverse p := by
  induction above with
  | nil => exact .refl _ _
  | cons s above ih =>
    rw [makeAll]
    split
    · rw [List.reverse_cons]
      split
      · rename_i failed
        rw [failed] at ih
        exact ih.mono fun _ _ made => ⟨made.1, made.2.further [s]⟩
      · rename_i mid made
        rw [made] at ih
        have last := ensureDirectory_touches mid start (above.reverse ++ [s])
        refine .trans (ih.mono fun change p made => ?_) last
        exact ⟨made.1, (made.2.further [s]).later last⟩
    · exact ensureDirectory_touches t start (s :: above).reverse

theorem makeDirectories_touches (made : (t.makeDirectories path).1 = u) :
    Touches t u fun change p => change = .made ∧ OnTheWay u (u.start path) (segments path) p := by
  subst made
  rw [makeDirectories]
  split
  · exact .refl _ _
  · split
    · exact .refl _ _
    · have touches := makeAll_touches t (t.start path) (segments path).reverse
      rw [List.reverse_reverse] at touches
      rwa [touches.start]

end

end FileTree

end StepFlow.Workspace
