import Mathlib.Data.List.Basic
import StepFlow.Proofs.Text.Pieces
import StepFlow.Workspace.Path

/-!
Components of paths. A path begins at the root, or at a single dot that stands first, or with a
name; empty segments and single dots after that are no components. A name that is one normal
component is the name of something in a directory, whatever slashes and dots follow it, and joining
such a name to a path adds that component.
-/
namespace StepFlow.Workspace
open Text

inductive Component where
  | root
  | current
  | parent
  | normal (name : String)
  deriving DecidableEq, Repr

def Component.ofSegment (segment : String) : Component :=
  if segment = ".." then .parent else .normal segment

def anchor (path : String) : List Component :=
  if isAbsolute path then [.root]
  else if (pieces '/' path.toList).head? = some ['.'] then [.current]
  else []

def components (path : String) : List Component :=
  anchor path ++ (segments path).map Component.ofSegment

section
variable {base name path segment : String}

theorem segment_apart (member : segment ∈ segments path) :
    segment ≠ "" ∧ segment ≠ "." ∧ '/' ∉ segment.toList := by
  obtain ⟨piece, kept, rfl⟩ := List.mem_map.mp member
  obtain ⟨inside, leads⟩ := List.mem_filter.mp kept
  have apart := pieces_apart inside
  simp only [Workspace.leads, Bool.and_eq_true, bne_iff_ne, ne_eq] at leads
  refine ⟨?_, ?_, by rwa [String.toList_ofList]⟩
  · simpa [← String.toList_inj] using leads.1
  · simpa [← String.toList_inj] using leads.2

/-- What a joined path is made of: the pieces of the base, but for an empty one that its last slash
leaves, and then those of the path. -/
theorem pieces_joinPath (base : String) (relative : isAbsolute path = false) : ∃ front,
    pieces '/' (joinPath base path).toList = front ++ pieces '/' path.toList ∧
      front.filter leads = (pieces '/' base.toList).filter leads ∧
      (base ≠ "" → front ≠ [] ∧ front.head? = (pieces '/' base.toList).head?) := by
  rw [joinPath, if_neg (by simp [relative])]
  cases last : base.toList.getLast? with
  | none =>
    have empty : base.toList = [] := List.getLast?_eq_none_iff.mp last
    refine ⟨[], rfl, by simp [empty, pieces, leads], fun some => absurd ?_ some⟩
    exact String.toList_inj.mp (by simpa using empty)
  | some c =>
    obtain ⟨front, split⟩ := List.getLast?_eq_some_iff.mp last
    by_cases slash : c = '/'
    · subst slash
      refine ⟨pieces '/' front, ?_, ?_, fun _ => ⟨pieces_ne_nil front, ?_⟩⟩
      · simp [String.toList_append, split, pieces_append]
      · simp [split, pieces_last, leads]
      · rw [split, pieces_last]
        exact (List.head?_append_of_ne_nil _ (pieces_ne_nil front)).symm
    · refine ⟨pieces '/' base.toList, ?_, rfl, fun _ => ⟨pieces_ne_nil _, rfl⟩⟩
      have slashed : "/".toList = ['/'] := rfl
      simp only [slash, if_false, String.toList_append, slashed, List.append_assoc,
        List.singleton_append]
      exact pieces_append base.toList path.toList

theorem segments_joinPath (relative : isAbsolute path = false) :
    segments (joinPath base path) = segments base ++ segments path := by
  obtain ⟨front, split, kept, _⟩ := pieces_joinPath base relative
  rw [segments, split, List.filter_append, kept, List.map_append]
  rfl

theorem joinPath_absolute (relative : isAbsolute path = false) :
    isAbsolute (joinPath base path) = isAbsolute base := by
  rw [joinPath, if_neg (by simp [relative])]
  cases last : base.toList.getLast? with
  | none =>
    have empty : base.toList = [] := List.getLast?_eq_none_iff.mp last
    simpa [isAbsolute, empty] using relative
  | some c =>
    have some : base.toList ≠ [] := fun none => by simp [none] at last
    have first : ∀ s : List Char, (base.toList ++ s).head? = base.toList.head? :=
      fun s => List.head?_append_of_ne_nil _ some
    dsimp only
    split <;> simp only [isAbsolute, String.toList_append, List.append_assoc, first]

theorem anchor_eq_nil_iff : anchor path = [] ↔
    isAbsolute path = false ∧ (pieces '/' path.toList).head? ≠ some ['.'] := by
  unfold anchor
  split
  · simp [*]
  · split <;> simp [*]

theorem anchor_joinPath (unanchored : anchor path = []) :
    anchor (joinPath base path) = anchor base := by
  obtain ⟨relative, first⟩ := anchor_eq_nil_iff.mp unanchored
  obtain ⟨front, split, _, same⟩ := pieces_joinPath base relative
  by_cases empty : base = ""
  · subst empty
    have unchanged : joinPath "" path = path := by simp [joinPath, relative]
    rw [unchanged, unanchored]
    rfl
  · obtain ⟨some, same⟩ := same empty
    rw [anchor, anchor, joinPath_absolute relative, split, List.head?_append_of_ne_nil _ some, same]

theorem components_joinPath (unanchored : anchor path = []) :
    components (joinPath base path) = components base ++ components path := by
  have relative := (anchor_eq_nil_iff.mp unanchored).1
  rw [components, anchor_joinPath unanchored, segments_joinPath relative, List.map_append,
    components, components, unanchored]
  simp

theorem ofSegment_normal {s : String} :
    Component.ofSegment segment = .normal s ↔ segment = s ∧ s ≠ ".." := by
  unfold Component.ofSegment
  split
  · simp_all
  · rename_i other
    simp only [Component.normal.injEq]
    constructor
    · rintro rfl
      exact ⟨rfl, other⟩
    · exact And.left

theorem components_normal {s : String} : components name = [.normal s] ↔
    anchor name = [] ∧ segments name = [s] ∧ s ≠ ".." := by
  constructor
  · intro single
    have unanchored : anchor name = [] := by
      unfold components anchor at single
      unfold anchor
      split at single
      · cases single
      · split at single
        · cases single
        · simp [*]
    rw [components, unanchored, List.nil_append, List.map_eq_singleton_iff] at single
    obtain ⟨segment, only, named⟩ := single
    obtain ⟨rfl, other⟩ := ofSegment_normal.mp named
    exact ⟨unanchored, only, other⟩
  · rintro ⟨unanchored, only, other⟩
    rw [components, unanchored, only]
    simp [Component.ofSegment, other]

theorem normal_relative {s : String} (one : components name = [.normal s]) :
    isAbsolute name = false := (anchor_eq_nil_iff.mp (components_normal.mp one).1).1

theorem segment_first (one : segments name = [segment]) :
    (pieces '/' name.toList).head?.any leads = true ↔ anchor name = [] := by
  rw [anchor_eq_nil_iff, isAbsolute, ← Bool.not_eq_true, beq_iff_eq]
  cases first : (pieces '/' name.toList).head? with
  | none => exact absurd (List.head?_eq_none_iff.mp first) (pieces_ne_nil _)
  | some piece =>
    cases piece with
    | nil =>
      have slash : name.toList.head? = some '/' := by
        rcases pieces_head_nil.mp first with empty | slash
        · simp [segments, empty, pieces, leads] at one
        · exact slash
      simp [slash, leads]
    | cons c piece =>
      have relative : name.toList.head? ≠ some '/' := by
        intro slash
        simp [pieces_head_nil.mpr (Or.inr slash)] at first
      simp [relative, leads]

theorem isSegment_iff : isSegment name = true ↔ ∃ s, components name = [.normal s] := by
  simp only [components_normal]
  constructor
  · intro valid
    unfold isSegment at valid
    split at valid
    · rename_i s one
      obtain ⟨other, first⟩ := Bool.and_eq_true_iff.mp valid
      exact ⟨s, (segment_first one).mp first, one, by simpa using other⟩
    · cases valid
  · rintro ⟨s, unanchored, one, other⟩
    rw [isSegment, one]
    simp [other, (segment_first one).mpr unanchored]

end

end StepFlow.Workspace
