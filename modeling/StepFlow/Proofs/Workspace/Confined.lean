import Mathlib.Data.List.Basic
import StepFlow.Proofs.Compile.Calls
import StepFlow.Proofs.Workspace.Placed

/-!
Where the modules of a program come from. Paths are compared by their texts alone: two dots take
back the name before them. What a program loads for its code steps and for the registry lies inside
its app; what it loads for groups lies inside the group root when their keys and versions are names
of single directories.
-/
namespace StepFlow.Workspace
open Compile Script Text

def Component.enter (place : List Component) : Component → List Component
  | root => [root]
  | current => place
  | parent =>
    match place.getLast? with
    | some root => place
    | some (normal _) => place.dropLast
    | _ => place ++ [parent]
  | normal name => place ++ [normal name]

/-- The normal form of a path, told by its text alone. -/
def lexical (path : String) : List Component := (components path).foldl Component.enter []

def Inside (outer path : String) : Prop :=
  ∃ names : List String, lexical path = lexical outer ++ names.map .normal

/-- What a program loads by a path from its directory lies there or inside the group root. -/
def Allowed (groupRoot dir path : String) : Prop :=
  Inside dir (joinPath dir path) ∨ Inside groupRoot (joinPath dir path)

def IsName (name : String) : Prop := name ≠ "" ∧ name ≠ "." ∧ name ≠ ".." ∧ '/' ∉ name.toList

section
variable {base path name groupRoot dir : String}

theorem lexical_segments (path : String) :
    lexical path = ((segments path).map Component.ofSegment).foldl Component.enter
      (if isAbsolute path then [.root] else []) := by
  rw [lexical, components, List.foldl_append, anchor]
  split
  · rfl
  · split <;> rfl

theorem lexical_joinPath (relative : isAbsolute path = false) :
    lexical (joinPath base path) =
      ((segments path).map Component.ofSegment).foldl Component.enter (lexical base) := by
  rw [lexical_segments, segments_joinPath relative, joinPath_absolute relative, List.map_append,
    List.foldl_append, ← lexical_segments]

theorem enter_names (place : List Component) (names : List String) :
    (names.map Component.normal).foldl Component.enter place = place ++ names.map .normal := by
  induction names generalizing place with
  | nil => simp
  | cons name names ih => simp [Component.enter, ih]

theorem joinPath_root (absolute : isAbsolute path = true) : joinPath base path = path := by
  simp [joinPath, absolute]

theorem lexical_assoc (dir base : String) (relative : isAbsolute path = false) :
    lexical (joinPath dir (joinPath base path)) = lexical (joinPath (joinPath dir base) path) := by
  rw [lexical_joinPath relative]
  cases absolute : isAbsolute base with
  | true =>
    rw [joinPath_root absolute, joinPath_root ((joinPath_absolute relative).trans absolute),
      lexical_joinPath relative]
  | false =>
    rw [lexical_joinPath absolute, lexical_joinPath ((joinPath_absolute relative).trans absolute),
      segments_joinPath relative, List.map_append, List.foldl_append]

theorem lexical_normal {s : String} (one : components name = [.normal s]) :
    lexical (joinPath base name) = lexical base ++ [.normal s] := by
  obtain ⟨_, segment, other⟩ := components_normal.mp one
  rw [lexical_joinPath (normal_relative one), segment]
  simp [Component.ofSegment, other, Component.enter]

theorem Inside.join {outer s : String} (inside : Inside outer base)
    (one : components name = [.normal s]) : Inside outer (joinPath base name) := by
  obtain ⟨names, form⟩ := inside
  exact ⟨names ++ [s], by rw [lexical_normal one, form]; simp⟩

theorem Allowed.join {s : String} (allowed : Allowed groupRoot dir path)
    (one : components name = [.normal s]) : Allowed groupRoot dir (joinPath path name) := by
  have same := lexical_assoc dir path (normal_relative one)
  refine allowed.imp (fun inside => ?_) fun inside => ?_
  all_goals
    obtain ⟨names, form⟩ := inside.join one
    exact ⟨names, same.trans form⟩

theorem allowed_absolute (absolute : isAbsolute groupRoot = true) :
    Allowed groupRoot dir groupRoot :=
  .inr ⟨[], by simp [joinPath_root absolute]⟩

theorem component_isName (member : .normal name ∈ components path) : IsName name := by
  rcases List.mem_append.mp member with first | inside
  · unfold anchor at first
    split at first
    · simp at first
    · split at first <;> simp at first
  · obtain ⟨segment, listed, form⟩ := List.mem_map.mp inside
    obtain ⟨rfl, other⟩ := ofSegment_normal.mp form
    obtain ⟨some, dot, apart⟩ := segment_apart listed
    exact ⟨some, dot, other, apart⟩

theorem isName_iff : IsName name ↔ components name = [.normal name] := by
  constructor
  · rintro ⟨some, dot, dots, apart⟩
    have whole := pieces_whole apart
    have first : name.toList ≠ [] := fun none => some (String.toList_inj.mp none)
    have single : name.toList ≠ ['.'] := fun same => dot (String.toList_inj.mp same)
    refine components_normal.mpr ⟨anchor_eq_nil_iff.mpr ⟨?_, ?_⟩, ?_, dots⟩
    · rw [isAbsolute, beq_eq_false_iff_ne]
      exact fun slash => apart (List.mem_of_mem_head? slash)
    · rw [whole]
      simpa using single
    · have leading : leads name.toList = true := by simp [leads, first, single]
      simp [segments, whole, leading]
  · intro same
    exact component_isName (same ▸ List.mem_singleton_self _)

end

/-- The path of a dependency is the group root, and below it the key and the version. -/
def Installed (groupRoot : String) (g : GroupDependency) : Prop :=
  components g.path = components groupRoot ++ [.normal g.group, .normal ("v" ++ g.version)]

section
variable {groupRoot dir : String} {m : Manifest}

theorem installed_iff {g : GroupDependency} (own : g = dependency groupRoot (g.group, g.version)) :
    Installed groupRoot g ↔ IsName g.group ∧ IsName ("v" ++ g.version) := by
  have path : g.path = groupPath groupRoot g.group g.version := congrArg GroupDependency.path own
  constructor
  · intro installed
    have part {c : Component} (listed : c ∈ [.normal g.group, .normal ("v" ++ g.version)]) :
        c ∈ components g.path := installed ▸ List.mem_append_right _ listed
    exact ⟨component_isName (part (by simp)), component_isName (part (by simp))⟩
  · rintro ⟨key, version⟩
    have key := isName_iff.mp key
    have version := isName_iff.mp version
    rw [Installed, path, groupPath, components_joinPath (components_normal.mp version).1,
      components_joinPath (components_normal.mp key).1, key, version, List.append_assoc]
    rfl

theorem below_allowed {path : String} (relative : isAbsolute path = false) (names : List String)
    (down : (segments path).map Component.ofSegment = names.map .normal) :
    Allowed groupRoot dir path :=
  .inl ⟨names, by rw [lexical_joinPath relative, down, enter_names]⟩

theorem step_allowed {id s : String} (one : components id = [.normal s]) :
    Allowed groupRoot dir ("./" ++ componentsDir ++ "/" ++ id) := by
  have joined : joinPath ("./" ++ componentsDir) id = "./" ++ componentsDir ++ "/" ++ id := by
    have relative := normal_relative one
    have last : ("./" ++ componentsDir).toList.getLast? = some 's' := by decide +kernel
    rw [joinPath, if_neg (by simp [relative]), last]
    exact if_neg (by decide)
  have above : Allowed groupRoot dir ("./" ++ componentsDir) :=
    below_allowed (by decide +kernel) ["components"] (by decide +kernel)
  exact joined ▸ above.join one

theorem registry_allowed : Allowed groupRoot dir ("./" ++ globalFile) :=
  below_allowed (by decide +kernel) ["global.json"] (by decide +kernel)

theorem required_allowed (own : ∀ g ∈ m.groups, g = dependency groupRoot (g.group, g.version))
    (valid : ∀ step ∈ m.inlineCode, isSegment step.1 = true)
    (rooted : Allowed groupRoot dir groupRoot)
    (named : ∀ g ∈ m.groups, IsName g.group ∧ IsName ("v" ++ g.version)) {path : String}
    (required : path ∈ requiredPaths m) : Allowed groupRoot dir path := by
  rw [requiredPaths, List.mem_append, List.mem_append] at required
  rcases required with (group | code) | registry
  · obtain ⟨g, member, rfl⟩ := List.mem_map.mp group
    obtain ⟨key, version⟩ := named g member
    have path : g.path = groupPath groupRoot g.group g.version :=
      congrArg GroupDependency.path (own g member)
    rw [path]
    exact (rooted.join (isName_iff.mp key)).join (isName_iff.mp version)
  · obtain ⟨step, member, rfl⟩ := List.mem_map.mp code
    obtain ⟨s, one⟩ := isSegment_iff.mp (valid step member)
    exact step_allowed one
  · rw [List.mem_singleton.mp registry]
    exact registry_allowed

end

/-- Where the group root may be loaded from, as every absolute one may, a placed program loads from
its own directory and the group root alone, and its groups are installed below the root, just when
the key and the version of every group are names. -/
theorem loads_confined_iff {groupRoot root app dir : String} {nodes : List Flow.Node}
    {program : Program} {t u : FileTree} (compiled : compile groupRoot nodes = .ok program)
    (placed : materialize t root app program = (u, .ok dir))
    (rooted : Allowed groupRoot dir groupRoot) :
    ∃ body c, compileList groupRoot {} nodes = .ok (body, c) ∧
      program = ⟨printScript (script c.manifest body), c.manifest⟩ ∧
      (((∀ call ∈ bodyCalls (script program.manifest body), call.callee = .ident "require" →
          ∃ path, call.args = [.str path] ∧ Allowed groupRoot dir path) ∧
        ∀ g ∈ program.manifest.groups, Installed groupRoot g) ↔
        ∀ g ∈ program.manifest.groups, IsName g.group ∧ IsName ("v" ++ g.version)) := by
  obtain ⟨body, c, list, rfl⟩ := compile_ok_iff.mp compiled
  have own := collects_paths (compileList_collects list)
  obtain ⟨_, valid⟩ := names_checked (materialize_ok placed).1
  have installed : ∀ g ∈ c.manifest.groups, (Installed groupRoot g ↔ _) :=
    fun g member => installed_iff (own g member)
  refine ⟨body, c, list, rfl, ?_⟩
  constructor
  · rintro ⟨_, below⟩ g member
    exact (installed g member).mp (below g member)
  · intro named
    refine ⟨fun call member callee => ?_, fun g member => (installed g member).mpr (named g member)⟩
    obtain ⟨path, required, rfl⟩ := (required_iff list).mp ⟨member, callee⟩
    exact ⟨path, rfl, required_allowed own valid rooted named required⟩

def groupFlow (key : String) : List Flow.Node :=
  [.component { id := "c", group := key, version := "1", function := "f" },
    .code { id := "a", source := "1" }]

def groupManifest (key : String) : Manifest :=
  ⟨[dependency "/srv/groups" (key, "1")], [("a", ⟨codeAlias "a", "1", ⟨"a", "", .stop, [], none⟩⟩)]⟩

def groupBody (key : String) : List Stmt :=
  [StepCall.statement ⟨"c", "", .stop, [], none⟩ [] (.member (.ident (groupAlias key "1")) "f"),
    StepCall.statement ⟨"a", "", .stop, [], none⟩ [] (.ident (codeAlias "a"))]

def groupProgram (key : String) : Program :=
  ⟨printScript (script (groupManifest key) (groupBody key)), groupManifest key⟩

theorem groupFlow_lists (key : String) (some : key ≠ "") : ∃ c,
    compileList "/srv/groups" {} (groupFlow key) = .ok (groupBody key, c) ∧
      c.manifest = groupManifest key := by
  refine ⟨_, compileList_ok_iff.mpr ⟨_, .component ?first (.code ?second (.nil _ _)), rfl⟩, rfl⟩
  case first =>
    exact ⟨some, (by decide : "1" ≠ ""), (by decide +kernel : isIdentifier "f" = true),
      (fun _ member => by cases member), fun _ given => by cases given⟩
  case second =>
    exact ⟨by decide, (fun _ member => by cases member), fun _ given => by cases given⟩

theorem groupFlow_compiles (key : String) (some : key ≠ "") :
    compile "/srv/groups" (groupFlow key) = .ok (groupProgram key) := by
  obtain ⟨c, list, manifest⟩ := groupFlow_lists key some
  exact compile_ok_iff.mpr ⟨_, c, list, by rw [manifest, groupProgram]⟩

def installedTree : FileTree :=
  { entries := [["srv"], ["srv", "groups"], ["srv", "groups", "math"],
      ["srv", "groups", "math", "v1"], ["srv", "outside"], ["srv", "outside", "v1"]].map
        fun place => (place, .directory) }

theorem groupFlow_placed (key : String) (listed : key ∈ ["math", "../outside"]) :
    ∃ u, materialize installedTree "/srv/apps" "demo" (groupProgram key) =
      (u, .ok "/srv/apps/demo") := by
  have placed : (materialize installedTree "/srv/apps" "demo" (groupProgram key)).2.toOption =
      some "/srv/apps/demo" := by
    revert key
    decide +kernel
  exact ⟨_, placed_of_toOption placed⟩

theorem outside_not_allowed :
    ¬Allowed "/srv/groups" "/srv/apps/demo" "/srv/groups/../outside/v1" := by
  have form : lexical (joinPath "/srv/apps/demo" "/srv/groups/../outside/v1") =
      [.root, .normal "srv", .normal "outside", .normal "v1"] := by decide +kernel
  have app : lexical "/srv/apps/demo" =
      [.root, .normal "srv", .normal "apps", .normal "demo"] := by decide +kernel
  have groups : lexical "/srv/groups" = [.root, .normal "srv", .normal "groups"] := by
    decide +kernel
  rintro (⟨names, inside⟩ | ⟨names, inside⟩)
  · simp [form, app] at inside
  · simp [form, groups] at inside

/-- A key with two dots leads out of the group root. -/
theorem groupFlow_escapes : ∃ program u dir,
    compile "/srv/groups" (groupFlow "../outside") = .ok program ∧
      materialize installedTree "/srv/apps" "demo" program = (u, .ok dir) ∧
      ∃ body c, compileList "/srv/groups" {} (groupFlow "../outside") = .ok (body, c) ∧
        program = ⟨printScript (script c.manifest body), c.manifest⟩ ∧
        ∃ call ∈ bodyCalls (script program.manifest body), call.callee = .ident "require" ∧
          ¬∃ path, call.args = [.str path] ∧ Allowed "/srv/groups" dir path := by
  obtain ⟨u, placed⟩ := groupFlow_placed "../outside" (by decide)
  obtain ⟨c, list, manifest⟩ := groupFlow_lists "../outside" (by decide)
  have required : "/srv/groups/../outside/v1" ∈ requiredPaths c.manifest := by
    rw [manifest]
    decide +kernel
  obtain ⟨called, callee⟩ := (required_iff list).mpr ⟨_, required, rfl⟩
  rw [manifest] at called
  refine ⟨_, u, _, groupFlow_compiles _ (by decide), placed, _, c, list, ?_, _, called, callee, ?_⟩
  · rw [manifest, groupProgram]
  · rintro ⟨path, args, allowed⟩
    cases args
    exact outside_not_allowed allowed

theorem groupFlow_confined : ∃ program u dir,
    compile "/srv/groups" (groupFlow "math") = .ok program ∧
      materialize installedTree "/srv/apps" "demo" program = (u, .ok dir) ∧
      Allowed "/srv/groups" dir "/srv/groups" ∧
      ∃ body c, compileList "/srv/groups" {} (groupFlow "math") = .ok (body, c) ∧
        program = ⟨printScript (script c.manifest body), c.manifest⟩ ∧
        (((∀ call ∈ bodyCalls (script program.manifest body), call.callee = .ident "require" →
            ∃ path, call.args = [.str path] ∧ Allowed "/srv/groups" dir path) ∧
          ∀ g ∈ program.manifest.groups, Installed "/srv/groups" g) ↔
          ∀ g ∈ program.manifest.groups, IsName g.group ∧ IsName ("v" ++ g.version)) := by
  obtain ⟨u, placed⟩ := groupFlow_placed "math" (by decide)
  have compiled := groupFlow_compiles "math" (by decide)
  have rooted : Allowed "/srv/groups" "/srv/apps/demo" "/srv/groups" :=
    allowed_absolute (by decide +kernel)
  exact ⟨_, u, _, compiled, placed, rooted, loads_confined_iff compiled placed rooted⟩

end StepFlow.Workspace
