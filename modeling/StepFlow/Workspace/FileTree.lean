import StepFlow.Workspace.Path

/-!
A tree of directories and files, without links. A path is followed segment by segment: each
segment needs a directory to start from, and two dots lead to the directory above. Refusals are
those of the system calls.
-/
namespace StepFlow.Workspace

inductive FileError where
  | permission
  | notFound
  | taken
  | notDirectory
  | isDirectory
  | nameTooLong
  | nulByte
  | notExecutable
  deriving DecidableEq, Repr

def FileError.message : FileError → String
  | permission => "Permission denied (os error 13)"
  | notFound => "No such file or directory (os error 2)"
  | taken => "File exists (os error 17)"
  | notDirectory => "Not a directory (os error 20)"
  | isDirectory => "Is a directory (os error 21)"
  | nameTooLong => "File name too long (os error 36)"
  | nulByte => "file name contained an unexpected NUL byte"
  | notExecutable => "Exec format error (os error 8)"

inductive Entry where
  | directory
  | file (contents : String) (executable : Bool)
  deriving DecidableEq, Repr, Inhabited

def Entry.isDirectory : Entry → Bool
  | directory => true
  | file .. => false

/-- A place in the tree: the segments that lead to it from the root. -/
abbrev Place := List String

/-- The entries below the root, and the directory that relative paths start from. -/
structure FileTree where
  entries : List (Place × Entry) := []
  here : Place := []
  deriving Repr, Inhabited

/-- The longest name of a directory or file, in bytes. -/
def nameLimit : Nat := 255

/-- The longest path that can be followed, in bytes. -/
def pathLimit : Nat := 4095

namespace FileTree

def get? (t : FileTree) : Place → Option Entry
  | [] => some .directory
  | place => t.entries.lookup place

def putEntry (place : Place) (entry : Entry) : List (Place × Entry) → List (Place × Entry)
  | [] => [(place, entry)]
  | (p, e) :: rest => if p = place then (p, entry) :: rest else (p, e) :: putEntry place entry rest

def put (t : FileTree) (place : Place) (entry : Entry) : FileTree :=
  { t with entries := putEntry place entry t.entries }

def erase (t : FileTree) (place : Place) : FileTree :=
  { t with entries := t.entries.filter fun (p, _) => p.take place.length != place }

/-- The place that segments lead to from a place; it may be free, but what leads there is a
directory. -/
def follow (t : FileTree) (place : Place) : List String → Except FileError Place
  | [] => .ok place
  | s :: rest =>
    match t.get? place with
    | none => .error .notFound
    | some (.file ..) => .error .notDirectory
    | some .directory =>
      if s = ".." then t.follow place.dropLast rest
      else if s.utf8ByteSize > nameLimit then .error .nameTooLong
      else t.follow (place ++ [s]) rest

def start (t : FileTree) (path : String) : Place := if isAbsolute path then [] else t.here

def unfit? (path : String) : Option FileError :=
  if path.toList.contains '\x00' then some .nulByte
  else if path = "" then some .notFound
  else if path.utf8ByteSize > pathLimit then some .nameTooLong
  else none

def locate (t : FileTree) (path : String) : Except FileError Place :=
  match unfit? path with
  | some e => .error e
  | none => t.follow (t.start path) (segments path)

def find (t : FileTree) (path : String) : Except FileError (Place × Entry) :=
  match t.locate path with
  | .error e => .error e
  | .ok place =>
    match t.get? place with
    | none => .error .notFound
    | some .directory => .ok (place, .directory)
    | some (.file contents executable) =>
      if meansDirectory path then .error .notDirectory
      else .ok (place, .file contents executable)

def contains (t : FileTree) (path : String) : Bool :=
  match t.find path with
  | .ok _ => true
  | .error _ => false

def read (t : FileTree) (path : String) : Except FileError String :=
  match t.find path with
  | .error e => .error e
  | .ok (_, .directory) => .error .isDirectory
  | .ok (_, .file contents _) => .ok contents

/-- Writes a file, which is made if it is missing; one that is there stays executable. -/
def write (t : FileTree) (path contents : String) : Except FileError FileTree :=
  match t.locate path with
  | .error e => .error e
  | .ok place =>
    if meansDirectory path then .error .isDirectory
    else match t.get? place with
      | none => .ok (t.put place (.file contents false))
      | some .directory => .error .isDirectory
      | some (.file _ executable) => .ok (t.put place (.file contents executable))

def makeDirectory (t : FileTree) (start : Place) (path : List String) :
    Except FileError FileTree :=
  match t.follow start path with
  | .error e => .error e
  | .ok place =>
    match t.get? place with
    | some _ => .error .taken
    | none => .ok (t.put place .directory)

def leadsToDirectory (t : FileTree) (start : Place) (path : List String) : Bool :=
  match t.follow start path with
  | .error _ => false
  | .ok place => (t.get? place).any Entry.isDirectory

def ensureDirectory (t : FileTree) (start : Place) (path : List String) :
    FileTree × Option FileError :=
  match t.makeDirectory start path with
  | .ok t => (t, none)
  | .error e => (t, if t.leadsToDirectory start path then none else some e)

/-- Makes directories until the segments lead to one; the segments come last first. One directory
is tried at first, and those above it if they are missing; they stay if the last one fails. -/
def makeAll (t : FileTree) (start : Place) : List String → FileTree × Option FileError
  | [] => (t, none)
  | s :: above =>
    let path := (s :: above).reverse
    match t.ensureDirectory start path with
    | (_, some .notFound) =>
      match t.makeAll start above with
      | (t, some e) => (t, some e)
      | (t, none) => t.ensureDirectory start path
    | done => done

def makeDirectories (t : FileTree) (path : String) : FileTree × Option FileError :=
  if path = "" then (t, none)
  else match unfit? path with
    | some e => (t, some e)
    | none => t.makeAll (t.start path) (segments path).reverse

def names (t : FileTree) (place : Place) : List String :=
  (t.entries.filterMap fun (p, _) =>
    if p.dropLast = place then p.getLast? else none).mergeSort fun a b => decide (a ≤ b)

def relative (above place : Place) : String := "/".intercalate (place.drop above.length)

def isBare (t : FileTree) (place : Place) : Bool := t.entries.all fun (p, _) => p.dropLast != place

/-- What lies at a place and below it, seen from a place above: files with their contents, and
directories in which nothing lies. -/
def listing (t : FileTree) (above place : Place) : List (String × Option String) :=
  t.entries.filterMap fun (p, e) =>
    if p.take place.length = place then
      match e with
      | .file contents _ => some (relative above p, some contents)
      | .directory => if t.isBare p then some (relative above p ++ "/", none) else none
    else none

end FileTree

end StepFlow.Workspace
