import StepFlow.Text.Basic

/-!
Paths as texts. Joining to a path that ends in a slash, or to the empty path, adds no slash; an
absolute path replaces what it is joined to. Empty segments and single dots lead nowhere.
-/
namespace StepFlow.Workspace
open Text

def isAbsolute (path : String) : Bool := path.toList.head? == some '/'

def joinPath (base path : String) : String :=
  if isAbsolute path then path
  else match base.toList.getLast? with
    | none => path
    | some c => if c = '/' then base ++ path else base ++ "/" ++ path

def leads (segment : List Char) : Bool := segment != [] && segment != ['.']

def segments (path : String) : List String :=
  ((pieces '/' path.toList).filter leads).map String.ofList

/-- Whether a path can only mean a directory, as it ends in a slash or a single dot. -/
def meansDirectory (path : String) : Bool :=
  path != "" && !((pieces '/' path.toList).getLast?.any leads)

/-- Whether a name is one segment, whatever slashes and single dots follow it, so that it names
something inside a directory. A single dot at the start counts as a segment. -/
def isSegment (name : String) : Bool :=
  match segments name with
  | [s] => s != ".." && (pieces '/' name.toList).head?.any leads
  | _ => false

end StepFlow.Workspace
