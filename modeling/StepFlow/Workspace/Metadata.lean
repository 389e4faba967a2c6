import StepFlow.Json.Reader
import StepFlow.Workspace.FileTree

/-!
What is known of an app: from a table, or from the file `meta.json` in its directory. A file that
is missing or is not JSON tells nothing.
-/
namespace StepFlow.Workspace

/-- Later entries for an app replace earlier ones. -/
def tableMetadata? (table : List (String × Json)) (app : String) : Option Json :=
  table.reverse.lookup app

def fileMetadata? (t : FileTree) (root app : String) : Option Json :=
  match t.read (joinPath (joinPath root app) "meta.json") with
  | .error _ => none
  | .ok contents =>
    match Json.readSettled contents with
    | .ok j => some j
    | .error _ => none

end StepFlow.Workspace
