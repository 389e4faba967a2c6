import StepFlow.Workspace.Path

/-!
Where apps and groups live, and how programs are run.
-/
namespace StepFlow.Engine
open Workspace

structure Config where
  workspaceRoot : String
  groupRoot : String
  interpreter : String := "node"
  defaultTimeoutMs : Option Nat := none
  deriving Repr, Inhabited

namespace Config

def ofDataDir (dataDir : String) : Config where
  workspaceRoot := joinPath dataDir "apps"
  groupRoot := joinPath dataDir "groups"

def appDir (c : Config) (app : String) : String := joinPath c.workspaceRoot app

end Config

end StepFlow.Engine
