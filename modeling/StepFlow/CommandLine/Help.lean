import StepFlow.CommandLine.Args

/-!
The page that tells what may stand in a place of a command line: what it is about, its usage in one
line, and its commands, operands and options, each kind in two columns.
-/
namespace StepFlow.CommandLine

namespace Grammar

/-- The usage in one line. Optional options are only hinted at. -/
def usage (g : Grammar) : String :=
  let hint := if g.options.any fun p => !p.required then ["[OPTIONS]"] else []
  let required := (g.options.filter (·.required)).map Param.display
  let command := if g.commands.isEmpty then [] else ["[COMMAND]"]
  " ".intercalate
    (["Usage:", g.name] ++ hint ++ required ++ g.operands.map Param.display ++ command)

end Grammar

def Param.description (p : Param) : String :=
  match p.fallback with
  | none => p.about
  | some value => p.about ++ " [default: " ++ value ++ "]"

/-- A heading over rows of two columns, the second one as far left as all rows allow. -/
def table (title : String) (rows : List (String × String)) : List String :=
  let width := rows.foldl (fun n row => max n row.1.length) 0
  let line (row : String × String) :=
    "  " ++ row.1 ++ String.ofList (List.replicate (width - row.1.length + 2) ' ') ++ row.2
  if rows.isEmpty then [] else ["\n".intercalate ((title ++ ":") :: rows.map line)]

namespace Grammar

def optionRows (g : Grammar) : List (String × String) :=
  g.options.map (fun p => ("    " ++ p.display, p.description)) ++
    g.wishes.map fun w => (String.ofList ['-', w.short] ++ ", --" ++ w.long, w.about)

def page (g : Grammar) : String :=
  "\n\n".intercalate
    ([g.about, g.usage] ++ table "Commands" g.commands ++
      table "Arguments" (g.operands.map fun p => (p.display, p.description)) ++
      table "Options" g.optionRows) ++ "\n"

end Grammar

end StepFlow.CommandLine
