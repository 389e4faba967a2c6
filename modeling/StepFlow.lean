import StepFlow.Compile.StepModule
import StepFlow.Engine.Rehearsal
import StepFlow.Main
import StepFlow.Proofs.Compile.Emission
import StepFlow.Queue.Rehearsal
import StepFlow.Run.Rehearsal
import StepFlow.Shell.Host
import StepFlow.Run.Stage
import StepFlow.Proofs.Compile.Pass
import StepFlow.Proofs.Compile.Meaning
import StepFlow.Proofs.Compile.Acceptance
import StepFlow.Proofs.Compile.Scope
import StepFlow.Proofs.Run.Interleaving
import StepFlow.Proofs.Compile.Landing
import StepFlow.Proofs.Run.Ending
import StepFlow.Proofs.Script.Reading
import StepFlow.Proofs.Script.Fuel
import StepFlow.Proofs.Script.Lexeme
import StepFlow.Proofs.Script.RoundTrip
import StepFlow.Proofs.Script.Sanitized
import StepFlow.Proofs.Compile.Loading
import StepFlow.Proofs.Queue.Interleaving
import StepFlow.Proofs.Queue.Waiting
import StepFlow.Proofs.Queue.Rehearsed
import StepFlow.Proofs.Run.Stopping
import StepFlow.Proofs.Run.Verdict
import StepFlow.Proofs.Compile.Calls
import StepFlow.Proofs.Compile.Capture
import StepFlow.Proofs.Script.Proper
import StepFlow.Proofs.Script.Source
import StepFlow.Proofs.Script.Unambiguous
import StepFlow.Proofs.Compile.Proper
import StepFlow.Proofs.Script.Emptied
import StepFlow.Proofs.Compile.UserTexts
import StepFlow.Proofs.Run.Lone
import StepFlow.Proofs.Engine.Interleaving
import StepFlow.Proofs.Engine.Ending
import StepFlow.Proofs.Engine.Slot
import StepFlow.Proofs.Engine.Rehearsed
import StepFlow.Proofs.Run.Refusals
import StepFlow.Proofs.Run.Signals
import StepFlow.Proofs.Json.Restored
import StepFlow.Proofs.Flow.RoundTrip
import StepFlow.Proofs.Engine.Request
import StepFlow.Proofs.Engine.Queued
import StepFlow.Proofs.Script.Accepted
import StepFlow.Proofs.Compile.StepText
import StepFlow.Proofs.Workspace.Confined
import StepFlow.Proofs.Compile.Declared
import StepFlow.Proofs.Compile.Kept
import StepFlow.Proofs.Queue.Order
import StepFlow.Proofs.Run.Published
import StepFlow.Proofs.Workspace.Repeated
import StepFlow.Proofs.Workspace.Rejected
import StepFlow.Proofs.Compile.Reference
import StepFlow.Proofs.Script.Mirrored
import StepFlow.Proofs.Compile.Integers
import StepFlow.Proofs.Compile.Siblings
import StepFlow.Proofs.Flow.Outputs
import StepFlow.Proofs.Script.Surrogates
import StepFlow.Proofs.Compile.Chains
import StepFlow.Proofs.Run.Arguments
import StepFlow.Proofs.Compile.Embedded
import StepFlow.Proofs.Script.Offsets
