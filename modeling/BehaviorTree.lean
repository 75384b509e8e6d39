import BehaviorTree.Config.Document
import BehaviorTree.Json.Reader
import BehaviorTree.Lease.Counterfeit
import BehaviorTree.Lease.Registry
import BehaviorTree.Proofs.Blackboard.Access
import BehaviorTree.Proofs.Blackboard.Bindings
import BehaviorTree.Proofs.Blackboard.Outputs
import BehaviorTree.Proofs.Blackboard.Refinement
import BehaviorTree.Proofs.Blackboard.Reuse
import BehaviorTree.Proofs.Blackboard.Scopes
import BehaviorTree.Proofs.Blackboard.Sessions
import BehaviorTree.Proofs.Blackboard.Slots
import BehaviorTree.Proofs.Blackboard.Store
import BehaviorTree.Proofs.Blackboard.Visible
import BehaviorTree.Proofs.Blackboard.Walks
import BehaviorTree.Proofs.Blackboard.Writes
import BehaviorTree.Proofs.Engine.Activations
import BehaviorTree.Proofs.Engine.Activity
import BehaviorTree.Proofs.Engine.Agreement
import BehaviorTree.Proofs.Engine.Arrivals
import BehaviorTree.Proofs.Engine.Assignments
import BehaviorTree.Proofs.Engine.Binding
import BehaviorTree.Proofs.Engine.Branches
import BehaviorTree.Proofs.Engine.ChildTicks
import BehaviorTree.Proofs.Engine.Chronicle
import BehaviorTree.Proofs.Engine.ClientUse
import BehaviorTree.Proofs.Engine.Confinement
import BehaviorTree.Proofs.Engine.CounterOutputs
import BehaviorTree.Proofs.Engine.Counting
import BehaviorTree.Proofs.Engine.Course
import BehaviorTree.Proofs.Engine.Deadlines
import BehaviorTree.Proofs.Engine.Housing
import BehaviorTree.Proofs.Engine.Innermost
import BehaviorTree.Proofs.Engine.Invocations
import BehaviorTree.Proofs.Engine.Keeping
import BehaviorTree.Proofs.Engine.Kinds
import BehaviorTree.Proofs.Engine.Leaves
import BehaviorTree.Proofs.Engine.Outcome
import BehaviorTree.Proofs.Engine.Overrides
import BehaviorTree.Proofs.Engine.Own
import BehaviorTree.Proofs.Engine.Past
import BehaviorTree.Proofs.Engine.PastRemote
import BehaviorTree.Proofs.Engine.PastTick
import BehaviorTree.Proofs.Engine.Pauses
import BehaviorTree.Proofs.Engine.ReadyTurn
import BehaviorTree.Proofs.Engine.RemoteHistory
import BehaviorTree.Proofs.Engine.RemoteNode
import BehaviorTree.Proofs.Engine.RemoteReply
import BehaviorTree.Proofs.Engine.RemoteSessions
import BehaviorTree.Proofs.Engine.Resources
import BehaviorTree.Proofs.Engine.Restarts
import BehaviorTree.Proofs.Engine.Resuming
import BehaviorTree.Proofs.Engine.RetryAccounts
import BehaviorTree.Proofs.Engine.Returning
import BehaviorTree.Proofs.Engine.Routine
import BehaviorTree.Proofs.Engine.ServiceUse
import BehaviorTree.Proofs.Engine.Soundness
import BehaviorTree.Proofs.Engine.Stays
import BehaviorTree.Proofs.Engine.Steady
import BehaviorTree.Proofs.Engine.Subtree
import BehaviorTree.Proofs.Engine.Tick
import BehaviorTree.Proofs.Engine.TimeLimits
import BehaviorTree.Proofs.Engine.Turn
import BehaviorTree.Proofs.Lease.Archive
import BehaviorTree.Proofs.Lease.Filing
import BehaviorTree.Proofs.Lease.Holder
import BehaviorTree.Proofs.Lease.Market
import BehaviorTree.Proofs.Lease.Observation
import BehaviorTree.Proofs.Lease.Registry
import BehaviorTree.Proofs.Lease.Renewal
import BehaviorTree.Proofs.Node.Configuration
import BehaviorTree.Proofs.Node.Durations
import BehaviorTree.Proofs.Node.Fields
import BehaviorTree.Proofs.Number.Integers
import BehaviorTree.Proofs.Number.Rounding
import BehaviorTree.Proofs.Remote.Ages
import BehaviorTree.Proofs.Remote.Calls
import BehaviorTree.Proofs.Remote.Exchanges
import BehaviorTree.Proofs.Remote.Handles
import BehaviorTree.Proofs.Remote.Renumbering
import BehaviorTree.Proofs.Remote.Sessions
import BehaviorTree.Proofs.Remote.Workers
import BehaviorTree.Proofs.Runner.Acquisitions
import BehaviorTree.Proofs.Runner.Assignments
import BehaviorTree.Proofs.Runner.Chronicles
import BehaviorTree.Proofs.Runner.Contest
import BehaviorTree.Proofs.Runner.CounterOutputs
import BehaviorTree.Proofs.Runner.Counting
import BehaviorTree.Proofs.Runner.Faults
import BehaviorTree.Proofs.Runner.Frames
import BehaviorTree.Proofs.Runner.Guarantees
import BehaviorTree.Proofs.Runner.History
import BehaviorTree.Proofs.Runner.Innermost
import BehaviorTree.Proofs.Runner.Interruptions
import BehaviorTree.Proofs.Runner.LeasedTicks
import BehaviorTree.Proofs.Runner.Leases
import BehaviorTree.Proofs.Runner.MissionTime
import BehaviorTree.Proofs.Runner.Orderly
import BehaviorTree.Proofs.Runner.OutputPaths
import BehaviorTree.Proofs.Runner.Overflows
import BehaviorTree.Proofs.Runner.Parameters
import BehaviorTree.Proofs.Runner.Past
import BehaviorTree.Proofs.Runner.Quiescence
import BehaviorTree.Proofs.Runner.RemoteSessions
import BehaviorTree.Proofs.Runner.RequestLeases
import BehaviorTree.Proofs.Runner.Restart
import BehaviorTree.Proofs.Runner.Resuming
import BehaviorTree.Proofs.Runner.Resumptions
import BehaviorTree.Proofs.Runner.Retries
import BehaviorTree.Proofs.Runner.SameMission
import BehaviorTree.Proofs.Runner.Services
import BehaviorTree.Proofs.Runner.Staleness
import BehaviorTree.Proofs.Runner.TimeLimits
import BehaviorTree.Proofs.Source.Acceptance
import BehaviorTree.Proofs.Source.Canonical
import BehaviorTree.Proofs.Source.Comments
import BehaviorTree.Proofs.Source.Documents
import BehaviorTree.Proofs.Source.Escapes
import BehaviorTree.Proofs.Source.Grammar
import BehaviorTree.Proofs.Source.LineEnds
import BehaviorTree.Proofs.Source.Lists
import BehaviorTree.Proofs.Source.Rendering
import BehaviorTree.Proofs.Source.Revision
import BehaviorTree.Proofs.Source.RoundTrip
import BehaviorTree.Proofs.Source.Spans
import BehaviorTree.Proofs.Source.Surroundings
import BehaviorTree.Proofs.Source.Tracking
import BehaviorTree.Proofs.Source.Words
import BehaviorTree.Proofs.Table
import BehaviorTree.Proofs.Template
import BehaviorTree.Proofs.Tree.Assignments
import BehaviorTree.Proofs.Tree.Cycles
import BehaviorTree.Proofs.Tree.Depiction
import BehaviorTree.Proofs.Tree.Gaps
import BehaviorTree.Proofs.Tree.Layout
import BehaviorTree.Proofs.Tree.Parameters
import BehaviorTree.Proofs.Tree.Parents
import BehaviorTree.Proofs.Tree.Rebinding
import BehaviorTree.Proofs.Tree.Recursion
import BehaviorTree.Proofs.Tree.Roles
import BehaviorTree.Proofs.Tree.WellFormed
import BehaviorTree.Proofs.Value.Coercions
import BehaviorTree.Proofs.Value.Comparisons
import BehaviorTree.Proofs.Value.Fields
import BehaviorTree.Proofs.Value.Messages
import BehaviorTree.Remote.Script
import BehaviorTree.Remote.WorkerPool
import BehaviorTree.Runner.Basic
import BehaviorTree.Source.Document
import BehaviorTree.Source.Text
import BehaviorTree.Tree.Layout
