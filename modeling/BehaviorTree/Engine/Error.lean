import BehaviorTree.Blackboard.Basic
import BehaviorTree.Lease.Holder
import BehaviorTree.Node.BindingError
import BehaviorTree.Remote.Service

/-!
# Errors of running nodes

A node fails for a cause of its own, which is reported and makes its status a failure. An error of
the engine means that the tree or the leases are not what they have to be, and ends the tick.
-/

namespace BehaviorTree

inductive TickError where
  | binding (cause : BindingError)
  | blackboard (cause : BlackboardError)
  | remoteSession (cause : RemoteError)
  /-- A request was tried as often as it may be. -/
  | remoteCall (cause : RemoteError) (attempts : Nat)
  | remoteOperation (cause : RemoteError)

/-- A name for the cause of an error, by which programs tell errors apart. -/
def TickError.code : TickError → String
  | binding cause => "Binding." ++ cause.code
  | blackboard cause => "Blackboard." ++ cause.code
  | remoteSession cause => "RemoteSession." ++ cause.code
  | remoteCall _ _ => "RemoteCall"
  | remoteOperation cause => "RemoteOperation." ++ cause.code

def TickError.message : TickError → String
  | binding cause => cause.message
  | blackboard cause => cause.message
  | remoteSession cause => cause.message
  | remoteCall cause attempts =>
    s!"{cause.message} (retries exhausted after {attempts} attempts)"
  | remoteOperation cause => cause.message

inductive EngineError where
  | invalidNode (index : NodeIndex)
  | missingChild (index : NodeIndex)
  | missingTree (name : String)
  | leaseBookkeeping (fault : LeaseFault)

/-- A name for the cause of an error, by which programs tell errors apart. -/
def EngineError.code : EngineError → String
  | invalidNode _ => "InvalidNode"
  | missingChild _ => "MissingChild"
  | missingTree _ => "MissingTree"
  | leaseBookkeeping _ => "LeaseBookkeeping"

def EngineError.message : EngineError → String
  | invalidNode index => s!"Node index {index} is out of range"
  | missingChild index => s!"Node {index} is missing a child"
  | missingTree name => s!"Reference target {quoted name} disappeared from the loaded tree"
  | leaseBookkeeping fault => s!"Lease bookkeeping is corrupted: {fault.text}"

end BehaviorTree
