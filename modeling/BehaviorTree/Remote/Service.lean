import BehaviorTree.Duration
import BehaviorTree.Node.Kind

/-!
# Remote services

A service opens sessions with hosts, starts requests and tells how they are going. None of its
operations waits: a request that takes time is started, and then polled until it is over. An error
means that the service could not be reached; an operation that was carried out and failed is a
status like any other.
-/

namespace BehaviorTree

abbrev CallId := UInt64

/-- What a service is asked to do. -/
structure RemoteRequest where
  operation : RemoteOperation
  service : String
  host : String
  node : String
  fields : Json

inductive CallStatus where
  /-- The request is not over, and perhaps there is news of it. -/
  | pending (feedback : Option Value)
  | succeeded (response : Value)
  | failed (message : String)

/-- A service whose state is `σ`. -/
class RemoteService (σ : Type) where
  openSession : σ → (host : String) → Except String Unit × σ
  start : σ → RemoteRequest → Except String CallId × σ
  poll : σ → CallId → Except String CallStatus × σ
  cancel : σ → CallId → Except String Unit × σ

/-- Why a service did not do what it was asked to. -/
inductive RemoteError where
  | unknownService (name : String)
  | session (service message : String)
  | call (service message : String)
  | timeout (service : String) (after : Duration)
  | operation (service message : String)

/-- A name for the cause of an error, by which programs tell errors apart. -/
def RemoteError.code : RemoteError → String
  | unknownService _ => "UnknownService"
  | session _ _ => "Session"
  | call _ _ => "Call"
  | timeout _ _ => "Timeout"
  | operation _ _ => "Operation"

def RemoteError.message : RemoteError → String
  | unknownService name => s!"No remote service registered as {quoted name}"
  | session service message =>
    s!"Could not establish a session with {quoted service}: {message}"
  | call service message => s!"Request to {quoted service} failed: {message}"
  | timeout service after => s!"Request to {quoted service} timed out after {after.text}"
  | operation service message =>
    s!"{quoted service} reported the operation failed: {message}"

end BehaviorTree
