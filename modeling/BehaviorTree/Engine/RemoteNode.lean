import BehaviorTree.Engine.Context

/-!
# Remote nodes

A remote node opens a session, makes a request and polls it once per tick until it is over. A
request that cannot be made, or that takes too long, is made again on the next tick as often as the
settings allow; a poll that fails is tried again likewise. The request of a node that does not stay
running is given up.
-/

namespace BehaviorTree

variable {σ : Type} [RemoteService σ]

/-- What a remote node does on a tick. Besides its result it has what it remembers. -/
abbrev RemoteStep (σ : Type) := ExceptT Fault (StateT RemoteRun (StateM (Context σ)))

namespace RemoteStep

def ofAttempt {α : Type} (action : Attempt σ α) : RemoteStep σ α := fun run context =>
  let (result, after) := action.run.run context
  ((result, run), after)

def update (change : RemoteRun → RemoteRun) : RemoteStep σ Unit := modify change

def useClient {α : Type} (operation : Client σ → α × Client σ) : RemoteStep σ α :=
  ofAttempt do
    let context ← get
    let (result, client) := operation context.client
    set { context with client := client }
    return result

/-- The failure of a node that tried as often as it may, or else another try. -/
def retryOr (error : RemoteError) (attempts : Nat) (limit : UInt32) : RemoteStep σ Status :=
  if attempts < limit.toNat then return .running
  else throw (.node (.remoteCall error attempts))

/-- Opens the session of a node, unless it has one. -/
def openSession (remote : RemoteConfiguration) : RemoteStep σ Unit := do
  if (← get).session then return
  match ← useClient fun client => client.ensureSession remote.service remote.host with
  | .ok _ => update fun run => { run with session := true }
  | .error error => throw (.node (.remoteSession error))

def startCall (setting : Setting) (node : Node) (remote : RemoteConfiguration) :
    RemoteStep σ (Except (Failure RemoteError) CallHandle) := do
  update fun run => { run with starts := run.starts + 1 }
  let request : RemoteRequest :=
    ⟨remote.operation, remote.service, remote.host, node.label, remote.request⟩
  let timeout := remote.timeout.or setting.config.defaultTimeout
  match ← useClient fun client => client.start request timeout setting.now with
  | .ok call =>
    update fun run => { run with pollFailures := 0, call := some call }
    return .ok call
  | .error error => return .error error

/-- The request of a node, which is made unless the node has one. -/
def currentCall (setting : Setting) (node : Node) (remote : RemoteConfiguration) :
    RemoteStep σ (Except (Failure RemoteError) CallHandle) := do
  match (← get).call with
  | some call => return .ok call
  | none => startCall setting node remote

/-- What becomes of a node by the reply to a poll. -/
def settle (setting : Setting) (key : RunKey) (remote : RemoteConfiguration) :
    Except (Failure RemoteError) CallStatus → RemoteStep σ Status
  | .ok (.pending feedback) => do
    update fun run => { run with pollFailures := 0 }
    if let some feedback := feedback then
      ofAttempt (writeOutput setting key.node "feedback" feedback)
    return .running
  | .ok (.succeeded response) => do
    update fun run => { run with call := none }
    ofAttempt (writeOutput setting key.node "response" response)
    return .success
  | .ok (.failed message) => do
    update fun run => { run with call := none }
    throw (.node (.remoteOperation (.operation remote.service message)))
  | .error (.crash cause) => throw (.abort (.crash cause))
  | .error (.error error@(.timeout _ _)) => do
    update fun run => { run with call := none }
    retryOr error (← get).starts setting.config.retry.start
  | .error (.error error) => do
    update fun run => { run with pollFailures := run.pollFailures + 1 }
    retryOr error (← get).pollFailures setting.config.retry.poll

def advance (setting : Setting) (key : RunKey) (node : Node) (remote : RemoteConfiguration) :
    RemoteStep σ Status := do
  openSession remote
  match ← currentCall setting node remote with
  | .error (.crash cause) => throw (.abort (.crash cause))
  | .error (.error error) => retryOr error (← get).starts setting.config.retry.start
  | .ok call =>
    let reply ← useClient fun client => client.poll call setting.now
    settle setting key remote reply

end RemoteStep

def RunStore.remoteRun (store : RunStore) (key : RunKey) : RemoteRun :=
  match store.get? key with
  | some (.remote run) => run
  | _ => .initial

def tickRemote (setting : Setting) (key : RunKey) (node : Node)
    (remote : RemoteConfiguration) : Attempt σ Status := fun context =>
  let run := context.runs.remoteRun key
  let started := { context with runs := context.runs.erase key }
  let ((result, run), after) :=
    ((RemoteStep.advance setting key node remote).run.run run).run started
  match result with
  | .ok .running => (result, after.setRun key (.remote run))
  | _ => (result, after.release (.remote run))

end BehaviorTree
