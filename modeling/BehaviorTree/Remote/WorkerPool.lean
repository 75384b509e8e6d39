import BehaviorTree.Remote.Service
import BehaviorTree.Table

/-!
# Workers behind a service

A service may carry out every request by a worker of its own. The service and its workers act in
any order: a worker publishes feedback and at last finishes or exits without an outcome, while the
service is polled and cancelled. A poll looks for an outcome first and for feedback after that, and
a worker may get on in between. A call is registered until its outcome is delivered or it is
cancelled. A cancelled worker goes on, but it can see that it was cancelled.
-/

namespace BehaviorTree

inductive WorkerPhase where
  | working
  /-- It is done, with a response or a message of failure. -/
  | finished (outcome : Except String Value)
  | lost

/-- What is told of a request whose worker is done. -/
def WorkerPhase.reply? : WorkerPhase → Option (Except String CallStatus)
  | working => none
  | finished (.ok response) => some (.ok (.succeeded response))
  | finished (.error message) => some (.ok (.failed message))
  | lost => some (.error "worker thread exited without a result")

structure Worker where
  request : RemoteRequest
  feedback : Option Value
  cancelled : Bool
  phase : WorkerPhase

/-- A service that has a worker for every request. -/
structure WorkerPool where
  workers : Table CallId Worker
  registered : List CallId
  nextCall : CallId

namespace WorkerPool

def empty : WorkerPool := ⟨.empty, [], 0⟩

instance : Inhabited WorkerPool := ⟨empty⟩

def unknownCall (call : CallId) : String := s!"no such call {call.toNat}"

def updateWorker (pool : WorkerPool) (call : CallId) (change : Worker → Worker) : WorkerPool :=
  match pool.workers.get? call with
  | some worker => { pool with workers := pool.workers.insert call (change worker) }
  | none => pool

def updateWorking (pool : WorkerPool) (call : CallId) (change : Worker → Worker) : WorkerPool :=
  pool.updateWorker call fun worker =>
    match worker.phase with
    | .working => change worker
    | _ => worker

def publish (pool : WorkerPool) (call : CallId) (feedback : Value) : WorkerPool :=
  pool.updateWorking call fun worker => { worker with feedback := some feedback }

def finish (pool : WorkerPool) (call : CallId) (outcome : Except String Value) : WorkerPool :=
  pool.updateWorking call fun worker => { worker with phase := .finished outcome }

def lose (pool : WorkerPool) (call : CallId) : WorkerPool :=
  pool.updateWorking call fun worker => { worker with phase := .lost }

def unregister (pool : WorkerPool) (call : CallId) : WorkerPool :=
  { pool with registered := pool.registered.filter (· ≠ call) }

def worker? (pool : WorkerPool) (call : CallId) : Option Worker :=
  if call ∈ pool.registered then pool.workers.get? call else none

def start (pool : WorkerPool) (request : RemoteRequest) : CallId × WorkerPool :=
  let call := pool.nextCall
  (call,
    { workers := pool.workers.insert call ⟨request, none, false, .working⟩
      registered := call :: pool.registered.filter (· ≠ call)
      nextCall := call + 1 })

/-- A request is refused when no worker can be had for it. Its number is not given out again. -/
def refuse (pool : WorkerPool) : WorkerPool :=
  { pool with nextCall := pool.nextCall + 1 }

/-- Looks whether a request is over. If it is, there is a reply, and the request is forgotten. -/
def receive (pool : WorkerPool) (call : CallId) :
    Option (Except String CallStatus) × WorkerPool :=
  match pool.worker? call with
  | none => (some (.error (unknownCall call)), pool)
  | some worker =>
    match worker.phase.reply? with
    | none => (none, pool)
    | some reply => (some reply, pool.unregister call)

/-- What there is to say of a request that was not over when it was looked at. -/
def news (pool : WorkerPool) (call : CallId) : CallStatus :=
  .pending ((pool.worker? call).bind Worker.feedback)

/-- Tells how a request is going. An outcome is told once. -/
def poll (pool : WorkerPool) (call : CallId) : Except String CallStatus × WorkerPool :=
  let (reply, pool) := pool.receive call
  (reply.getD (.ok (pool.news call)), pool)

/-- Gives a request up, and lets its worker see that. -/
def cancel (pool : WorkerPool) (call : CallId) : Except String Unit × WorkerPool :=
  match pool.worker? call with
  | none => (.error (unknownCall call), pool)
  | some _ =>
    (.ok (),
      (pool.unregister call).updateWorker call fun worker => { worker with cancelled := true })

end WorkerPool

instance : RemoteService WorkerPool where
  openSession pool _ := (.ok (), pool)
  start pool request := (pool.start request).map .ok id
  poll := WorkerPool.poll
  cancel := WorkerPool.cancel

end BehaviorTree
