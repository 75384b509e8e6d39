import BehaviorTree.Blackboard.Basic
import BehaviorTree.Remote.Client

/-!
# Run states

What a node remembers from one tick to the next is kept outside of the tree, by the node and the
frame in which it runs. Every invocation of a definition has a frame of its own, so that the same
definition can run at several places. A node has a run state only while it is running.
-/

namespace BehaviorTree

/-- The number of an invocation; the mission itself runs in frame zero. -/
abbrev FrameId := UInt32

/-- A node in an invocation of its definition. -/
structure RunKey where
  frame : FrameId
  node : NodeIndex
deriving DecidableEq, Inhabited

def RunKey.sibling (key : RunKey) (node : NodeIndex) : RunKey := ⟨key.frame, node⟩

/-- What a remote node remembers. -/
structure RemoteRun where
  session : Bool
  call : Option CallHandle
  /-- How many requests were made, the current one and those that timed out included. -/
  starts : Nat
  /-- How many polls of the current request failed in a row. -/
  pollFailures : Nat

def RemoteRun.initial : RemoteRun := ⟨false, none, 0, 0⟩

inductive RunState where
  | child (current : Nat)
  | counter (count : Int64)
  /-- Until when the child may run, and whether that is over. -/
  | forDuration (deadline : Duration) (timedOut : Bool)
  /-- The scope with the variables of the node. -/
  | scope (id : ScopeId)
  | sleep (deadline : Duration)
  | remote (run : RemoteRun)
  /-- After how many pauses the node ran last. -/
  | epoch (pauses : BitVec 64)

namespace RunState

/-- The request that a run state holds. -/
def call? : RunState → Option CallHandle
  | remote run => run.call
  | _ => none

/-- The run state without its request, which then does not count as one that was made. -/
def detach : RunState → RunState
  | remote run =>
    match run.call with
    | some _ => remote { run with call := none, starts := run.starts - 1, pollFailures := 0 }
    | none => remote run
  | state => state

/-- Frees what a run state holds: its scope is destroyed and its request is given up. -/
def release {σ : Type} [RemoteService σ] (state : RunState) (blackboard : Blackboard)
    (client : Client σ) : Blackboard × Client σ :=
  match state with
  | scope id => ((blackboard.destroyScope id).2, client)
  | state =>
    match state.call? with
    | some handle => (blackboard, client.cancel handle)
    | none => (blackboard, client)

end RunState

/-- The run states of all nodes. -/
structure RunStore where
  /-- The run states of the nodes that are running. -/
  states : Table RunKey RunState
  /-- The frames of the references that were invoked. -/
  frames : Table RunKey FrameId
  lastFrame : FrameId

namespace RunStore

def empty : RunStore := ⟨.empty, .empty, 0⟩

instance : Inhabited RunStore := ⟨empty⟩

def get? (store : RunStore) (key : RunKey) : Option RunState := store.states.get? key

/-- The store with a run state for a node. -/
def insert (store : RunStore) (key : RunKey) (state : RunState) : RunStore :=
  { store with states := store.states.insert key state }

/-- The store without a run state for a node. -/
def erase (store : RunStore) (key : RunKey) : RunStore :=
  { store with states := store.states.erase key }

/-- Whether a node has a run state. -/
def isActive (store : RunStore) (key : RunKey) : Bool := store.states.contains key

/-- The number of nodes that have a run state. -/
def size (store : RunStore) : Nat := store.states.size

/-- The frame of a reference, which gets the next number when it is invoked first. -/
def frameFor (store : RunStore) (key : RunKey) : FrameId × RunStore :=
  match store.frames.get? key with
  | some frame => (frame, store)
  | none =>
    let frame := store.lastFrame + 1
    (frame, { store with frames := store.frames.insert key frame, lastFrame := frame })

/-- The frame of a reference that was invoked. -/
def frame? (store : RunStore) (key : RunKey) : Option FrameId := store.frames.get? key

/-- Forgets every request, and returns the requests that were forgotten. -/
def detachCalls (store : RunStore) : List CallHandle × RunStore :=
  (store.states.values.filterMap RunState.call?,
    { store with states := store.states.mapValues RunState.detach })

/-- Forgets everything, and returns the run states that were forgotten. -/
def drain (store : RunStore) : List RunState × RunStore :=
  (store.states.values, empty)

end RunStore

end BehaviorTree
