import BehaviorTree.Config.Basic
import BehaviorTree.DateFormat
import BehaviorTree.Engine.Error
import BehaviorTree.Engine.RunStore
import BehaviorTree.Tree.Basic

/-!
# Contexts of ticks

A tick reads a setting that does not change, and changes a context: the blackboard, the run states,
the client of remote services and the reports. The context also says in which scope, frame and
invocation the engine is. `inScope` and `inFrame` enter another one for an action and leave it
again, whatever becomes of the action.

An `Attempt` is what a node does: it may fail for a cause of its own. A `Tick` has a result for
every cause of that kind and only ends early if the tree is broken.
-/

namespace BehaviorTree

/-- What does not change during a tick. -/
structure Setting where
  tree : Tree
  config : MissionConfig
  now : Duration
  /-- How often the mission was played on. -/
  pauses : BitVec 64
  wallClock : WallClock

/-- A failure of a node. -/
structure NodeReport where
  node : NodeIndex
  label : String
  time : Duration
  error : TickError

/-- What a node reported when it was ticked. -/
structure Visit where
  key : RunKey
  status : Status
  /-- The cause of a failure of its own. -/
  cause : Option TickError

structure Context (σ : Type) where
  blackboard : Blackboard
  runs : RunStore
  client : Client σ
  /-- The failures of nodes, the oldest in front. -/
  reports : List NodeReport
  scope : ScopeId
  frame : FrameId
  /-- The parameters of the invocations in which the engine is, the innermost in front. -/
  parameters : List (Table String Value)
  innermost : Option RunKey
  /-- What the nodes that were ticked reported, the latest in front. -/
  visits : List Visit

/-- Why an attempt has no status. -/
inductive Fault where
  | node (cause : TickError)
  | abort (cause : Failure EngineError)

abbrev Tick (σ : Type) := ExceptT (Failure EngineError) (StateM (Context σ))

abbrev Attempt (σ : Type) := ExceptT Fault (StateM (Context σ))

variable {σ α : Type}

/-- A part of a tick as a part of what a node does. -/
def Tick.attempt (action : Tick σ α) : Attempt σ α :=
  ExceptT.adapt .abort action

instance : MonadLift (Tick σ) (Attempt σ) := ⟨Tick.attempt⟩

def abortTick (error : EngineError) : Tick σ α := throw (.error error)

def failNode (cause : TickError) : Attempt σ α := throw (.node cause)

/-- The value of a binding, without which the node fails. -/
def bound : Except BindingError α → Attempt σ α
  | .ok value => pure value
  | .error cause => failNode (.binding cause)

/-- The result of an operation on the blackboard, without which the node fails. -/
def accessed : Except BlackboardError α → Attempt σ α
  | .ok result => pure result
  | .error cause => failNode (.blackboard cause)

def inScope (scope : ScopeId) (action : Attempt σ α) : Attempt σ α := fun context =>
  let (result, after) := action.run.run { context with scope := scope }
  (result, { after with scope := context.scope })

/-- Whatever becomes of an action in another frame, the parameters in front are taken off again. -/
def inFrame (frame : FrameId) (parameters : Table String Value) (action : Attempt σ α) :
    Attempt σ α := fun context =>
  let inside := { context with frame := frame, parameters := parameters :: context.parameters }
  let (result, after) := action.run.run inside
  (result, { after with frame := context.frame, parameters := after.parameters.tail })

namespace Context

/-- The context of a tick that starts at the root. -/
def atRoot (blackboard : Blackboard) (runs : RunStore) (client : Client σ)
    (reports : List NodeReport) : Context σ :=
  ⟨blackboard, runs, client, reports, .root, 0, [], none, []⟩

/-- The value of a parameter of the innermost invocation. -/
def parameter (context : Context σ) (name : String) : Except BindingError Value :=
  match context.parameters.head?.bind fun parameters => parameters.get? name with
  | some value => .ok value
  | none => .error (.unboundParameter name)

/-- The value of an operand, however old. -/
def value (context : Context σ) : Operand → Except BindingError Value
  | .constant value => .ok value
  | .parameter name => context.parameter name
  | .path path => (context.blackboard.resolveValue context.scope path).mapError .blackboard

/-- The value of an operand, if it is fresh. -/
def freshValue (context : Context σ) (freshness : Freshness) (now : Duration) :
    Operand → Except BindingError Lookup
  | .path path =>
    (context.blackboard.resolve context.scope path freshness now).mapError .blackboard
  | operand => (context.value operand).map .value

/-- The context with a run state for a node. -/
def setRun (context : Context σ) (key : RunKey) (state : RunState) : Context σ :=
  { context with runs := context.runs.insert key state }

def release [RemoteService σ] (context : Context σ) (state : RunState) : Context σ :=
  let (blackboard, client) := state.release context.blackboard context.client
  { context with blackboard := blackboard, client := client }

end Context

/-- Remembers a run state for a node. -/
def remember (key : RunKey) (state : RunState) : Attempt σ Unit :=
  modify fun context => context.setRun key state

def writeVariable (setting : Setting) (node : NodeIndex) (name : String) (value : Value) :
    Attempt σ Unit := do
  let context ← get
  let blackboard ← accessed
    (context.blackboard.write context.scope name ⟨value, setting.now, some node⟩)
  set { context with blackboard := blackboard }

/-- The blackboard after a write of an output, which defines a variable that does not exist. -/
def outputTo (blackboard : Blackboard) (scope : ScopeId) (name : String) (entry : Entry) :
    Except BlackboardError Blackboard :=
  match blackboard.write scope name entry with
  | .error (.undefinedVariable _) => blackboard.define scope name entry
  | result => result

/-- Writes an output of a node, if it leads to a variable. -/
def writeOutput (setting : Setting) (node : NodeIndex) (port : String) (value : Value) :
    Attempt σ Unit := do
  match (setting.tree.node? node).bind fun node => node.outputs.get? port with
  | none => return
  | some name =>
    let context ← get
    let blackboard ← accessed
      (outputTo context.blackboard context.scope name ⟨value, setting.now, some node⟩)
    set { context with blackboard := blackboard }

/-- Reports after another one, of which only the latest are kept. -/
def addReport (limit : Nat) (reports : List NodeReport) (report : NodeReport) :
    List NodeReport :=
  reports.drop (reports.length + 1 - max limit 1) ++ [report]

namespace Context

/-- The context with a report of a failure of a node. -/
def report (context : Context σ) (setting : Setting) (index : NodeIndex) (node : Node)
    (cause : TickError) : Context σ :=
  { context with
    reports := addReport setting.config.maxReports.toNat context.reports
      ⟨index, node.label, setting.now, cause⟩ }

/-- The context with a note of what a node reported. -/
def visit (context : Context σ) (visit : Visit) : Context σ :=
  { context with visits := visit :: context.visits }

end Context

end BehaviorTree
