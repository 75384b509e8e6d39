import BehaviorTree.Engine.Binding
import BehaviorTree.Engine.Halt
import BehaviorTree.Engine.RemoteNode

/-!
# Ticks

A tick of a node gives its status, for which it may tick its children. What the kinds of nodes do
is said with the tick of any other node as an argument, `run`, and the tick of a tree ties the knot.
A node that fails for a cause of its own is reported. A node that is not running after its tick is
halted, so that the next tick starts it afresh.
-/

namespace BehaviorTree

variable {σ : Type} [RemoteService σ]

def childAt (node : Node) (key : RunKey) (position : Nat) : Attempt σ NodeIndex :=
  match node.children[position]? with
  | some child => pure child
  | none => throw (.abort (.error (.missingChild key.node)))

def runStateOf (key : RunKey) : Attempt σ (Option RunState) :=
  return (← get).runs.get? key

def haltSibling (tree : Tree) (key : RunKey) (node : NodeIndex) : Attempt σ Unit :=
  Tick.attempt (halt tree (key.sibling node))

/-- Halts the children between two positions, the second one included. -/
def abandon (tree : Tree) (key : RunKey) (children : List NodeIndex) (first last : Nat) :
    Attempt σ Unit :=
  if last < children.length then
    ((children.take (last + 1)).drop first).forM (haltSibling tree key)
  else throw (.abort (.crash .childRange))

/-- Halts the children after the one that is running, up to the one that ran last. -/
def handOver (tree : Tree) (key : RunKey) (children : List NodeIndex) (previous : Option Nat)
    (position : Nat) : Attempt σ Unit :=
  match previous with
  | some last =>
    if position < last then abandon tree key children (position + 1) last else pure ()
  | none => pure ()

/-- Ticks children from a position on, until one is running or has the status to stop on. A child
that runs before the one that ran last takes over from it. -/
def tickFrom (tree : Tree) (run : NodeIndex → Tick σ Status) (key : RunKey)
    (children : List NodeIndex) (previous : Option Nat) (stopOn otherwise : Status)
    (position : Nat) : List NodeIndex → Attempt σ Status
  | [] => return otherwise
  | child :: rest => do
    let status ← run child
    if status = .running then
      handOver tree key children previous position
      remember key (.child position)
      return .running
    else if status = stopOn then return status
    else tickFrom tree run key children previous stopOn otherwise (position + 1) rest

/-- Ticks the children of a sequence or a selector. It goes on with the child that ran last, unless
it always starts with the first one. -/
def tickChildren (tree : Tree) (run : NodeIndex → Tick σ Status) (key : RunKey)
    (children : List NodeIndex) (alwaysRestart : Bool) (stopOn otherwise : Status) :
    Attempt σ Status := do
  let previous := match ← runStateOf key with
    | some (.child current) => some current
    | _ => none
  let first := if alwaysRestart then 0 else previous.getD 0
  tickFrom tree run key children previous stopOn otherwise first (children.drop first)

def counted (key : RunKey) : Attempt σ (Option Int64) := do
  match ← runStateOf key with
  | some (.counter count) => return some count
  | _ => return none

/-- How often the child of a node was started. That it was never started is put out. -/
def startsOf (setting : Setting) (key : RunKey) : Attempt σ Int64 := do
  match ← counted key with
  | some starts => return starts
  | none =>
    writeOutput setting key.node "start_counter" (.int 0)
    return 0

/-- Ticks a node that starts its child again whenever it succeeds. -/
def tickRepeater (setting : Setting) (run : NodeIndex → Tick σ Status) (key : RunKey)
    (child : NodeIndex) (maxStarts : Int64) : Attempt σ Status := do
  if maxStarts = 0 then return .success
  let starts ← startsOf setting key
  match ← run child with
  | .success =>
    let starts := starts + 1
    if 0 < maxStarts ∧ maxStarts ≤ starts then return .success
    writeOutput setting key.node "start_counter" (.int starts)
    remember key (.counter starts)
    return .running
  | .running =>
    remember key (.counter starts)
    return .running
  | .failure => return .failure

/-- Ticks a node that starts its child again whenever it fails. -/
def tickRetrier (setting : Setting) (run : NodeIndex → Tick σ Status) (key : RunKey)
    (child : NodeIndex) (maxAttempts : Int64) : Attempt σ Status := do
  let failures := (← counted key).getD 0
  match ← run child with
  | .failure =>
    let failures := failures + 1
    if maxAttempts ≤ failures then return .failure
    writeOutput setting key.node "attempt" (.int failures)
    remember key (.counter failures)
    return .running
  | .running =>
    remember key (.counter failures)
    return .running
  | .success => return .success

def later (now duration : Duration) : Attempt σ Duration :=
  match now.add? duration with
  | some time => pure time
  | none => throw (.abort (.crash .durationOverflow))

/-- Until when the child of a node may run, and whether that is over. -/
def deadlineOf (setting : Setting) (key : RunKey) (duration : Duration) :
    Attempt σ (Duration × Bool) := do
  match ← runStateOf key with
  | some (.forDuration deadline timedOut) => return (deadline, timedOut)
  | _ => return (← later setting.now duration, false)

/-- Halts a child whose time is over, unless that was done before. -/
def timeOut (setting : Setting) (key : RunKey) (child : NodeIndex) (timedOut : Bool) :
    Attempt σ Unit :=
  if timedOut then pure ()
  else do
    haltSibling setting.tree key child
    writeOutput setting key.node "time_remaining" (.float (.zero false))

/-- Ticks a node whose child may run for a limited time. After that its other child runs, if it
has one. -/
def tickForDuration (setting : Setting) (run : NodeIndex → Tick σ Status) (key : RunKey)
    (node : Node) (duration : Duration) : Attempt σ Status := do
  let (deadline, timedOut) ← deadlineOf setting key duration
  let child ← childAt node key 0
  if !timedOut && setting.now < deadline then
    let remaining := deadline.since setting.now
    writeOutput setting key.node "time_remaining" (.float remaining.toSeconds)
    remember key (.forDuration deadline timedOut)
    run child
  else
    timeOut setting key child timedOut
    match node.children[1]? with
    | none => return .failure
    | some fallback =>
      remember key (.forDuration deadline true)
      run fallback

/-- Ticks two children. The first one decides, and the second one does not count as running if the
first one is over. -/
def tickParallel (run : NodeIndex → Tick σ Status) (key : RunKey) (node : Node) :
    Attempt σ Status := do
  let status ← run (← childAt node key 0)
  let innermost := (← get).innermost
  let _ ← run (← childAt node key 1)
  if status ≠ .running then
    modify fun context => { context with innermost := innermost }
  return status

/-- Compares two values. A value that is not fresh is waited for. -/
def tickCondition (setting : Setting) (condition : ConditionConfiguration) :
    Attempt σ Status := do
  let read (operand : Operand) : Attempt σ Lookup := do
    bound ((← get).freshValue condition.freshness setting.now operand)
  let .value left ← read condition.left | return .running
  let .value right ← read condition.right | return .running
  match left.compare? condition.comparison right with
  | some true => return .success
  | some false => return .failure
  | none => failNode (.binding (.incomparable left.kind right.kind))

def haltAfterPause (setting : Setting) (key : RunKey) (child : NodeIndex) : Attempt σ Unit := do
  match ← runStateOf key with
  | some (.epoch pauses) =>
    if pauses ≠ setting.pauses then haltSibling setting.tree key child
  | _ => return

/-- Ticks a node whose child starts afresh after a pause. -/
def tickRestartWhenPaused (setting : Setting) (run : NodeIndex → Tick σ Status) (key : RunKey)
    (node : Node) : Attempt σ Status := do
  let child ← childAt node key 0
  haltAfterPause setting key child
  remember key (.epoch setting.pauses)
  run child

/-- Defines the variables of a node, of which later ones may use earlier ones. -/
def defineAll (setting : Setting) (node : NodeIndex) : List Assignment → Attempt σ Unit
  | [] => return
  | assignment :: rest => do
    let context ← get
    let value ← bound (context.value assignment.source)
    let blackboard ← accessed
      (context.blackboard.define context.scope assignment.name ⟨value, setting.now, some node⟩)
    set { context with blackboard := blackboard }
    defineAll setting node rest

/-- Creates the scope of a node. It is remembered before anything is defined in it, so that it is
destroyed if a definition fails. -/
def openScope (setting : Setting) (key : RunKey) (node : Node) : Attempt σ ScopeId := do
  let context ← get
  let (scope, blackboard) ← accessed (context.blackboard.createScope context.scope)
  set { context with blackboard := blackboard }
  remember key (.scope scope)
  inScope scope (defineAll setting key.node node.assignments)
  return scope

/-- The scope of a node, which is created unless the node has one. -/
def scopeOf (setting : Setting) (key : RunKey) (node : Node) : Attempt σ ScopeId := do
  match ← runStateOf key with
  | some (.scope scope) =>
    if (← get).blackboard.isAlive scope then return scope else openScope setting key node
  | _ => openScope setting key node

/-- Ticks a node whose child runs in a scope of its own. -/
def tickDefine (setting : Setting) (run : NodeIndex → Tick σ Status) (key : RunKey)
    (node : Node) : Attempt σ Status := do
  let child ← childAt node key 0
  let scope ← scopeOf setting key node
  inScope scope (run child)

/-- Writes variables at once: all values are read before the first write, and nothing is written
if a variable is not defined. -/
def tickSet (setting : Setting) (key : RunKey) (node : Node) : Attempt σ Status := do
  let context ← get
  let values ← bound (node.assignments.mapM fun assignment =>
    (context.value assignment.source).map fun value => (assignment.name, value))
  values.forM fun (name, _) =>
    match context.blackboard.entry context.scope name with
    | .ok _ => pure ()
    | .error _ => failNode (.blackboard (.undefinedVariable name))
  values.forM fun (name, value) => writeVariable setting key.node name value
  return .success

def tickReference (setting : Setting) (run : NodeIndex → Tick σ Status) (key : RunKey)
    (node : Node) (target : String) : Attempt σ Status := do
  let some root := setting.tree.lookup target
    | throw (.abort (.error (.missingTree target)))
  let some definition := setting.tree.node? root
    | throw (.abort (.error (.invalidNode root)))
  let context ← get
  let parameters ← bound (bindParameters definition.parameters node.arguments context)
  let (frame, runs) := context.runs.frameFor key
  set { context with runs := runs }
  inFrame frame parameters (run root)

def wakeUpTime (setting : Setting) (key : RunKey) (duration : Duration) : Attempt σ Duration := do
  match ← runStateOf key with
  | some (.sleep deadline) => return deadline
  | _ =>
    let deadline ← later setting.now duration
    remember key (.sleep deadline)
    return deadline

def tickConfigured (setting : Setting) (run : NodeIndex → Tick σ Status) (key : RunKey)
    (node : Node) : Configuration → Attempt σ Status
  | .sequence always =>
    tickChildren setting.tree run key node.children always .failure .success
  | .selector always =>
    tickChildren setting.tree run key node.children always .success .failure
  | .repeater maxStarts => do
    tickRepeater setting run key (← childAt node key 0) maxStarts
  | .retrier maxAttempts => do
    tickRetrier setting run key (← childAt node key 0) maxAttempts
  | .forDuration duration => tickForDuration setting run key node duration
  | .simpleParallel => tickParallel run key node
  | .condition condition => tickCondition setting condition
  | .restartWhenPaused => tickRestartWhenPaused setting run key node
  | .defineBlackboard => tickDefine setting run key node
  | .setBlackboard => tickSet setting key node
  | .formatBlackboard name format => do
    let context ← get
    let text ← accessed (context.blackboard.format context.scope format)
    writeVariable setting key.node name (.string text)
    return .success
  | .dateToBlackboard name format => do
    let text ← bound (DateFormat.write setting.wallClock format)
    writeVariable setting key.node name (.string text)
    return .success
  | .sleep duration => do
    let deadline ← wakeUpTime setting key duration
    return if deadline ≤ setting.now then .success else .running
  | .constantResult status => return status
  | .reference target => tickReference setting run key node target
  | .remote remote => tickRemote setting key node remote

def attemptNode (setting : Setting) (run : NodeIndex → Tick σ Status) (key : RunKey)
    (node : Node) : Attempt σ Status := do
  match node.effectiveConfiguration (← get) with
  | .ok configuration => tickConfigured setting run key node configuration
  | .error (.error cause) => failNode (.binding cause)
  | .error (.crash cause) => throw (.abort (.crash cause))

/-- The status of an attempt, of which a note is made. A failure of the node is reported. -/
def settleAttempt (setting : Setting) (key : RunKey) (node : Node)
    (attempt : Attempt σ Status) : Tick σ Status := fun context =>
  match attempt.run.run context with
  | (.ok status, after) => (.ok status, after.visit ⟨key, status, none⟩)
  | (.error (.abort failure), after) => (.error failure, after)
  | (.error (.node cause), after) =>
    (.ok .failure, (after.report setting key.node node cause).visit ⟨key, .failure, some cause⟩)

/-- Notes a running node as the innermost one, unless there is one inside of it, and halts a node
that is over. -/
def concludeNode (setting : Setting) (key : RunKey) (status : Status) : Tick σ Unit :=
  if status = .running then
    modify fun context => { context with innermost := context.innermost.or (some key) }
  else halt setting.tree key

/-- Ticks a node in which others are nested less than `depth` levels deep. -/
def tickWithin (setting : Setting) : (depth : Nat) → NodeIndex → Tick σ Status
  | 0, _ => throw (.crash .unboundedRecursion)
  | depth + 1, index => do
    let some node := setting.tree.node? index | abortTick (.invalidNode index)
    let key : RunKey := ⟨(← get).frame, index⟩
    let status ← settleAttempt setting key node
      (attemptNode setting (tickWithin setting depth) key node)
    concludeNode setting key status
    return status

def tick (setting : Setting) (index : NodeIndex) : Tick σ Status :=
  tickWithin setting setting.tree.depthLimit index

end BehaviorTree
