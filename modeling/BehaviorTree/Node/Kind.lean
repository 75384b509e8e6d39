import BehaviorTree.Value.Basic

/-!
# Kinds of nodes

The kinds of nodes are fixed. A kind says how many children a node takes, which fields configure
it, which outputs it has, and whether its inputs are fields or assignments of variables.
-/

namespace BehaviorTree

/-- The operations that are left to remote services. -/
inductive RemoteOperation where
  | grpc
  | navigateTo
  | navigateRoute
  | localize
  | robotCommand
  | dock
  | power
  | dataAcquisition
  | prompt
  | ptz
deriving DecidableEq, Inhabited

namespace RemoteOperation

def all : List RemoteOperation :=
  [grpc, navigateTo, navigateRoute, localize, robotCommand, dock, power, dataAcquisition, prompt,
    ptz]

/-- The name of the nodes that ask for an operation. -/
def nodeName : RemoteOperation → String
  | grpc => "RemoteGrpc"
  | navigateTo => "NavigateTo"
  | navigateRoute => "NavigateRoute"
  | localize => "Localize"
  | robotCommand => "RobotCommand"
  | dock => "Dock"
  | power => "PowerCommand"
  | dataAcquisition => "DataAcquisition"
  | prompt => "Prompt"
  | ptz => "Ptz"

/-- The service that is asked unless a node names another one. -/
def defaultService : RemoteOperation → String
  | grpc => ""
  | navigateTo | navigateRoute | localize => "graph-nav"
  | robotCommand => "robot-command"
  | dock => "docking"
  | power => "power"
  | dataAcquisition => "data-acquisition"
  | prompt => "prompt"
  | ptz => "ptz"

/-- The resources that have to be leased unless a node names others. -/
def defaultLeases : RemoteOperation → List String
  | navigateTo | navigateRoute | robotCommand | dock | power => ["body"]
  | ptz => ["ptz"]
  | grpc | localize | dataAcquisition | prompt => []

end RemoteOperation

inductive NodeKind where
  | sequence
  | selector
  | repeater
  | retrier
  | forDuration
  | simpleParallel
  | condition
  | restartWhenPaused
  | defineBlackboard
  | setBlackboard
  | formatBlackboard
  | dateToBlackboard
  | sleep
  | constantResult
  | reference
  | remote (operation : RemoteOperation)
deriving DecidableEq, Inhabited

/-- How many children a node may have. -/
inductive ChildCount where
  | none
  | one
  /-- A child, and perhaps another one to fall back on. -/
  | oneOrTwo
  | two
  | any
deriving DecidableEq, Inhabited

namespace ChildCount

def accepts (count : ChildCount) (number : Nat) : Bool :=
  match count with
  | none => number == 0
  | one => number == 1
  | oneOrTwo => number == 1 || number == 2
  | two => number == 2
  | any => true

def text : ChildCount → String
  | none => "no"
  | one => "exactly one"
  | oneOrTwo => "one or two"
  | two => "exactly two"
  | any => "any number of"

end ChildCount

namespace NodeKind

def named : List NodeKind :=
  [sequence, selector, repeater, retrier, forDuration, simpleParallel, condition,
    restartWhenPaused, defineBlackboard, setBlackboard, formatBlackboard, dateToBlackboard, sleep,
    constantResult] ++ RemoteOperation.all.map remote

def name : NodeKind → String
  | sequence => "Sequence"
  | selector => "Selector"
  | repeater => "Repeat"
  | retrier => "Retry"
  | forDuration => "ForDuration"
  | simpleParallel => "SimpleParallel"
  | condition => "Condition"
  | restartWhenPaused => "RestartWhenPaused"
  | defineBlackboard => "DefineBlackboard"
  | setBlackboard => "SetBlackboard"
  | formatBlackboard => "FormatBlackboard"
  | dateToBlackboard => "DateToBlackboard"
  | sleep => "Sleep"
  | constantResult => "ConstantResult"
  | reference => "Reference"
  | remote operation => operation.nodeName

/-- The kind with a name, if a source can name it. -/
def ofName? (text : String) : Option NodeKind :=
  named.find? fun kind => kind.name = text

def childCount : NodeKind → ChildCount
  | sequence | selector => .any
  | repeater | retrier | restartWhenPaused | defineBlackboard => .one
  | forDuration => .oneOrTwo
  | simpleParallel => .two
  | condition | setBlackboard | formatBlackboard | dateToBlackboard | sleep | constantResult
  | reference | remote _ => .none

/-- The outputs that a node of a kind may write. -/
def outputs : NodeKind → List String
  | repeater => ["start_counter"]
  | retrier => ["attempt"]
  | forDuration => ["time_remaining"]
  | remote _ => ["response", "feedback"]
  | _ => []

/-- Whether the inputs of a node are assignments of variables instead of fields. -/
def takesAssignments : NodeKind → Bool
  | defineBlackboard | setBlackboard => true
  | _ => false

end NodeKind

end BehaviorTree
