import BehaviorTree.Blackboard.Basic
import BehaviorTree.Failure
import BehaviorTree.Node.BindingError
import BehaviorTree.Node.Schema
import BehaviorTree.Status
import BehaviorTree.Value.Comparison

/-!
# Configurations of nodes

A node is configured from a table of fields. Every field that holds a value has to be a constant
by then; only the operands of a condition may still refer to variables and parameters. Fields are
checked in a fixed order, and the first one that is missing or does not fit decides the error.
-/

namespace BehaviorTree

inductive Operand where
  | constant (value : Value)
  /-- A parameter of the tree that the node belongs to. -/
  | parameter (name : String)
  | path (path : String)
deriving Inhabited

abbrev FieldTable := Table String Operand

/-- What a condition compares, and how. -/
structure ConditionConfiguration where
  left : Operand
  right : Operand
  comparison : Comparison
  freshness : Freshness

/-- What a remote node asks for. -/
structure RemoteConfiguration where
  operation : RemoteOperation
  service : String
  host : String
  /-- The time after which a single request is given up. -/
  timeout : Option Duration
  leases : List String
  request : Json

/-- The typed configuration of a node. -/
inductive Configuration where
  /-- Whether a sequence starts with its first child on every tick. -/
  | sequence (alwaysRestart : Bool)
  /-- Whether a selector starts with its first child on every tick. -/
  | selector (alwaysRestart : Bool)
  /-- How often the child is started; a negative number is no limit. -/
  | repeater (maxStarts : Int64)
  | retrier (maxAttempts : Int64)
  | forDuration (duration : Duration)
  | simpleParallel
  | condition (condition : ConditionConfiguration)
  | restartWhenPaused
  | defineBlackboard
  | setBlackboard
  | formatBlackboard (key format : String)
  /-- The variable that gets the date, and the form of the date. -/
  | dateToBlackboard (key : String) (format : Option String)
  | sleep (duration : Duration)
  | constantResult (status : Status)
  | reference (target : String)
  | remote (remote : RemoteConfiguration)

/-- The names in a list that is separated by commas. -/
def splitLeases (list : String) : List String :=
  ((splitAt ',' list).map trimWhiteSpace).filter (· ≠ "")

/-- The value as one of a kind that a field or parameter takes. -/
def coerceFor (name : String) (value : Value) (kind : ValueKind) : Except BindingError Value :=
  match value.coerce? kind with
  | some value => .ok value
  | none => .error (.typeMismatch name kind value.kind)

namespace FieldTable

def constant? (fields : FieldTable) (name : String) (kind : ValueKind) :
    Except BindingError (Option Value) :=
  match fields.get? name with
  | none => .ok none
  | some (.constant value) => (coerceFor name value kind).map some
  | some _ => .error (.missingField name)

/-- The value of a field that has to have one. -/
def required {α : Type} (name : String) (value : Option α) : Except BindingError α :=
  match value with
  | some value => .ok value
  | none => .error (.missingField name)

def text? (fields : FieldTable) (name : String) : Except BindingError (Option String) :=
  (fields.constant? name .string).map fun value => value.map Value.text

/-- The text of a field that has to have one. -/
def text (fields : FieldTable) (name : String) : Except BindingError String :=
  fields.text? name >>= required name

/-- The integer of a field that has to have one. -/
def int (fields : FieldTable) (name : String) : Except BindingError Int64 := do
  let value ← fields.constant? name .int
  required name (value.bind Value.asInt?)

/-- The truth value of a field, which is false if it has none. -/
def flag (fields : FieldTable) (name : String) : Except BindingError Bool := do
  let value ← fields.constant? name .bool
  return (value.bind Value.asBool?).getD false

def operand (fields : FieldTable) (name : String) : Except BindingError Operand :=
  required name (fields.get? name)

/-- The duration of a number of seconds in a field, which has to be finite and not negative. A
number that is too large crashes. -/
def duration (name : String) (seconds : Binary64) : Except (Failure BindingError) Duration :=
  if seconds.isFinite && (seconds.orderKey ≥ 0) then
    Failure.orCrash .durationOverflow (Duration.ofSeconds? seconds)
  else throw (.error (.invalidValue name (Value.float seconds).text))

def seconds? (fields : FieldTable) (name : String) :
    Except (Failure BindingError) (Option Duration) := do
  let value ← (fields.constant? name .float).mapError .error
  match value.bind Value.asNumber? with
  | some seconds => some <$> duration name seconds
  | none => return none

/-- The duration in a field that has to have one. -/
def seconds (fields : FieldTable) (name : String) : Except (Failure BindingError) Duration := do
  let value ← fields.seconds? name
  (required name value).mapError .error

end FieldTable

open FieldTable

def configureCondition (fields : FieldTable) :
    Except (Failure BindingError) ConditionConfiguration := do
  let operator ← (fields.text "operation").mapError .error
  let some comparison := Comparison.ofText? operator
    | throw (.error (.invalidValue "operation" operator))
  let staleness ← (fields.text? "handle_staleness").mapError .error
  let some policy := (staleness.map StalenessPolicy.ofText?).getD (some .readAnyway)
    | throw (.error (.invalidValue "handle_staleness" (staleness.getD "")))
  let left ← (fields.operand "lhs").mapError .error
  let right ← (fields.operand "rhs").mapError .error
  let maxAge ← fields.seconds? "max_age"
  return ⟨left, right, comparison, ⟨policy, maxAge⟩⟩

/-- The part of a request that a field gives, if it is not the name of the service. -/
def requestMember (fields : FieldTable) (field : FieldSpec) :
    Except BindingError (List (String × Json)) := do
  match field.kind with
  | .operand => return []
  | .value kind =>
    if field.name = "service" then return []
    let value ← fields.constant? field.name kind
    match value with
    | some value => return [(field.name, value.toJson)]
    | none => if field.required then throw (.missingField field.name) else return []

def configureRemote (operation : RemoteOperation) (fields : FieldTable) :
    Except (Failure BindingError) RemoteConfiguration := do
  let service ← (fields.text? "service").mapError .error
  let service := service.getD operation.defaultService
  if service = "" then throw (.error (.missingField "service"))
  let leases ← (fields.text? "leases").mapError .error
  let leases := (leases.map splitLeases).getD operation.defaultLeases
  let members ← (operation.requestFields.mapM (requestMember fields)).mapError .error
  let host ← (fields.text? "host").mapError .error
  let timeout ← fields.seconds? "timeout"
  return ⟨operation, service, host.getD "", timeout, leases, .ofMembers members.flatten⟩

/-- The configuration of a node that its fields describe. A reference has no fields. -/
def NodeKind.configure (kind : NodeKind) (fields : FieldTable) :
    Except (Failure BindingError) Configuration :=
  match kind with
  | sequence => ((fields.flag "always_restart").map .sequence).mapError .error
  | selector => ((fields.flag "always_restart").map .selector).mapError .error
  | repeater => ((fields.int "max_starts").map .repeater).mapError .error
  | retrier => ((fields.int "max_attempts").map .retrier).mapError .error
  | forDuration => (fields.seconds "duration").map .forDuration
  | simpleParallel => .ok .simpleParallel
  | condition => (configureCondition fields).map .condition
  | restartWhenPaused => .ok .restartWhenPaused
  | defineBlackboard => .ok .defineBlackboard
  | setBlackboard => .ok .setBlackboard
  | formatBlackboard => do
    let key ← (fields.text "key").mapError .error
    let format ← (fields.text "format").mapError .error
    return .formatBlackboard key format
  | dateToBlackboard => do
    let key ← (fields.text "key").mapError .error
    let format ← (fields.text? "format").mapError .error
    return .dateToBlackboard key format
  | sleep => (fields.seconds "seconds").map .sleep
  | constantResult => do
    let result ← (fields.text "result").mapError .error
    match Status.ofText? result with
    | some status => return .constantResult status
    | none => throw (.error (.invalidValue "result" result))
  | reference => .error (.error (.missingField "target"))
  | remote operation => (configureRemote operation fields).map .remote

end BehaviorTree
