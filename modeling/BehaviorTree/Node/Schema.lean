import BehaviorTree.Node.Kind

/-!
# Fields of nodes

Every kind of node has a fixed list of fields. Most of them hold a value of some kind. An operand
is not a value but stays a reference to one, because the node reads it with a freshness of its
own.
-/

namespace BehaviorTree

inductive FieldKind where
  | value (kind : ValueKind)
  | operand
deriving DecidableEq

/-- A field of a kind of nodes. -/
structure FieldSpec where
  name : String
  kind : FieldKind
  required : Bool
deriving DecidableEq

namespace FieldSpec

def needed (name : String) (kind : ValueKind) : FieldSpec := ⟨name, .value kind, true⟩

def optional (name : String) (kind : ValueKind) : FieldSpec := ⟨name, .value kind, false⟩

def operand (name : String) : FieldSpec := ⟨name, .operand, true⟩

end FieldSpec

open FieldSpec

def commonRemoteFields : List FieldSpec :=
  [optional "service" .string, optional "host" .string, optional "timeout" .float,
    optional "leases" .string]

/-- The fields of which the request of an operation is made. -/
def RemoteOperation.requestFields : RemoteOperation → List FieldSpec
  | grpc => [needed "service" .string, optional "input" .message]
  | navigateTo => [needed "destination_waypoint_id" .string, optional "travel_speed" .float]
  | navigateRoute => [needed "waypoint_ids" .string]
  | localize => [needed "waypoint_id" .string]
  | robotCommand => [needed "command" .string, optional "params" .message]
  | dock => [needed "docking_station_id" .int]
  | power => [needed "request" .string]
  | dataAcquisition => [needed "action_name" .string, optional "capabilities" .string]
  | prompt => [needed "text" .string, optional "options" .string]
  | ptz =>
    [optional "ptz_name" .string, optional "pan" .float, optional "tilt" .float,
      optional "zoom" .float]

/-- The list with a field added, which replaces a field of the same name at its place. -/
def addField (fields : List FieldSpec) (field : FieldSpec) : List FieldSpec :=
  if fields.any (·.name = field.name) then
    fields.map fun other => if other.name = field.name then field else other
  else fields ++ [field]

namespace NodeKind

/-- The fields of a kind of nodes. A request of a remote node may change a common field. -/
def fields : NodeKind → List FieldSpec
  | sequence | selector => [optional "always_restart" .bool]
  | repeater => [needed "max_starts" .int]
  | retrier => [needed "max_attempts" .int]
  | forDuration => [needed "duration" .float]
  | condition =>
    [operand "lhs", operand "rhs", needed "operation" .string,
      optional "handle_staleness" .string, optional "max_age" .float]
  | formatBlackboard => [needed "key" .string, needed "format" .string]
  | dateToBlackboard => [needed "key" .string, optional "format" .string]
  | sleep => [needed "seconds" .float]
  | constantResult => [needed "result" .string]
  | remote operation => operation.requestFields.foldl addField commonRemoteFields
  | simpleParallel | restartWhenPaused | defineBlackboard | setBlackboard | reference => []

def field? (kind : NodeKind) (name : String) : Option FieldSpec :=
  kind.fields.find? (·.name = name)

end NodeKind

end BehaviorTree
