import BehaviorTree.Blackboard.Error

/-!
# Errors of bindings

The causes for which a node has no configuration: a value that it needs cannot be had, or is not
one that the field takes.
-/

namespace BehaviorTree

/-- Why a field or a parameter has no value that can be used. -/
inductive BindingError where
  | blackboard (cause : BlackboardError)
  | unboundParameter (name : String)
  | typeMismatch (field : String) (expected found : ValueKind)
  | missingField (name : String)
  | invalidValue (field value : String)
  | incomparable (left right : ValueKind)

/-- A name for the cause of an error, by which programs tell errors apart. -/
def BindingError.code : BindingError → String
  | blackboard cause => "Blackboard." ++ cause.code
  | unboundParameter _ => "UnboundParameter"
  | typeMismatch _ _ _ => "TypeMismatch"
  | missingField _ => "MissingField"
  | invalidValue _ _ => "InvalidValue"
  | incomparable _ _ => "Incomparable"

def BindingError.message : BindingError → String
  | blackboard cause => cause.message
  | unboundParameter name => s!"Parameter {quoted name} is not bound in this invocation"
  | typeMismatch field expected found =>
    s!"Field {quoted field} expects {expected.text}, got {found.text}"
  | missingField name => s!"Field {quoted name} is required but has no value"
  | invalidValue field value => s!"Field {quoted field} has invalid value {quoted value}"
  | incomparable left right => s!"Cannot compare {left.text} with {right.text}"

end BehaviorTree
