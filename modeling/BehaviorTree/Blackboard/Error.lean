import BehaviorTree.Duration
import BehaviorTree.Text.Quoted
import BehaviorTree.Value.Basic

/-!
# Errors of the blackboard

The causes for which a variable cannot be read or written, and a template not be rendered.
-/

namespace BehaviorTree

/-- Why an operation on the blackboard has no result. -/
inductive BlackboardError where
  | notFound (name : String)
  | duplicateDefinition (name : String)
  /-- A write needs a variable that some enclosing scope defines. -/
  | undefinedVariable (name : String)
  | staleValue (name : String) (age maxAge : Duration)
  | invalidPath (name segment : String)
  /-- A placeholder asks for a number, but the value is none. -/
  | typeMismatch (name : String) (found : ValueKind)
  | malformedFormat (format : String)
  | scopeGone

/-- A name for the cause of an error, by which programs tell errors apart. -/
def BlackboardError.code : BlackboardError → String
  | notFound _ => "NotFound"
  | duplicateDefinition _ => "DuplicateDefinition"
  | undefinedVariable _ => "UndefinedVariable"
  | staleValue _ _ _ => "StaleValue"
  | invalidPath _ _ => "InvalidPath"
  | typeMismatch _ _ => "TypeMismatch"
  | malformedFormat _ => "MalformedFormat"
  | scopeGone => "ScopeGone"

def BlackboardError.message : BlackboardError → String
  | notFound name => s!"Variable {quoted name} is not defined in any enclosing scope"
  | duplicateDefinition name => s!"Variable {quoted name} is already defined in this scope"
  | undefinedVariable name => s!"Cannot write to undefined variable {quoted name}"
  | staleValue name age maxAge =>
    s!"Variable {quoted name} is stale: written {age.text} ago, max age {maxAge.text}"
  | invalidPath name segment => s!"Variable {quoted name} has no field {quoted segment}"
  | typeMismatch name found =>
    s!"Variable {quoted name} holds a {found.text}, which cannot be used as a number"
  | malformedFormat format => s!"Malformed format string {quoted format}"
  | scopeGone => "Blackboard scope was already torn down"

end BehaviorTree
