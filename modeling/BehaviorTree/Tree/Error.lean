import BehaviorTree.Node.BindingError
import BehaviorTree.Node.Kind
import BehaviorTree.Source.Error

/-!
# Errors of loading

The causes for which a mission source has no tree. Everything that can be checked without a
blackboard is checked when a mission is loaded.
-/

namespace BehaviorTree

/-- Why a source has no tree. -/
inductive LoadError where
  | source (cause : SourceError)
  | missingTree
  | duplicateTree (name : String)
  | missingNode (name : String)
  | infiniteRecursion (tree : String)
  /-- A node has a field that its kind does not have. -/
  | unknownField (node field : String)
  | missingField (node field : String)
  /-- A literal is not of the kind that is expected. -/
  | invalidLiteral (node field : String) (expected : ValueKind) (literal : String)
  | invalid (node : String) (cause : BindingError)
  /-- A node has an output that its kind does not have. -/
  | unknownOutput (node port : String)
  | staticField (node field : String)
  /-- An output is connected with something other than a variable. -/
  | literalOutput (node : String)
  /-- A definition uses a parameter that it does not declare. -/
  | undeclaredParameter (tree parameter : String)
  /-- A reference passes a parameter that the definition does not declare. -/
  | unknownParameter (node parameter : String)
  /-- A reference does not pass a parameter that has no default. -/
  | missingParameter (node parameter : String)
  | unknownParameterKind (tree parameter kind : String)
  | childCount (node : String) (expected : ChildCount) (found : Nat)

/-- A name for the cause of an error, by which programs tell errors apart. -/
def LoadError.code : LoadError → String
  | source cause => cause.code
  | missingTree => "MissingTree"
  | duplicateTree _ => "DuplicateTree"
  | missingNode _ => "MissingNode"
  | infiniteRecursion _ => "InfiniteRecursion"
  | unknownField _ _ => "UnknownField"
  | missingField _ _ => "MissingField"
  | invalidLiteral _ _ _ _ => "InvalidLiteral"
  | invalid _ _ => "Invalid"
  | unknownOutput _ _ => "UnknownOutput"
  | staticField _ _ => "StaticField"
  | literalOutput _ => "LiteralOutput"
  | undeclaredParameter _ _ => "UndeclaredParameter"
  | unknownParameter _ _ => "UnknownParameter"
  | missingParameter _ _ => "MissingParameter"
  | unknownParameterKind _ _ _ => "UnknownParameterType"
  | childCount _ _ _ => "ChildCount"

def LoadError.message : LoadError → String
  | source cause => cause.message
  | missingTree => "The main tree does not exist"
  | duplicateTree name => s!"Tree {quoted name} is defined more than once"
  | missingNode name => s!"Node type or subtree name not found {quoted name}"
  | infiniteRecursion tree => s!"Infinite recursion detected in subtree {quoted tree}"
  | unknownField node field => s!"Node {quoted node} has no field {quoted field}"
  | missingField node field => s!"Node {quoted node} requires field {quoted field}"
  | invalidLiteral node field expected literal =>
    s!"Field {quoted field} of node {quoted node} expects {expected.text}, got {quoted literal}"
  | invalid node cause => s!"Node {quoted node}: {cause.message}"
  | unknownOutput node port => s!"Node {quoted node} has no output port {quoted port}"
  | staticField node field => s!"Field {quoted field} of node {quoted node} must be a literal"
  | literalOutput node => s!"Node {quoted node} cannot write an output to a literal"
  | undeclaredParameter tree parameter =>
    s!"Tree {quoted tree} references undeclared parameter ${parameter}"
  | unknownParameter node parameter =>
    s!"Subtree {quoted node} has no parameter {quoted parameter}"
  | missingParameter node parameter =>
    s!"Subtree {quoted node} requires parameter {quoted parameter}"
  | unknownParameterKind tree parameter kind =>
    s!"Parameter {quoted parameter} of {quoted tree} has unknown type {quoted kind}"
  | childCount node expected found =>
    s!"Node {quoted node} takes {expected.text} children, got {found}"

end BehaviorTree
