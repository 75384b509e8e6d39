import BehaviorTree.Text.Quoted

/-!
# Errors of sources

The causes for which a text is no mission source. Text in the tree notation fails at a place,
which is shown by its line and by what stands there. A document fails because it is no document
or because a part of a mission is missing in it or has the wrong shape.
-/

namespace BehaviorTree

structure TextPlace where
  line : Nat
  near : String

namespace TextPlace

/-- The place in a text at which some rest of it begins. -/
def ofRest (text rest : List Char) : TextPlace :=
  ⟨((text.take (text.length - rest.length)).filter (· = '\n')).length + 1,
    String.ofList (rest.take 24)⟩

def text (place : TextPlace) : String :=
  s!"line {place.line}, near {quoted place.near}"

end TextPlace

/-- Which part of a document has the wrong shape for a mission. -/
inductive DocumentFault where
  | noTrees
  | treeName
  | parameterName
  | parameterKind (name : String)
  | nodeKind
  | nodeLabel (kind : String)
  | portName (kind : String)
  /-- An output does not lead from a name to a variable. -/
  | output (kind : String)
  | path

def DocumentFault.text : DocumentFault → String
  | noTrees => "missing `behavior_tree` mapping"
  | treeName => "tree names must be strings"
  | parameterName => "parameter names must be strings"
  | parameterKind name => s!"parameter {name} has no type"
  | nodeKind => "node without a `type`"
  | nodeLabel kind => s!"name of {kind} must be a string"
  | portName kind => s!"port names of {kind} must be strings"
  | output kind => s!"outputs of {kind} must map names to variables"
  | path => "`var` must be a string"

/-- Why a text is no mission source. -/
inductive SourceError where
  | unexpectedInput (place : TextPlace)
  /-- An output is connected with something other than a variable. -/
  | outputWithoutVariable (place : TextPlace)
  | malformed (fault : DocumentFault)
  /-- The text is no document, or a literal in it is no value. -/
  | document

/-- A name for the cause of an error, by which programs tell errors apart. -/
def SourceError.code : SourceError → String
  | unexpectedInput _ | outputWithoutVariable _ | malformed _ => "Parse"
  | document => "Yaml"

def SourceError.message : SourceError → String
  | unexpectedInput place => s!"Parse error: unexpected input at {place.text}"
  | outputWithoutVariable place => s!"Parse error: Verify at {place.text}"
  | malformed fault => s!"Parse error: malformed YAML mission: {fault.text}"
  | document => "Malformed document"

end BehaviorTree
