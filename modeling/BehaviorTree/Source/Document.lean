import BehaviorTree.Source.Basic
import BehaviorTree.Source.Error
import BehaviorTree.Yaml.Reader

/-!
# Sources in documents

A document holds a mission under `behavior_tree`, which maps the names of definitions to them. A
definition is a node that may also declare `parameters`; a node has a `type` and may have a
`name`, `ports`, `outputs` and `children`. Whatever else a document holds is not looked at, and
neither are ports, outputs, children and parameters that are not of the expected shape.

An error is the first one in a definition: its parameters come before its node, and in a node its
type, its label, its ports, its outputs and its children follow each other.
-/

namespace BehaviorTree

def Value.ofYaml (yaml : Yaml) : Except SourceError Value :=
  match yaml.toJson? with
  | some content => .ok (ofJson content)
  | none => .error .document

/-- What a port is connected with: a variable, whose path stands under `var`, a parameter, whose
name follows a dollar sign, or else a literal. -/
def Operand.ofYaml (yaml : Yaml) : Except SourceError Operand :=
  match yaml.get? "var", yaml with
  | some (.string target), _ => .ok (.path target)
  | some _, _ => .error (.malformed .path)
  | none, .string text =>
    match text.toList with
    | '$' :: name => .ok (.parameter (String.ofList name))
    | _ => .ok (.constant (.string text))
  | none, yaml => (Value.ofYaml yaml).map .constant

namespace PortSource

/-- A port of a node of a kind that carries values into the node. -/
def inputOfYaml (kind : String) (entry : Yaml × Yaml) : Except SourceError PortSource :=
  match entry.1 with
  | .string name => (Operand.ofYaml entry.2).map (⟨.input, name, ·⟩)
  | _ => .error (.malformed (.portName kind))

/-- A port of a node of a kind that carries values to a variable. -/
def outputOfYaml (kind : String) (entry : Yaml × Yaml) : Except SourceError PortSource :=
  match entry with
  | (.string name, .string path) => .ok ⟨.output, name, .path path⟩
  | _ => .error (.malformed (.output kind))

end PortSource

namespace NodeSource

/-- The kind or definition that a node in a document names. -/
def kindOfYaml (yaml : Yaml) : Except SourceError String :=
  match yaml.get? "type" with
  | some (.string kind) => .ok kind
  | _ => .error (.malformed .nodeKind)

/-- The label of a node of a kind in a document. -/
def labelOfYaml (kind : String) (yaml : Yaml) : Except SourceError (Option String) :=
  match yaml.get? "name" with
  | none => .ok none
  | some (.string label) => .ok (some label)
  | some _ => .error (.malformed (.nodeLabel kind))

/-- A node with the nodes in it. The ports that carry values into a node come before those that
carry values out of it. -/
def ofYaml (yaml : Yaml) : Except SourceError NodeSource := do
  let kind ← kindOfYaml yaml
  let label ← labelOfYaml kind yaml
  let inputs ← (yaml.entriesUnder "ports").mapM (PortSource.inputOfYaml kind)
  let outputs ← (yaml.entriesUnder "outputs").mapM (PortSource.outputOfYaml kind)
  let children ← (yaml.itemsUnder "children").attach.mapM fun child => ofYaml child.1
  return .node kind label (inputs ++ outputs) children
termination_by sizeOf yaml
decreasing_by exact Yaml.sizeOf_lt_of_mem_itemsUnder child.2

end NodeSource

/-- A declared parameter. A declaration is the kind of the values, or a mapping with the kind
under `type` and perhaps a value under `default`. -/
def ParameterSource.ofYaml (entry : Yaml × Yaml) : Except SourceError ParameterSource :=
  match entry.1, entry.2 with
  | .string name, .string kind => .ok ⟨name, kind, none⟩
  | .string name, declaration =>
    match declaration.get? "type", declaration.get? "default" with
    | some (.string kind), some default =>
      (Value.ofYaml default).map fun default => ⟨name, kind, some default⟩
    | some (.string kind), none => .ok ⟨name, kind, none⟩
    | _, _ => .error (.malformed (.parameterKind name))
  | _, _ => .error (.malformed .parameterName)

def TreeSource.ofYaml (entry : Yaml × Yaml) : Except SourceError TreeSource :=
  match entry.1 with
  | .string name => do
    let parameters ← (entry.2.entriesUnder "parameters").mapM ParameterSource.ofYaml
    let root ← NodeSource.ofYaml entry.2
    return ⟨name, parameters, root⟩
  | _ => .error (.malformed .treeName)

namespace MissionSource

def ofYaml (yaml : Yaml) : Except SourceError MissionSource :=
  match yaml.get? "behavior_tree" with
  | some (.mapping entries) => (entries.mapM TreeSource.ofYaml).map fun trees => ⟨trees⟩
  | _ => .error (.malformed .noTrees)

/-- The mission that the document in a whole text describes. -/
def ofYamlText (text : String) : Except SourceError MissionSource :=
  match Yaml.ofText? text with
  | some yaml => ofYaml yaml
  | none => .error .document

end MissionSource

end BehaviorTree
