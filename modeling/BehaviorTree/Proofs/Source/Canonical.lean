import BehaviorTree.Source.Text

/-!
# Canonical texts of missions

The canonical text of a mission has one definition per line, one blank between the parts of a node
and one child per line, and leaves out whatever is absent. It exists for missions of which every
name is an identifier and every text can stand between quotes.
-/

namespace BehaviorTree

def IsIdentifier (name : String) : Prop :=
  ∃ first rest, name.toList = first :: rest ∧ startsIdentifier first = true ∧
    ∀ character ∈ rest, continuesIdentifier character = true

theorem isIdentifier_iff {name : String} : IsIdentifier name ↔
    name.toList.head?.any startsIdentifier = true ∧
      name.toList.tail.all continuesIdentifier = true := by
  unfold IsIdentifier
  rw [List.all_eq_true]
  cases name.toList with
  | nil => simp
  | cons first rest =>
    refine ⟨?_, fun ⟨starts, continues⟩ => ⟨first, rest, rfl, starts, continues⟩⟩
    rintro ⟨_, _, ⟨⟩, starts, continues⟩
    exact ⟨starts, continues⟩

instance (name : String) : Decidable (IsIdentifier name) :=
  decidable_of_iff _ isIdentifier_iff.symm

/-- A text that can stand between quotes as it is. -/
def IsPlainText (text : String) : Prop :=
  ∀ character ∈ text.toList, character ≠ '"' ∧ character ≠ '\\'

theorem isPlainText_iff {text : String} : IsPlainText text ↔
    text.toList.all (fun character => character ≠ '"' && character ≠ '\\') = true := by
  simp [IsPlainText]

instance (text : String) : Decidable (IsPlainText text) :=
  decidable_of_iff _ isPlainText_iff.symm

/-- The path of a variable or of a field in it, which does not start like a literal. -/
def IsVariablePath (path : String) : Prop :=
  ∃ (name : String) (segments : List (List Char)),
    IsIdentifier name ∧ name ≠ "true" ∧ name ≠ "false" ∧
    (∀ segment ∈ segments, segment ≠ [] ∧ segment.all isWordCharacter = true) ∧
    path.toList = name.toList ++ segments.flatMap ('.' :: ·)

/-- A value that can be written as a literal. -/
def Value.IsWritable : Value → Prop
  | .bool _ | .int _ => True
  | .string text => IsPlainText text
  | .float _ | .message _ => False

def Operand.IsWritable : Operand → Prop
  | .constant value => value.IsWritable
  | .parameter name => IsIdentifier name
  | .path place => IsVariablePath place

structure PortSource.IsWritable (port : PortSource) : Prop where
  name : IsIdentifier port.name
  operand : port.operand.IsWritable
  /-- Outputs lead to variables. -/
  output : port.direction = .output → ∃ path, port.operand = .path path

/-- A node that can be written, with all nodes in it. -/
inductive NodeSource.IsWritable : NodeSource → Prop where
  | node {kind : String} {label : Option String} {ports : List PortSource}
      {children : List NodeSource} (named : IsIdentifier kind)
      (labelled : ∀ text, label = some text → IsPlainText text)
      (connected : ∀ port ∈ ports, port.IsWritable)
      (deeper : ∀ child ∈ children, child.IsWritable) :
      (NodeSource.node kind label ports children).IsWritable

structure ParameterSource.IsWritable (parameter : ParameterSource) : Prop where
  name : IsIdentifier parameter.name
  kind : IsIdentifier parameter.kind
  default : ∀ value, parameter.default = some value → value.IsWritable

structure TreeSource.IsWritable (tree : TreeSource) : Prop where
  name : IsIdentifier tree.name
  parameters : ∀ parameter ∈ tree.parameters, parameter.IsWritable
  root : tree.root.IsWritable

def MissionSource.IsWritable (mission : MissionSource) : Prop :=
  ∀ tree ∈ mission.trees, tree.IsWritable

def writeQuoted (text : String) : List Char := '"' :: text.toList ++ ['"']

def Value.write : Value → List Char
  | .string text => writeQuoted text
  | value => value.text.toList

def Operand.write : Operand → List Char
  | .constant value => value.write
  | .parameter name => '$' :: name.toList
  | .path place => place.toList

def PortDirection.write : PortDirection → List Char
  | .input => [' ', '<', '-', ' ']
  | .output => [' ', '-', '>', ' ']

def PortSource.write (port : PortSource) : List Char :=
  port.name.toList ++ port.direction.write ++ port.operand.write

/-- A list of parts in parentheses, which is left out if there are none. -/
def writeList (parts : List (List Char)) : List Char :=
  match parts with
  | [] => []
  | _ => '(' :: List.intercalate [',', ' '] parts ++ [')']

/-- A part after a blank, or nothing. -/
def afterBlank : List Char → List Char
  | [] => []
  | part => ' ' :: part

/-- Lines between braces, which are left out if there are no lines. -/
def writeBlock : List Char → List Char
  | [] => []
  | lines => [' ', '\x7b'] ++ lines ++ ['\n', '\x7d']

mutual

def NodeSource.write : NodeSource → List Char
  | .node kind label ports children =>
    kind.toList ++ afterBlank ((label.map writeQuoted).getD []) ++
      afterBlank (writeList (ports.map PortSource.write)) ++ writeBlock (writeLines children)

def writeLines : List NodeSource → List Char
  | [] => []
  | child :: rest => '\n' :: child.write ++ writeLines rest

end

def writeDefault : Option Value → List Char
  | some value => [' ', '=', ' '] ++ value.write
  | none => []

def ParameterSource.write (parameter : ParameterSource) : List Char :=
  parameter.name.toList ++ [':', ' '] ++ parameter.kind.toList ++ writeDefault parameter.default

def TreeSource.write (tree : TreeSource) : List Char :=
  ['t', 'r', 'e', 'e', ' '] ++ tree.name.toList ++
    writeList (tree.parameters.map ParameterSource.write) ++ [' ', '=', ' '] ++ tree.root.write

/-- The canonical text of a mission. -/
def MissionSource.write (mission : MissionSource) : String :=
  String.ofList (List.intercalate ['\n'] (mission.trees.map TreeSource.write))

end BehaviorTree
