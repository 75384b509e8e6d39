import BehaviorTree.Node.Configuration

/-!
# Sources of missions

What a mission source says, before anything in it is checked. A source is a list of definitions.
A definition has parameters and a node, and a node has ports and further nodes in it.
-/

namespace BehaviorTree

/-- Which way a port carries values. -/
inductive PortDirection where
  | input
  | output
deriving DecidableEq

/-- A connection of a node with a value or a variable. -/
structure PortSource where
  direction : PortDirection
  name : String
  operand : Operand

/-- A node with the nodes in it. -/
inductive NodeSource where
  /-- A node of a kind or definition, perhaps with a label, with its ports and children. -/
  | node (kind : String) (label : Option String) (ports : List PortSource)
    (children : List NodeSource)
deriving Inhabited

namespace NodeSource

def kind : NodeSource → String
  | node kind _ _ _ => kind

def label : NodeSource → Option String
  | node _ label _ _ => label

def ports : NodeSource → List PortSource
  | node _ _ ports _ => ports

def children : NodeSource → List NodeSource
  | node _ _ _ children => children

/-- What a node is called in errors: its label, or what it names. -/
def title (source : NodeSource) : String :=
  source.label.getD source.kind

end NodeSource

/-- A declared parameter, whose kind may not exist. -/
structure ParameterSource where
  name : String
  kind : String
  default : Option Value

structure TreeSource where
  name : String
  parameters : List ParameterSource
  root : NodeSource

structure MissionSource where
  /-- The definitions in the order in which they are written. -/
  trees : List TreeSource

end BehaviorTree
