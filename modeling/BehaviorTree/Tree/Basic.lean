import BehaviorTree.Node.Configuration

/-!
# Trees

A tree is a table of nodes that refer to their children by position. Every named definition of a
mission is stored once, and reference nodes find it by its name when they run.
-/

namespace BehaviorTree

/-- A parameter that a definition declares. -/
structure Parameter where
  name : String
  kind : ValueKind
  /-- The value without an argument; a parameter that has none needs an argument. -/
  default : Option Value

/-- The value that a reference passes for a parameter. -/
structure Argument where
  name : String
  source : Operand

/-- A field whose value is only known when the node runs. -/
structure Override where
  field : String
  source : Operand

structure Assignment where
  name : String
  source : Operand

structure Node where
  name : Option String
  /-- The name of the definition of which the node is the root. -/
  definition : Option String
  kind : NodeKind
  configuration : Option Configuration
  fields : FieldTable
  children : List NodeIndex
  /-- The parameters of the definition of which the node is the root. -/
  parameters : List Parameter
  arguments : List Argument
  overrides : List Override
  outputs : Table String String
  assignments : List Assignment
deriving Inhabited

namespace Node

/-- What a node is called in reports: its label, or what it refers to, or its kind. -/
def label (node : Node) : String :=
  match node.name, node.configuration with
  | some name, _ => name
  | none, some (.reference target) => target
  | none, _ => node.kind.name

/-- The resources that have to be leased for a node. Overrides do not change them. -/
def leaseResources (node : Node) : List String :=
  match node.kind with
  | .remote operation =>
    match node.fields.get? "leases" with
    | some (.constant list) => splitLeases list.text
    | _ => operation.defaultLeases
  | _ => []

end Node

structure Tree where
  nodes : Array Node
  roots : Table String NodeIndex
  main : NodeIndex
deriving Inhabited

namespace Tree

def node? (tree : Tree) (index : NodeIndex) : Option Node := tree.nodes[index]?

def lookup (tree : Tree) (name : String) : Option NodeIndex := tree.roots.get? name

/-- The resources that some node of the tree needs, in increasing order. -/
def leaseResources (tree : Tree) : List String :=
  sortedNames (tree.nodes.toList.flatMap Node.leaseResources)

end Tree

end BehaviorTree
