import BehaviorTree.Tree.Basic
import BehaviorTree.Tree.Recursion

/-!
# Layout of trees

A mission source is laid out as a table of nodes, one definition after the other, in which the
children of a node stand before it. The ports of a node are sorted into its fields, overrides,
outputs, assignments and arguments on the way, and everything about them is checked.
-/

namespace BehaviorTree

def coerceLiteral (node field : String) (literal : Value) (kind : ValueKind) :
    Except LoadError Value :=
  match literal.coerce? kind with
  | some value => .ok value
  | none => .error (.invalidLiteral node field kind literal.text)

def ParameterSource.declare (tree : String) (source : ParameterSource) :
    Except LoadError Parameter := do
  let some kind := ValueKind.ofText? source.kind
    | throw (.unknownParameterKind tree source.name source.kind)
  match source.default with
  | some literal =>
    return ⟨source.name, kind, some (← coerceLiteral tree source.name literal kind)⟩
  | none => return ⟨source.name, kind, none⟩

/-- The parameters of all definitions, whose names have to be different. -/
def MissionSource.declarations (mission : MissionSource) :
    Except LoadError (Table String (List Parameter)) :=
  mission.trees.foldlM
    (fun declared tree => do
      if declared.contains tree.name then throw (.duplicateTree tree.name)
      let parameters ← tree.parameters.mapM (ParameterSource.declare tree.name)
      return declared.insert tree.name parameters)
    .empty

/-- What a port may be connected with in a definition: a parameter has to be declared there. -/
def TreeSource.checkOperand (tree : TreeSource) (operand : Operand) : Except LoadError Operand :=
  match operand with
  | .parameter name =>
    if tree.parameters.any (·.name = name) then .ok operand
    else .error (.undeclaredParameter tree.name name)
  | _ => .ok operand

/-- The ports of a node, sorted by what they are. -/
structure NodePorts where
  fields : FieldTable
  overrides : List Override
  outputs : Table String String
  assignments : List Assignment

namespace NodePorts

def empty : NodePorts := ⟨.empty, [], .empty, []⟩

/-- Adds an output, which has to be one of the kind. -/
def addOutput (ports : NodePorts) (kind : NodeKind) (node : String) (port : PortSource) :
    Except LoadError NodePorts :=
  match port.operand with
  | .path path =>
    if port.name ∈ kind.outputs then
      .ok { ports with outputs := ports.outputs.insert port.name path }
    else .error (.unknownOutput node port.name)
  | _ => .error (.literalOutput node)

/-- Adds a field, which has to be one of the kind. Literals have to be of the right kind. The
leases of a node have to be known before it runs. -/
def addField (ports : NodePorts) (kind : NodeKind) (node name : String) (operand : Operand) :
    Except LoadError NodePorts :=
  match kind.field? name with
  | none => .error (.unknownField node name)
  | some field =>
    match field.kind, operand with
    | .operand, operand => .ok { ports with fields := ports.fields.insert name operand }
    | .value expected, .constant literal => do
      let value ← coerceLiteral node name literal expected
      return { ports with fields := ports.fields.insert name (.constant value) }
    | .value _, operand =>
      if name = "leases" then .error (.staticField node name)
      else .ok { ports with overrides := ports.overrides ++ [⟨name, operand⟩] }

def add (tree : TreeSource) (kind : NodeKind) (node : String) (ports : NodePorts)
    (port : PortSource) : Except LoadError NodePorts := do
  match port.direction with
  | .output => ports.addOutput kind node port
  | .input =>
    let operand ← tree.checkOperand port.operand
    if kind.takesAssignments then
      return { ports with assignments := ports.assignments ++ [⟨port.name, operand⟩] }
    else ports.addField kind node port.name operand

/-- Whether a field is given, now or on every tick. -/
def gives (ports : NodePorts) (name : String) : Bool :=
  ports.fields.contains name || ports.overrides.any (·.field = name)

end NodePorts

/-- A node of a kind, with its children. The configuration is left open if it fails and there are
overrides to complete it. -/
def layoutNode (tree : TreeSource) (kind : NodeKind) (source : NodeSource)
    (children : List NodeIndex) : Except (Failure LoadError) Node := do
  if !kind.childCount.accepts children.length then
    throw (.error (.childCount source.title kind.childCount children.length))
  let ports ← (source.ports.foldlM (NodePorts.add tree kind source.title) .empty).mapError .error
  let missing := kind.fields.find? fun field => field.required && !ports.gives field.name
  if let some field := missing then
    throw (.error (.missingField source.title field.name))
  let configuration ← match kind.configure ports.fields with
    | .ok configuration => pure (some configuration)
    | .error (.crash cause) => throw (.crash cause)
    | .error (.error cause) =>
      if ports.overrides.isEmpty then throw (.error (.invalid source.title cause)) else pure none
  return {
    name := source.label
    definition := none
    kind := kind
    configuration := configuration
    fields := ports.fields
    children := children
    parameters := []
    arguments := []
    overrides := ports.overrides
    outputs := ports.outputs
    assignments := ports.assignments }

def layoutArgument (tree : TreeSource) (parameters : List Parameter) (node : String)
    (port : PortSource) : Except LoadError Argument := do
  match port.direction with
  | .output => throw (.unknownOutput node port.name)
  | .input =>
    let some parameter := parameters.find? (·.name = port.name)
      | throw (.unknownParameter node port.name)
    match ← tree.checkOperand port.operand with
    | .constant literal =>
      let value ← coerceLiteral node parameter.name literal parameter.kind
      return ⟨parameter.name, .constant value⟩
    | operand => return ⟨parameter.name, operand⟩

/-- A node that refers to a definition with the given parameters. -/
def layoutReference (tree : TreeSource) (parameters : List Parameter) (source : NodeSource)
    (children : List NodeIndex) : Except LoadError Node := do
  if !children.isEmpty then
    throw (.childCount source.title .none children.length)
  let arguments ← source.ports.mapM (layoutArgument tree parameters source.title)
  let missing := parameters.find? fun parameter =>
    parameter.default.isNone && !arguments.any (·.name = parameter.name)
  if let some parameter := missing then
    throw (.missingParameter source.title parameter.name)
  return {
    name := source.label
    definition := none
    kind := .reference
    configuration := some (.reference source.kind)
    fields := .empty
    children := children
    parameters := []
    arguments := arguments
    overrides := []
    outputs := .empty
    assignments := [] }

mutual

/-- Adds a node and everything in it to the nodes of a tree. -/
def layout (declared : Table String (List Parameter)) (tree : TreeSource) (nodes : Array Node) :
    NodeSource → Except (Failure LoadError) (NodeIndex × Array Node)
  | source@(.node kindName _ _ childSources) => do
    let (children, nodes) ← layoutAll declared tree nodes childSources
    match NodeKind.ofName? kindName, declared.get? kindName with
    | some kind, _ =>
      let node ← layoutNode tree kind source children
      return (nodes.size, nodes.push node)
    | none, some parameters =>
      let node ← (layoutReference tree parameters source children).mapError .error
      return (nodes.size, nodes.push node)
    | none, none => throw (.error (.missingNode kindName))

/-- Adds nodes and everything in them to the nodes of a tree. -/
def layoutAll (declared : Table String (List Parameter)) (tree : TreeSource)
    (nodes : Array Node) :
    List NodeSource → Except (Failure LoadError) (List NodeIndex × Array Node)
  | [] => .ok ([], nodes)
  | source :: sources => do
    let (index, nodes) ← layout declared tree nodes source
    let (indices, nodes) ← layoutAll declared tree nodes sources
    return (index :: indices, nodes)

end

/-- Adds a definition to the nodes of a tree. Its root knows what it is the root of. -/
def layoutTree (declared : Table String (List Parameter))
    (state : Array Node × Table String NodeIndex) (tree : TreeSource) :
    Except (Failure LoadError) (Array Node × Table String NodeIndex) := do
  let (root, nodes) ← layout declared tree state.1 tree.root
  let parameters := (declared.get? tree.name).getD []
  let nodes := nodes.modify root fun node =>
    { node with definition := some tree.name, parameters := parameters }
  return (nodes, state.2.insert tree.name root)

namespace Tree

def ofSource (mission : MissionSource) : Except (Failure LoadError) Tree := do
  let declared ← mission.declarations.mapError .error
  if !declared.contains "main" then throw (.error .missingTree)
  let (nodes, roots) ← mission.trees.foldlM (layoutTree declared) (#[], .empty)
  let _ ← mission.checkRecursion.mapError .error
  match roots.get? "main" with
  | some main => return ⟨nodes, roots, main⟩
  | none => throw (.error .missingTree)

end Tree

end BehaviorTree
