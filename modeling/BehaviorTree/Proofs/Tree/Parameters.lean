import BehaviorTree.Proofs.Tree.WellFormed
import Mathlib.Logic.Relation

/-!
# Parameters of definitions

A parameter that a node uses is one of its definition, and a reference passes every parameter of its
target that has no default. The loader checks both for each node on its own. Here they become facts
about bodies: a body is the root of a definition with everything below it, and the root knows all
parameters that are used in it.
-/

namespace BehaviorTree

/-- A node uses a parameter of the definition to which it belongs. -/
inductive Node.Uses (node : Node) (name : String) : Prop where
  | override {change : Override} (listed : change ∈ node.overrides)
      (source : change.source = .parameter name)
  | operand {field : String} (given : node.fields.get? field = some (.parameter name))
  | assignment {assignment : Assignment} (listed : assignment ∈ node.assignments)
      (source : assignment.source = .parameter name)
  | argument {argument : Argument} (listed : argument ∈ node.arguments)
      (source : argument.source = .parameter name)

/-- A condition compares a parameter. -/
def ConditionConfiguration.Compares (condition : ConditionConfiguration) (name : String) : Prop :=
  condition.left = .parameter name ∨ condition.right = .parameter name

namespace TreeSource

variable {tree : TreeSource} {operand checked : Operand} {name : String}

/-- A definition declares a parameter. -/
def Declares (tree : TreeSource) (name : String) : Prop :=
  name ∈ tree.parameters.map ParameterSource.name

/-- Every parameter among operands is declared. -/
def Knows (tree : TreeSource) (operand : Operand) : Prop :=
  ∀ name, operand = .parameter name → tree.Declares name

theorem knows_constant (value : Value) : tree.Knows (.constant value) :=
  fun _ impossible => by cases impossible

theorem checkOperand_eq_ok (accepted : tree.checkOperand operand = .ok checked) :
    checked = operand ∧ tree.Knows operand := by
  cases operand with
  | parameter name =>
    simp only [checkOperand] at accepted
    split at accepted
    · rename_i known
      cases accepted
      refine ⟨rfl, ?_⟩
      rintro _ ⟨⟩
      simpa [Declares] using known
    · cases accepted
  | constant value =>
    cases accepted
    exact ⟨rfl, knows_constant value⟩
  | path path =>
    cases accepted
    exact ⟨rfl, fun _ impossible => by cases impossible⟩

end TreeSource

variable {tree : TreeSource} {declared : Table String (List Parameter)}

/-- Among the ports of a node there are only declared parameters. -/
structure NodePorts.Known (tree : TreeSource) (ports : NodePorts) : Prop where
  fields : ∀ field operand, ports.fields.get? field = some operand → tree.Knows operand
  overrides : ∀ change ∈ ports.overrides, tree.Knows change.source
  assignments : ∀ assignment ∈ ports.assignments, tree.Knows assignment.source

namespace NodePorts

variable {ports after : NodePorts} {kind : NodeKind} {node : String}

theorem known_empty : NodePorts.empty.Known tree := by
  refine ⟨?_, by simp [empty], by simp [empty]⟩
  intro field operand given
  cases given

theorem Known.insert (known : ports.Known tree) {operand : Operand} (knows : tree.Knows operand)
    (field : String) : Known tree { ports with fields := ports.fields.insert field operand } := by
  refine ⟨?_, known.overrides, known.assignments⟩
  intro other operand given
  rw [Table.get?_insert] at given
  split at given
  · cases given
    exact knows
  · exact known.fields other operand given

theorem Known.addField (known : ports.Known tree) {name : String} {operand : Operand}
    (knows : tree.Knows operand) (added : ports.addField kind node name operand = .ok after) :
    after.Known tree := by
  unfold NodePorts.addField at added
  split at added
  · cases added
  · split at added
    · cases added
      exact known.insert knows name
    · rw [bind_eq_ok] at added
      rcases added with ⟨value, -, done⟩
      cases done
      exact known.insert (TreeSource.knows_constant value) name
    · split at added
      · cases added
      · cases added
        refine ⟨known.fields, ?_, known.assignments⟩
        intro change listed
        rcases List.mem_append.1 listed with listed | new
        · exact known.overrides change listed
        · rw [List.mem_singleton.1 new]
          exact knows

theorem Known.add (known : ports.Known tree) {port : PortSource}
    (added : ports.add tree kind node port = .ok after) : after.Known tree := by
  unfold NodePorts.add at added
  split at added
  · unfold addOutput at added
    split at added
    · split at added
      · cases added
        exact ⟨known.fields, known.overrides, known.assignments⟩
      · cases added
    · cases added
  · rw [bind_eq_ok] at added
    rcases added with ⟨operand, accepted, added⟩
    rcases TreeSource.checkOperand_eq_ok accepted with ⟨rfl, knows⟩
    split at added
    · cases added
      refine ⟨known.fields, known.overrides, ?_⟩
      intro assignment listed
      rcases List.mem_append.1 listed with listed | new
      · exact known.assignments assignment listed
      · rw [List.mem_singleton.1 new]
        exact knows
    · exact known.addField knows added

theorem Known.addAll (known : ports.Known tree) {sources : List PortSource}
    (added : sources.foldlM (NodePorts.add tree kind node) ports = .ok after) :
    after.Known tree := by
  induction sources generalizing ports with
  | nil =>
    cases added
    exact known
  | cons port rest ih =>
    rw [List.foldlM_cons, bind_eq_ok] at added
    rcases added with ⟨middle, first, added⟩
    exact ih (known.add first) added

end NodePorts

theorem required_eq_ok {α : Type} {name : String} {value : Option α} {given : α}
    (found : FieldTable.required name value = .ok given) : value = some given := by
  cases value with
  | some value =>
    cases found
    rfl
  | none => cases found

theorem operands_of_configureCondition {fields : FieldTable} {condition : ConditionConfiguration}
    (configured : configureCondition fields = .ok condition) :
    fields.get? "lhs" = some condition.left ∧ fields.get? "rhs" = some condition.right := by
  unfold configureCondition at configured
  simp only [bind_eq_ok, mapError_eq_ok] at configured
  rcases configured with ⟨operator, -, configured⟩
  split at configured
  · simp only [bind_eq_ok, mapError_eq_ok] at configured
    rcases configured with ⟨staleness, -, configured⟩
    split at configured
    · simp only [bind_eq_ok, mapError_eq_ok] at configured
      rcases configured with ⟨left, leftGiven, right, rightGiven, maxAge, -, done⟩
      cases done
      exact ⟨required_eq_ok leftGiven, required_eq_ok rightGiven⟩
    · cases configured
  · cases configured

/-- What a condition compares are fields of its node. -/
theorem given_of_compares {kind : NodeKind} {fields : FieldTable}
    {condition : ConditionConfiguration} {name : String}
    (configured : kind.configure fields = .ok (.condition condition))
    (compares : condition.Compares name) :
    ∃ field, fields.get? field = some (.parameter name) := by
  have isCondition : NodeKind.condition = kind := configure_kind configured
  subst isCondition
  simp only [NodeKind.configure, map_eq_ok] at configured
  rcases configured with ⟨_, configured, same⟩
  cases same
  have operands := operands_of_configureCondition configured
  rcases compares with left | right
  · exact ⟨"lhs", operands.1.trans (congrArg some left)⟩
  · exact ⟨"rhs", operands.2.trans (congrArg some right)⟩

/-- The parameters without a default are passed. -/
def Suffices (arguments : List Argument) (parameters : List Parameter) : Prop :=
  ∀ parameter ∈ parameters, parameter.default = none →
    ∃ argument ∈ arguments, argument.name = parameter.name

/-- What the loader checks about the parameters of a node. -/
structure Node.Checked (declared : Table String (List Parameter)) (tree : TreeSource)
    (node : Node) : Prop where
  uses : ∀ name, node.Uses name → tree.Declares name
  compares : ∀ condition, node.configuration = some (.condition condition) →
    ∀ name, condition.Compares name → node.Uses name
  passes : ∀ target, node.configuration = some (.reference target) →
    ∃ parameters, declared.get? target = some parameters ∧ Suffices node.arguments parameters

theorem checked_layoutNode {kind : NodeKind} {source : NodeSource} {children : List NodeIndex}
    {node : Node} (ordinary : kind ≠ .reference)
    (laid : layoutNode tree kind source children = .ok node) : node.Checked declared tree := by
  have fits := layoutNode_fits ordinary laid
  have passes : ∀ target, node.configuration = some (.reference target) →
      ∃ parameters, declared.get? target = some parameters ∧
        Suffices node.arguments parameters := by
    intro target configured
    have kind := fits.1.kind_eq_reference_iff.2 ⟨target, configured⟩
    exact absurd (fits.2.2 ▸ kind) ordinary
  unfold layoutNode at laid
  split at laid
  · cases laid
  dsimp only at laid
  rw [bind_eq_ok] at laid
  rcases laid with ⟨ports, sorted, laid⟩
  rw [mapError_eq_ok] at sorted
  have known : ports.Known tree := NodePorts.known_empty.addAll sorted
  have uses : ∀ {definition configuration} {parameters : List Parameter} {name : String},
      Node.Uses ⟨source.label, definition, kind, configuration, ports.fields, children, parameters,
        [], ports.overrides, ports.outputs, ports.assignments⟩ name → tree.Declares name := by
    rintro definition configuration parameters name (⟨listed, same⟩ | given | ⟨listed, same⟩ |
      ⟨listed, same⟩)
    · exact known.overrides _ listed name same
    · exact known.fields _ _ given name rfl
    · exact known.assignments _ listed name same
    · cases listed
  split at laid
  · cases laid
  split at laid
  · rename_i configuration configured
    cases laid
    refine ⟨fun name => uses, ?_, passes⟩
    rintro condition ⟨⟩ name compares
    rcases given_of_compares configured compares with ⟨field, given⟩
    exact .operand given
  · cases laid
  · split at laid
    · cases laid
    · cases laid
      refine ⟨fun name => uses, ?_, passes⟩
      rintro condition ⟨⟩

theorem layoutArgument_eq_ok {parameters : List Parameter} {node : String} {port : PortSource}
    {argument : Argument} (laid : layoutArgument tree parameters node port = .ok argument) :
    tree.Knows argument.source := by
  unfold layoutArgument at laid
  split at laid
  · cases laid
  split at laid
  · rw [bind_eq_ok] at laid
    rcases laid with ⟨operand, accepted, laid⟩
    rcases TreeSource.checkOperand_eq_ok accepted with ⟨rfl, knows⟩
    split at laid
    · rw [bind_eq_ok] at laid
      rcases laid with ⟨value, -, done⟩
      cases done
      exact TreeSource.knows_constant value
    · cases laid
      exact knows
  · cases laid

theorem knows_of_mapM_layoutArgument {parameters : List Parameter} {node : String}
    {ports : List PortSource} {arguments : List Argument}
    (laid : ports.mapM (layoutArgument tree parameters node) = .ok arguments) :
    ∀ argument ∈ arguments, tree.Knows argument.source := by
  induction ports generalizing arguments with
  | nil =>
    cases laid
    simp
  | cons port rest ih =>
    simp only [List.mapM_cons, bind_eq_ok] at laid
    rcases laid with ⟨first, laidFirst, others, laidRest, done⟩
    cases done
    rw [List.forall_mem_cons]
    exact ⟨layoutArgument_eq_ok laidFirst, ih laidRest⟩

theorem checked_layoutReference {parameters : List Parameter} {source : NodeSource}
    {children : List NodeIndex} {node : Node} (known : declared.get? source.kind = some parameters)
    (laid : layoutReference tree parameters source children = .ok node) :
    node.Checked declared tree := by
  unfold layoutReference at laid
  split at laid
  · cases laid
  simp only [bind_eq_ok] at laid
  rcases laid with ⟨arguments, laidArguments, laid⟩
  have knows := knows_of_mapM_layoutArgument laidArguments
  split at laid
  · cases laid
  rename_i nothing
  cases laid
  refine ⟨?_, ?_, ?_⟩
  · rintro name (⟨listed, -⟩ | given | ⟨listed, -⟩ | ⟨listed, same⟩)
    · cases listed
    · cases given
    · cases listed
    · exact knows _ listed name same
  · rintro condition ⟨⟩
  · rintro target ⟨⟩
    refine ⟨parameters, known, fun parameter listed required => ?_⟩
    have passed := List.find?_eq_none.1 (Option.eq_none_iff_forall_ne_some.2 nothing) parameter
      listed
    simpa [required] using passed

/-- The loader makes sure that something holds of every node of a definition. -/
structure Ensures (declared : Table String (List Parameter)) (tree : TreeSource)
    (good : Node → Prop) : Prop where
  ordinary : ∀ {kind source children node}, kind ≠ .reference →
    layoutNode tree kind source children = .ok node → good node
  reference : ∀ {parameters source children node}, declared.get? source.kind = some parameters →
    layoutReference tree parameters source children = .ok node → good node

theorem ensures_checked : Ensures declared tree (Node.Checked declared tree) :=
  ⟨checked_layoutNode, checked_layoutReference⟩

mutual

/-- What holds of every node that is laid out holds of everything that is laid out for a source. -/
theorem forall_layout {good : Node → Prop} (ensures : Ensures declared tree good)
    {nodes after : Array Node} {root : NodeIndex} : (source : NodeSource) →
    layout declared tree nodes source = .ok (root, after) →
    ∀ index node, nodes.size ≤ index → after[index]? = some node → good node
  | .node kindName label ports sources, laid => by
    unfold layout at laid
    rw [bind_eq_ok] at laid
    rcases laid with ⟨⟨children, inner⟩, laidAll, laid⟩
    have deeper := forall_layoutAll ensures sources laidAll
    have last : ∀ {new}, good new → ∀ index node, nodes.size ≤ index →
        (inner.push new)[index]? = some node → good node := by
      intro new isGood index node beyond found
      rw [Array.getElem?_push] at found
      split at found
      · cases found
        exact isGood
      · exact deeper index node beyond found
    simp only at laid
    split at laid
    · rename_i kind _ named
      rw [bind_eq_ok] at laid
      rcases laid with ⟨node, laidNode, done⟩
      cases done
      exact last (ensures.ordinary (ofName?_ne_reference named) laidNode)
    · rename_i parameters unnamed known
      simp only [bind_eq_ok, mapError_eq_ok] at laid
      rcases laid with ⟨node, laidNode, done⟩
      cases done
      have isDeclared : declared.get? (NodeSource.node kindName label ports sources).kind =
          some parameters := known
      exact last (ensures.reference isDeclared laidNode)
    · cases laid

theorem forall_layoutAll {good : Node → Prop} (ensures : Ensures declared tree good)
    {nodes after : Array Node} {indices : List NodeIndex} : (sources : List NodeSource) →
    layoutAll declared tree nodes sources = .ok (indices, after) →
    ∀ index node, nodes.size ≤ index → after[index]? = some node → good node
  | [], laid => by
    cases laid
    intro index node beyond found
    have inside := (Array.getElem?_eq_some_iff.1 found).1
    omega
  | source :: sources, laid => by
    unfold layoutAll at laid
    rw [bind_eq_ok] at laid
    rcases laid with ⟨⟨root, middle⟩, laidFirst, laid⟩
    simp only [bind_eq_ok] at laid
    rcases laid with ⟨⟨rest, last⟩, laidRest, done⟩
    cases done
    have first := forall_layout ensures source laidFirst
    have second := forall_layoutAll ensures sources laidRest
    have kept := (laidOut_layoutAll sources laidRest).1.kept
    intro index node beyond found
    by_cases old : index < middle.size
    · rw [kept index old] at found
      exact first index node beyond found
    · exact second index node (Nat.le_of_not_lt old) found

end

/-- The nodes of a definition stand together, and its root comes last of them. -/
structure Block (declared : Table String (List Parameter)) (tree : TreeSource)
    (nodes : Array Node) (first root : NodeIndex) : Prop where
  ordered : first ≤ root
  closed : ∀ index node, first ≤ index → index ≤ root → nodes[index]? = some node →
    ∀ child ∈ node.children, first ≤ child ∧ child ≤ root
  checked : ∀ index node, first ≤ index → index ≤ root → nodes[index]? = some node →
    node.Checked declared tree
  root : ∃ node, nodes[root]? = some node ∧ node.parameters = (declared.get? tree.name).getD []

theorem Block.kept {nodes after : Array Node} {first root : NodeIndex}
    (block : Block declared tree nodes first root)
    (kept : ∀ index, index < nodes.size → after[index]? = nodes[index]?) :
    Block declared tree after first root := by
  rcases block.root with ⟨node, found, parameters⟩
  have inside := (Array.getElem?_eq_some_iff.1 found).1
  have same : ∀ index, index ≤ root → after[index]? = nodes[index]? :=
    fun index within => kept index (Nat.lt_of_le_of_lt within inside)
  refine ⟨block.ordered, fun index node atLeast within found => ?_,
    fun index node atLeast within found => ?_, node, ?_, parameters⟩
  · rw [same index within] at found
    exact block.closed index node atLeast within found
  · rw [same index within] at found
    exact block.checked index node atLeast within found
  · rw [same root (Nat.le_refl _), found]

theorem Node.uses_of_root_iff {node : Node} {definition : Option String}
    {parameters : List Parameter} {name : String} :
    Node.Uses { node with definition := definition, parameters := parameters } name ↔
      node.Uses name := by
  constructor <;> rintro (⟨listed, same⟩ | given | ⟨listed, same⟩ | ⟨listed, same⟩)
  exacts [.override listed same, .operand given, .assignment listed same, .argument listed same,
    .override listed same, .operand given, .assignment listed same, .argument listed same]

theorem Node.Checked.of_root {node : Node} (checked : node.Checked declared tree)
    (definition : Option String) (parameters : List Parameter) :
    Node.Checked declared tree
      { node with definition := definition, parameters := parameters } :=
  ⟨fun name used => checked.uses name (uses_of_root_iff.1 used),
    fun condition configured name compares =>
      uses_of_root_iff.2 (checked.compares condition configured name compares),
    checked.passes⟩

theorem block_layoutTree {nodes after : Array Node} {roots afterRoots : Table String NodeIndex}
    (laid : layoutTree declared (nodes, roots) tree = .ok (after, afterRoots)) :
    (∀ index, index < nodes.size → after[index]? = nodes[index]?) ∧
      ∃ root, Block declared tree after nodes.size root ∧
        afterRoots = roots.insert tree.name root := by
  unfold layoutTree at laid
  rw [bind_eq_ok] at laid
  rcases laid with ⟨⟨root, middle⟩, laidRoot, done⟩
  cases done
  dsimp only at laidRoot
  have ⟨laidOut, atLeast, last⟩ := laidOut_layout tree.root laidRoot
  have checked := forall_layout ensures_checked tree.root laidRoot
  refine ⟨fun index inside => ?_, root, ⟨atLeast, ?_, ?_, ?_⟩, rfl⟩
  · rw [Array.getElem?_modify, if_neg (by omega)]
    exact laidOut.kept index inside
  · intro index node beyond within changed
    rcases exists_of_modify changed with ⟨inner, definition, parameters, found, rfl⟩
    intro child listed
    have range := (laidOut.placed index inner beyond found).children child listed
    exact ⟨range.1, Nat.le_of_lt (Nat.lt_of_lt_of_le range.2 within)⟩
  · intro index node beyond within changed
    rcases exists_of_modify changed with ⟨inner, definition, parameters, found, rfl⟩
    exact (checked index inner beyond found).of_root definition parameters
  · have inside : root < middle.size := Nat.lt_of_lt_of_eq (Nat.lt_succ_self root) last
    refine ⟨{ middle[root] with
      definition := some tree.name
      parameters := (declared.get? tree.name).getD [] }, ?_, rfl⟩
    rw [Array.getElem?_modify, if_pos rfl, Array.getElem?_eq_getElem inside]
    rfl

/-- Every definition has a block of its own. -/
theorem blocks_foldlM {mission : MissionSource} {trees : List TreeSource}
    {nodes after : Array Node} {roots afterRoots : Table String NodeIndex}
    (included : ∀ tree ∈ trees, tree ∈ mission.trees)
    (blocks : ∀ name root, roots.get? name = some root → ∃ tree ∈ mission.trees,
      tree.name = name ∧ ∃ first, Block declared tree nodes first root)
    (laid : trees.foldlM (layoutTree declared) (nodes, roots) = .ok (after, afterRoots)) :
    ∀ name root, afterRoots.get? name = some root → ∃ tree ∈ mission.trees,
      tree.name = name ∧ ∃ first, Block declared tree after first root := by
  induction trees generalizing nodes roots with
  | nil =>
    cases laid
    exact blocks
  | cons tree rest ih =>
    rw [List.foldlM_cons, bind_eq_ok] at laid
    rcases laid with ⟨⟨middle, middleRoots⟩, laidTree, laid⟩
    rcases block_layoutTree laidTree with ⟨kept, root, block, rfl⟩
    rw [List.forall_mem_cons] at included
    refine ih included.2 (fun name other found => ?_) laid
    rw [Table.get?_insert] at found
    split at found
    · rename_i same
      cases found
      exact ⟨tree, included.1, same.symm, nodes.size, block⟩
    · rcases blocks name other found with ⟨earlier, listed, named, first, block⟩
      exact ⟨earlier, listed, named, first, block.kept kept⟩

theorem name_of_declare {name : String} {source : ParameterSource} {parameter : Parameter}
    (accepted : source.declare name = .ok parameter) : parameter.name = source.name := by
  unfold ParameterSource.declare at accepted
  split at accepted
  · split at accepted
    · rw [bind_eq_ok] at accepted
      rcases accepted with ⟨value, -, done⟩
      cases done
      rfl
    · cases accepted
      rfl
  · cases accepted

theorem names_of_mapM_declare {name : String} {sources : List ParameterSource}
    {parameters : List Parameter}
    (accepted : sources.mapM (ParameterSource.declare name) = .ok parameters) :
    parameters.map Parameter.name = sources.map ParameterSource.name := by
  induction sources generalizing parameters with
  | nil =>
    cases accepted
    rfl
  | cons source rest ih =>
    simp only [List.mapM_cons, bind_eq_ok] at accepted
    rcases accepted with ⟨first, acceptedFirst, others, acceptedRest, done⟩
    cases done
    rw [List.map_cons, List.map_cons, name_of_declare acceptedFirst, ih acceptedRest]

/-- The parameters of every definition are declared under its name. -/
theorem declarations_parameters {trees : List TreeSource} {before : Table String (List Parameter)}
    (folded : trees.foldlM (fun declared tree => do
      if declared.contains tree.name then throw (.duplicateTree tree.name)
      let parameters ← tree.parameters.mapM (ParameterSource.declare tree.name)
      return declared.insert tree.name parameters) before =
        (.ok declared : Except LoadError (Table String (List Parameter)))) :
    (∀ name parameters, before.get? name = some parameters →
      declared.get? name = some parameters) ∧
    ∀ tree ∈ trees, ∃ parameters, declared.get? tree.name = some parameters ∧
      tree.parameters.mapM (ParameterSource.declare tree.name) = .ok parameters := by
  induction trees generalizing before with
  | nil =>
    cases folded
    exact ⟨fun _ _ known => known, by simp⟩
  | cons tree rest ih =>
    rw [List.foldlM_cons, bind_eq_ok] at folded
    rcases folded with ⟨middle, step, folded⟩
    split at step
    · cases step
    rename_i new
    dsimp only at step
    rw [bind_eq_ok] at step
    rcases step with ⟨parameters, accepted, done⟩
    cases done
    rcases ih folded with ⟨kept, later⟩
    refine ⟨fun name known given => ?_, ?_⟩
    · refine kept name known ?_
      have other : name ≠ tree.name := by
        rintro rfl
        exact new (Table.contains_iff.2 ⟨known, given⟩)
      rwa [Table.get?_insert_of_ne other]
    · rw [List.forall_mem_cons]
      exact ⟨⟨parameters, kept _ _ (Table.get?_insert_self _ _ _), accepted⟩, later⟩

namespace Tree

/-- Where a node is among the nodes below another one in the same definition, or is that node. -/
def Within (tree : Tree) : NodeIndex → NodeIndex → Prop :=
  Relation.ReflTransGen fun upper lower => ∃ node, tree.node? upper = some node ∧
    lower ∈ node.children

/-- The body of a definition: the root knows all parameters that are used below it, and everything
is passed that references below it have to pass. -/
structure Body (tree : Tree) (root : NodeIndex) (definition : Node) : Prop where
  found : tree.node? root = some definition
  uses : ∀ index node, tree.Within root index → tree.node? index = some node →
    ∀ name, node.Uses name → ∃ parameter ∈ definition.parameters, parameter.name = name
  compares : ∀ index node, tree.Within root index → tree.node? index = some node →
    ∀ condition, node.configuration = some (.condition condition) →
      ∀ name, condition.Compares name → node.Uses name
  passes : ∀ index node, tree.Within root index → tree.node? index = some node →
    ∀ target lower inner, node.configuration = some (.reference target) →
      tree.lookup target = some lower → tree.node? lower = some inner →
        Suffices node.arguments inner.parameters

end Tree

theorem Block.within {nodes : Array Node} {roots : Table String NodeIndex}
    {main first root index : NodeIndex} (block : Block declared tree nodes first root)
    (within : Tree.Within ⟨nodes, roots, main⟩ root index) : first ≤ index ∧ index ≤ root := by
  induction within with
  | refl => exact ⟨block.ordered, Nat.le_refl _⟩
  | tail _ below ih =>
    rcases below with ⟨node, found, listed⟩
    exact block.closed _ node ih.1 ih.2 found _ listed

/-- Every definition of a tree that the loader accepts has a body. -/
theorem Tree.bodies_ofSource {mission : MissionSource} {tree : Tree}
    (loaded : Tree.ofSource mission = .ok tree) :
    tree.lookup "main" = some tree.main ∧
      ∀ target root, tree.lookup target = some root → ∃ definition, tree.Body root definition := by
  rcases exists_comesFrom loaded with ⟨declared, verified, declares, -, laid, -, mainRoot⟩
  have parametersOf := (declarations_parameters declares).2
  have blocks := blocks_foldlM (fun (tree : TreeSource) (listed : tree ∈ mission.trees) => listed)
    (fun name root impossible => by cases impossible) laid
  refine ⟨mainRoot, fun target root known => ?_⟩
  rcases blocks target root known with ⟨source, listed, rfl, first, block⟩
  rcases block.root with ⟨definition, found, parameters⟩
  rcases parametersOf source listed with ⟨own, declaredOwn, accepted⟩
  have names := names_of_mapM_declare accepted
  rw [declaredOwn, Option.getD_some] at parameters
  refine ⟨definition, found, ?_, ?_, ?_⟩
  · intro index node within foundNode name used
    have range := block.within within
    have known := (block.checked index node range.1 range.2 foundNode).uses name used
    rw [TreeSource.Declares, ← names, ← parameters] at known
    exact List.mem_map.1 known
  · intro index node within foundNode
    have range := block.within within
    exact (block.checked index node range.1 range.2 foundNode).compares
  · intro index node within foundNode target lower inner configured knownTarget foundInner
    have range := block.within within
    rcases (block.checked index node range.1 range.2 foundNode).passes target configured with
      ⟨passed, declaredTarget, enough⟩
    rcases blocks target lower knownTarget with ⟨other, -, rfl, start, otherBlock⟩
    rcases otherBlock.root with ⟨same, foundSame, sameParameters⟩
    have meant : same = inner := by
      have both : tree.nodes[lower]? = some inner := foundInner
      rw [foundSame] at both
      exact Option.some.inj both
    rw [← meant, sameParameters, declaredTarget]
    exact enough

end BehaviorTree
