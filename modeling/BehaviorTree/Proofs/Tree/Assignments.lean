import BehaviorTree.Proofs.Tree.Parameters

/-!
# Nodes that take assignments

The inputs of a node that sets variables are assignments, whatever they are called. So such a node
has no overrides, and in every tree that the loader accepts it runs as it was configured.
-/

namespace BehaviorTree

variable {declared : Table String (List Parameter)} {tree : TreeSource} {kind : NodeKind}
  {ports after : NodePorts}

/-- A kind that takes assignments has no fields that an input could override. -/
theorem NodePorts.overrides_add (assigning : kind.takesAssignments = true) {title : String}
    {port : PortSource} (added : ports.add tree kind title port = .ok after) :
    after.overrides = ports.overrides := by
  unfold NodePorts.add at added
  split at added
  · unfold NodePorts.addOutput at added
    split at added
    · split at added
      · cases added
        rfl
      · cases added
    · cases added
  · rw [bind_eq_ok] at added
    rcases added with ⟨operand, -, added⟩
    rw [if_pos assigning] at added
    cases added
    rfl

theorem NodePorts.overrides_addAll (assigning : kind.takesAssignments = true) {title : String}
    {sources : List PortSource}
    (sorted : sources.foldlM (NodePorts.add tree kind title) ports = .ok after) :
    after.overrides = ports.overrides := by
  induction sources generalizing ports with
  | nil =>
    cases sorted
    rfl
  | cons port rest ih =>
    rw [List.foldlM_cons, bind_eq_ok] at sorted
    rcases sorted with ⟨middle, added, sorted⟩
    rw [ih sorted, NodePorts.overrides_add assigning added]

/-- A node sets variables in one way only. -/
def Node.SetsPlainly (node : Node) : Prop :=
  node.kind = .setBlackboard → node.overrides = [] ∧ node.configuration = some .setBlackboard

theorem ensures_setsPlainly : Ensures declared tree Node.SetsPlainly := by
  refine ⟨fun {kind source children node} ordinary laid isSet => ?_, fun known laid isSet => ?_⟩
  · have sameKind := (layoutNode_fits ordinary laid).2.2
    rw [isSet] at sameKind
    subst sameKind
    unfold layoutNode at laid
    split at laid
    · cases laid
    dsimp only at laid
    rw [bind_eq_ok] at laid
    rcases laid with ⟨ports, sorted, laid⟩
    rw [mapError_eq_ok] at sorted
    split at laid
    · cases laid
    cases laid
    exact ⟨NodePorts.overrides_addAll rfl sorted, rfl⟩
  · have fits := layoutReference_fits laid
    have isReference := fits.1.kind_eq_reference_iff.2 ⟨_, fits.2.2⟩
    rw [isSet] at isReference
    cases isReference

section Everywhere

variable {good : Node → Prop} {nodes later : Array Node} {roots laterRoots : Table String NodeIndex}
  (named : ∀ node definition parameters, good node →
    good { node with definition := definition, parameters := parameters })
include named

theorem forall_layoutTree (ensures : Ensures declared tree good)
    (before : ∀ (index : NodeIndex) node, nodes[index]? = some node → good node)
    (laid : layoutTree declared (nodes, roots) tree = .ok (later, laterRoots)) :
    ∀ (index : NodeIndex) node, later[index]? = some node → good node := by
  unfold layoutTree at laid
  rw [bind_eq_ok] at laid
  rcases laid with ⟨⟨root, middle⟩, laidRoot, done⟩
  cases done
  intro index node changed
  rcases exists_of_modify changed with ⟨inner, definition, parameters, found, rfl⟩
  refine named inner definition parameters ?_
  by_cases old : index < nodes.size
  · rw [(laidOut_layout tree.root laidRoot).1.kept index old] at found
    exact before index inner found
  · exact forall_layout ensures tree.root laidRoot index inner (Nat.le_of_not_lt old) found

theorem forall_layoutTrees (ensures : ∀ tree, Ensures declared tree good)
    {trees : List TreeSource}
    (before : ∀ (index : NodeIndex) node, nodes[index]? = some node → good node)
    (laid : trees.foldlM (layoutTree declared) (nodes, roots) = .ok (later, laterRoots)) :
    ∀ (index : NodeIndex) node, later[index]? = some node → good node := by
  induction trees generalizing nodes roots with
  | nil =>
    cases laid
    exact before
  | cons tree rest ih =>
    rw [List.foldlM_cons, bind_eq_ok] at laid
    rcases laid with ⟨⟨middle, middleRoots⟩, laidTree, laid⟩
    exact ih (forall_layoutTree named (ensures tree) before laidTree) laid

/-- What the loader makes sure of for the nodes of every definition holds of all nodes. -/
theorem Tree.forall_ofSource (ensures : ∀ declared tree, Ensures declared tree good)
    {mission : MissionSource} {tree : Tree} (loaded : Tree.ofSource mission = .ok tree) :
    ∀ index node, tree.node? index = some node → good node := by
  rcases exists_comesFrom loaded with ⟨declared, verified, comes⟩
  exact forall_layoutTrees named (ensures declared) (by simp) comes.laid

end Everywhere

theorem Tree.setsPlainly_ofSource {mission : MissionSource} {tree : Tree}
    (loaded : Tree.ofSource mission = .ok tree) {index : NodeIndex} {node : Node}
    (found : tree.node? index = some node) : node.SetsPlainly :=
  forall_ofSource (fun _ _ _ plainly => plainly) (fun _ _ => ensures_setsPlainly) loaded index node
    found

end BehaviorTree
