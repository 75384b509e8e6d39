import BehaviorTree.Proofs.Tree.Layout

/-!
# Ports of one node

A mission with a node at some place is loaded the same way whatever the ports of this node are, up
to the node itself: the other nodes, their positions, the roots and the references between
definitions stay. So whether the mission is accepted with other ports is decided by laying out this
one node.
-/

namespace BehaviorTree

namespace NodeSource

def withPorts (source : NodeSource) (ports : List PortSource) : NodeSource :=
  .node source.kind source.label ports source.children

mutual

/-- The number of nodes that are laid out for a node. -/
def size : NodeSource → Nat
  | .node _ _ _ children => sizeOfAll children + 1

def sizeOfAll : List NodeSource → Nat
  | [] => 0
  | source :: sources => size source + sizeOfAll sources

end

end NodeSource

/-- A node without one of its children. -/
structure Surrounding where
  kind : String
  label : Option String
  ports : List PortSource
  /-- The children before the one that is left out. -/
  before : List NodeSource
  after : List NodeSource

def Surrounding.fill (outer : Surrounding) (source : NodeSource) : NodeSource :=
  .node outer.kind outer.label outer.ports (outer.before ++ source :: outer.after)

/-- A mission without one of its nodes. -/
structure Gap where
  /-- The definitions before the one in which the node is left out. -/
  before : List TreeSource
  name : String
  parameters : List ParameterSource
  /-- The nodes around the one that is left out, the outermost in front. -/
  surroundings : List Surrounding
  after : List TreeSource

namespace Gap

def definition (gap : Gap) (source : NodeSource) : TreeSource :=
  ⟨gap.name, gap.parameters, gap.surroundings.foldr Surrounding.fill source⟩

/-- The mission with a node in the gap. -/
def mission (gap : Gap) (source : NodeSource) : MissionSource :=
  ⟨gap.before ++ gap.definition source :: gap.after⟩

/-- The position in its definition that a node gets inside of others. -/
def offset (source : NodeSource) : List Surrounding → Nat
  | [] => NodeSource.sizeOfAll source.children
  | outer :: surroundings => NodeSource.sizeOfAll outer.before + offset source surroundings

/-- The position that a node in the gap gets in the tree of the mission. -/
def position (gap : Gap) (source : NodeSource) : NodeIndex :=
  NodeSource.sizeOfAll (gap.before.map TreeSource.root) + offset source gap.surroundings

end Gap

variable {declared : Table String (List Parameter)} {tree other : TreeSource} {node : Node}
  {nodes after : Array Node} {root : NodeIndex} {position : Nat}

/-- A node of a kind or a reference, whose children are laid out. -/
def layoutShell (declared : Table String (List Parameter)) (tree : TreeSource)
    (source : NodeSource) (children : List NodeIndex) : Except (Failure LoadError) Node :=
  match NodeKind.ofName? source.kind, declared.get? source.kind with
  | some kind, _ => layoutNode tree kind source children
  | none, some parameters => (layoutReference tree parameters source children).mapError .error
  | none, none => throw (.error (.missingNode source.kind))

/-- A node is laid out behind its children, and behind what was there. -/
theorem layout_eq (kindName : String) (label : Option String) (ports : List PortSource)
    (sources : List NodeSource) :
    layout declared tree nodes (.node kindName label ports sources) = (do
      let laid ← layoutAll declared tree nodes sources
      (layoutShell declared tree (.node kindName label ports sources) laid.1).map fun node =>
        (laid.2.size, laid.2.push node)) := by
  unfold layout layoutShell
  simp only [NodeSource.kind]
  refine bind_congr fun laid => ?_
  cases NodeKind.ofName? kindName with
  | some kind => cases layoutNode tree kind (.node kindName label ports sources) laid.1 <;> rfl
  | none =>
    cases declared.get? kindName with
    | some parameters =>
      cases layoutReference tree parameters (.node kindName label ports sources) laid.1 <;> rfl
    | none => rfl

/-- Of the definition that a node is in, its layout depends only on what operands there are. -/
theorem layoutShell_congr (same : other.checkOperand = tree.checkOperand) :
    layoutShell declared other = layoutShell declared tree := by
  have sameAdd : NodePorts.add other = NodePorts.add tree := by
    unfold NodePorts.add
    rw [same]
  have sameArgument : layoutArgument other = layoutArgument tree := by
    unfold layoutArgument
    rw [same]
  unfold layoutShell layoutNode layoutReference
  rw [sameAdd, sameArgument]

mutual

theorem layout_congr (same : other.checkOperand = tree.checkOperand) (nodes : Array Node) :
    (source : NodeSource) → layout declared other nodes source = layout declared tree nodes source
  | .node kindName label ports sources => by
    rw [layout_eq, layout_eq, layoutAll_congr same nodes sources, layoutShell_congr same]

theorem layoutAll_congr (same : other.checkOperand = tree.checkOperand) (nodes : Array Node) :
    (sources : List NodeSource) →
    layoutAll declared other nodes sources = layoutAll declared tree nodes sources
  | [] => by simp only [layoutAll]
  | source :: sources => by
    simp only [layoutAll]
    rw [layout_congr same nodes source]
    exact bind_congr fun laid => by rw [layoutAll_congr same laid.2 sources]

end

mutual

theorem size_of_layout {nodes after : Array Node} {root : NodeIndex} : (source : NodeSource) →
    layout declared tree nodes source = .ok (root, after) →
    root + 1 = after.size ∧ after.size = nodes.size + source.size
  | .node kindName label ports sources, laid => by
    rw [layout_eq, bind_eq_ok] at laid
    rcases laid with ⟨⟨children, inner⟩, laidAll, laid⟩
    rw [map_eq_ok] at laid
    rcases laid with ⟨node, -, done⟩
    cases done
    rw [Array.size_push, NodeSource.size, size_of_layoutAll sources laidAll]
    exact ⟨rfl, rfl⟩

theorem size_of_layoutAll {nodes after : Array Node} {roots : List NodeIndex} :
    (sources : List NodeSource) → layoutAll declared tree nodes sources = .ok (roots, after) →
    after.size = nodes.size + NodeSource.sizeOfAll sources
  | [], laid => by
    cases laid
    rfl
  | source :: sources, laid => by
    unfold layoutAll at laid
    simp only [bind_eq_ok] at laid
    rcases laid with ⟨⟨root, middle⟩, laidFirst, ⟨rest, last⟩, laidRest, done⟩
    cases done
    rw [NodeSource.sizeOfAll, size_of_layoutAll sources laidRest,
      (size_of_layout source laidFirst).2, Nat.add_assoc]

end

theorem setIfInBounds_push (inside : position < nodes.size) (last : Node) :
    (nodes.setIfInBounds position node).push last =
      (nodes.push last).setIfInBounds position node := by
  have further : position < (nodes.push last).size := by
    rw [Array.size_push]
    exact Nat.lt_succ_of_lt inside
  rw [Array.setIfInBounds_def, dif_pos inside, Array.setIfInBounds_def, dif_pos further,
    Array.set_push, dif_pos inside]

theorem setIfInBounds_push_size (last : Node) :
    (nodes.push node).setIfInBounds nodes.size last = nodes.push last := by
  have inside : nodes.size < (nodes.push node).size := by
    rw [Array.size_push]
    exact Nat.lt_succ_self _
  rw [Array.setIfInBounds_def, dif_pos inside, Array.set_push, dif_neg (Nat.lt_irrefl _)]

mutual

/-- What is laid out behind other nodes does not depend on them. -/
theorem layout_setIfInBounds {nodes : Array Node} (inside : position < nodes.size) :
    (source : NodeSource) → layout declared tree (nodes.setIfInBounds position node) source =
      (layout declared tree nodes source).map fun laid =>
        (laid.1, laid.2.setIfInBounds position node)
  | .node kindName label ports sources => by
    rw [layout_eq, layout_eq, layoutAll_setIfInBounds inside sources]
    cases laidAll : layoutAll declared tree nodes sources with
    | error error => rfl
    | ok laid =>
      rcases laid with ⟨children, inner⟩
      have grown : position < inner.size := by
        rw [size_of_layoutAll sources laidAll]
        exact Nat.lt_add_right _ inside
      simp only [Except.map, bind, Except.bind, Array.size_setIfInBounds,
        setIfInBounds_push grown]
      cases layoutShell declared tree (.node kindName label ports sources) children <;> rfl

theorem layoutAll_setIfInBounds {nodes : Array Node} (inside : position < nodes.size) :
    (sources : List NodeSource) →
    layoutAll declared tree (nodes.setIfInBounds position node) sources =
      (layoutAll declared tree nodes sources).map fun laid =>
        (laid.1, laid.2.setIfInBounds position node)
  | [] => rfl
  | source :: sources => by
    unfold layoutAll
    rw [layout_setIfInBounds inside source]
    cases laid : layout declared tree nodes source with
    | error error => rfl
    | ok first =>
      rcases first with ⟨root, middle⟩
      have grown : position < middle.size := by
        rw [(size_of_layout source laid).2]
        exact Nat.lt_add_right _ inside
      simp only [Except.map, bind, Except.bind]
      rw [layoutAll_setIfInBounds grown sources]
      cases layoutAll declared tree middle sources <;> rfl

end

theorem layoutAll_append (nodes : Array Node) (sources more : List NodeSource) :
    layoutAll declared tree nodes (sources ++ more) = (do
      let (indices, middle) ← layoutAll declared tree nodes sources
      let (rest, after) ← layoutAll declared tree middle more
      return (indices ++ rest, after)) := by
  induction sources generalizing nodes with
  | nil =>
    rw [List.nil_append, layoutAll]
    simp only [bind, Except.bind]
    cases layoutAll declared tree nodes more <;> rfl
  | cons source sources ih =>
    simp only [List.cons_append, layoutAll, ih, bind_assoc, pure_bind]

variable {kind : NodeKind} {source inner : NodeSource}

/-- What is laid out with other ports of a node is what was laid out before, but for the node. -/
def Exchanges (tree : TreeSource) (kind : NodeKind) (source : NodeSource) (position : Nat)
    (laid : List PortSource → Except (Failure LoadError) (NodeIndex × Array Node))
    (root : NodeIndex) (after : Array Node) : Prop :=
  ∃ children node, layoutNode tree kind source children = .ok node ∧
    after[position]? = some node ∧
    ∀ ports, laid ports = (layoutNode tree kind (source.withPorts ports) children).map
      fun other => (root, after.setIfInBounds position other)

theorem exchanges_layout (named : NodeKind.ofName? source.kind = some kind)
    (laid : layout declared tree nodes source = .ok (root, after)) :
    Exchanges tree kind source (nodes.size + NodeSource.sizeOfAll source.children)
      (fun ports => layout declared tree nodes (source.withPorts ports)) root after := by
  cases source with
  | node kindName label ports sources =>
    rw [NodeSource.kind] at named
    have shell : ∀ others, layoutShell declared tree (.node kindName label others sources) =
        layoutNode tree kind (.node kindName label others sources) := by
      intro others
      funext children
      simp [layoutShell, NodeSource.kind, named]
    rw [layout_eq, shell, bind_eq_ok] at laid
    rcases laid with ⟨⟨children, before⟩, laidAll, laid⟩
    rw [map_eq_ok] at laid
    rcases laid with ⟨node, laidNode, done⟩
    cases done
    rw [NodeSource.children, ← size_of_layoutAll sources laidAll]
    refine ⟨children, node, laidNode, Array.getElem?_push_size, fun others => ?_⟩
    unfold NodeSource.withPorts
    dsimp only [NodeSource.kind, NodeSource.label, NodeSource.children]
    rw [layout_eq, shell, laidAll]
    simp only [setIfInBounds_push_size]
    rfl

/-- Nodes around a node do not notice its ports. -/
theorem Exchanges.fill {outer : Surrounding} {place : Nat} {change : List PortSource → NodeSource}
    (exchanges : ∀ nodes root after, layout declared tree nodes inner = .ok (root, after) →
      Exchanges tree kind source (nodes.size + place)
        (fun ports => layout declared tree nodes (change ports)) root after)
    (laid : layout declared tree nodes (outer.fill inner) = .ok (root, after)) :
    Exchanges tree kind source (nodes.size + (NodeSource.sizeOfAll outer.before + place))
      (fun ports => layout declared tree nodes (outer.fill (change ports))) root after := by
  unfold Surrounding.fill at laid ⊢
  rw [layout_eq, bind_eq_ok] at laid
  rcases laid with ⟨⟨indices, all⟩, laidAll, laid⟩
  rw [map_eq_ok] at laid
  rcases laid with ⟨outerNode, laidOuter, done⟩
  cases done
  rw [layoutAll_append] at laidAll
  simp only [layoutAll, bind_eq_ok] at laidAll
  rcases laidAll with ⟨⟨first, before⟩, laidBefore, ⟨rest, last⟩,
    ⟨⟨index, middle⟩, laidInner, ⟨later, final⟩, laidAfter, done⟩, finish⟩
  cases done
  cases finish
  rcases exchanges before index middle laidInner with ⟨children, node, laidNode, found, others⟩
  rw [size_of_layoutAll _ laidBefore, Nat.add_assoc] at found others
  have inside := (Array.getElem?_eq_some_iff.1 found).1
  have further : nodes.size + (NodeSource.sizeOfAll outer.before + place) < final.size := by
    rw [size_of_layoutAll _ laidAfter]
    exact Nat.lt_add_right _ inside
  refine ⟨children, node, laidNode, ?_, fun ports => ?_⟩
  · rw [Array.getElem?_push_lt further, ← found, ← Array.getElem?_eq_getElem]
    exact (laidOut_layoutAll _ laidAfter).1.kept _ inside
  · dsimp only at others laidOuter ⊢
    rw [layout_eq, layoutAll_append, laidBefore]
    simp only [bind, Except.bind, layoutAll, others ports]
    cases layoutNode tree kind (source.withPorts ports) children with
    | error error => rfl
    | ok other =>
      have laidAgain : layoutShell declared tree
          (outer.fill (change ports)) (first ++ index :: later) = .ok outerNode := laidOuter
      unfold Surrounding.fill at laidAgain
      simp only [Except.map, layoutAll_setIfInBounds inside, laidAfter, pure, Except.pure,
        laidAgain, Array.size_setIfInBounds, setIfInBounds_push further]

/-- A definition does not notice the ports of a node in it. -/
theorem exchanges_surroundings (named : NodeKind.ofName? source.kind = some kind)
    (surroundings : List Surrounding)
    (laid : layout declared tree nodes (surroundings.foldr Surrounding.fill source) =
      .ok (root, after)) :
    Exchanges tree kind source (nodes.size + Gap.offset source surroundings)
      (fun ports => layout declared tree nodes
        (surroundings.foldr Surrounding.fill (source.withPorts ports))) root after := by
  induction surroundings generalizing nodes root after with
  | nil => exact exchanges_layout named laid
  | cons outer surroundings ih => exact Exchanges.fill (fun _ _ _ laidInner => ih laidInner) laid

/-- What a node is told about the definition of which it is the root. -/
def Node.Tells (dress : Node → Node) : Prop :=
  ∀ node, ∃ definition parameters,
    dress node = { node with definition := definition, parameters := parameters }

theorem modify_setIfInBounds (change : Node → Node) (root : Nat) :
    (nodes.setIfInBounds position node).modify root change =
      (nodes.modify root change).setIfInBounds position
        (if root = position then change node else node) := by
  apply Array.ext_getElem?
  intro index
  simp only [Array.getElem?_modify, Array.getElem?_setIfInBounds, Array.size_modify]
  by_cases here : position = index
  · subst here
    by_cases inside : position < nodes.size
    · by_cases same : root = position <;> simp [inside, same]
    · simp [inside]
  · simp [here]

variable {gap : Gap} {roots newRoots : Table String NodeIndex}

theorem exchanges_layoutTree (named : NodeKind.ofName? source.kind = some kind)
    (laid : layoutTree declared (nodes, roots) (gap.definition source) =
      .ok (after, newRoots)) :
    ∃ children node dress, Node.Tells dress ∧
      layoutNode (gap.definition source) kind source children = .ok node ∧
      after[nodes.size + Gap.offset source gap.surroundings]? = some (dress node) ∧
      ∀ ports, layoutTree declared (nodes, roots) (gap.definition (source.withPorts ports)) =
        (layoutNode (gap.definition source) kind (source.withPorts ports) children).map
          fun other => (after.setIfInBounds (nodes.size + Gap.offset source gap.surroundings)
            (dress other), newRoots) := by
  unfold layoutTree at laid
  rw [bind_eq_ok] at laid
  rcases laid with ⟨⟨root, middle⟩, laidRoot, done⟩
  cases done
  rcases exchanges_surroundings named gap.surroundings laidRoot with
    ⟨children, node, laidNode, found, others⟩
  refine ⟨children, node, fun node => if root = nodes.size + Gap.offset source gap.surroundings
    then { node with
      definition := some gap.name
      parameters := (declared.get? gap.name).getD [] }
    else node, ?_, laidNode, ?_, fun ports => ?_⟩
  · intro node
    dsimp only
    split
    · exact ⟨_, _, rfl⟩
    · exact ⟨node.definition, node.parameters, rfl⟩
  · rw [Array.getElem?_modify, found]
    dsimp only [Gap.definition]
    split <;> rfl
  · have elsewhere : layout declared (gap.definition (source.withPorts ports)) =
        layout declared (gap.definition source) := by
      have same : (gap.definition (source.withPorts ports)).checkOperand =
          (gap.definition source).checkOperand := rfl
      funext nodes inner
      exact layout_congr same nodes inner
    unfold layoutTree
    rw [elsewhere]
    dsimp only [Gap.definition] at others ⊢
    simp only [others ports, bind, Except.bind]
    cases layoutNode _ kind (source.withPorts ports) children with
    | error error => rfl
    | ok other =>
      simp only [Except.map, modify_setIfInBounds]
      rfl

/-- Definitions that are laid out later do not notice the nodes before them. -/
theorem layoutTree_setIfInBounds (inside : position < nodes.size) :
    layoutTree declared (nodes.setIfInBounds position node, roots) tree =
      (layoutTree declared (nodes, roots) tree).map fun laid =>
        (laid.1.setIfInBounds position node, laid.2) := by
  unfold layoutTree
  rw [layout_setIfInBounds inside]
  cases laid : layout declared tree nodes tree.root with
  | error error => rfl
  | ok inner =>
    rcases inner with ⟨root, middle⟩
    have apart : root ≠ position := by
      have least : nodes.size ≤ root := (laidOut_layout tree.root laid).2.1
      exact Nat.ne_of_gt (Nat.lt_of_lt_of_le inside least)
    simp only [Except.map, bind, Except.bind, modify_setIfInBounds, if_neg apart]
    rfl

theorem size_of_layoutTree
    (laid : layoutTree declared (nodes, roots) tree = .ok (after, newRoots)) :
    after.size = nodes.size + tree.root.size := by
  unfold layoutTree at laid
  rw [bind_eq_ok] at laid
  rcases laid with ⟨⟨root, middle⟩, laidRoot, done⟩
  cases done
  rw [Array.size_modify]
  exact (size_of_layout tree.root laidRoot).2

theorem size_of_layoutTrees {trees : List TreeSource}
    (laid : trees.foldlM (layoutTree declared) (nodes, roots) = .ok (after, newRoots)) :
    after.size = nodes.size + NodeSource.sizeOfAll (trees.map TreeSource.root) := by
  induction trees generalizing nodes roots with
  | nil =>
    cases laid
    rfl
  | cons tree trees ih =>
    rw [List.foldlM_cons, bind_eq_ok] at laid
    rcases laid with ⟨⟨middle, middleRoots⟩, laidFirst, laid⟩
    rw [ih laid, size_of_layoutTree laidFirst, List.map_cons, NodeSource.sizeOfAll, Nat.add_assoc]

theorem layoutTrees_setIfInBounds (inside : position < nodes.size) (trees : List TreeSource) :
    trees.foldlM (layoutTree declared) (nodes.setIfInBounds position node, roots) =
      (trees.foldlM (layoutTree declared) (nodes, roots)).map fun laid =>
        (laid.1.setIfInBounds position node, laid.2) := by
  induction trees generalizing nodes roots with
  | nil => rfl
  | cons tree trees ih =>
    rw [List.foldlM_cons, List.foldlM_cons, layoutTree_setIfInBounds inside]
    cases laid : layoutTree declared (nodes, roots) tree with
    | error error => rfl
    | ok first =>
      rcases first with ⟨middle, middleRoots⟩
      refine ih ?_
      rw [size_of_layoutTree laid]
      exact Nat.lt_add_right _ inside

namespace MissionSource

variable {first second : MissionSource}

theorem followReferences_congr (same : first.referencesOf = second.referencesOf) :
    first.followReferences = second.followReferences := by
  funext depth path verified targets
  fun_induction followReferences first depth path verified targets with
  | case1 => conv_rhs => unfold followReferences
  | case2 _ _ _ _ _ onPath =>
    conv_rhs => unfold followReferences
    rw [if_pos onPath]
  | case3 _ _ _ _ _ new isVerified ih =>
    conv_rhs => unfold followReferences
    rw [if_neg new, if_pos isVerified]
    exact ih
  | case4 _ _ _ _ new unverified =>
    conv_rhs => unfold followReferences
    rw [if_neg new, if_neg unverified]
  | case5 _ _ _ _ new unverified _ _ deepest ihInner ihRest =>
    conv_rhs => unfold followReferences
    rw [if_neg new, if_neg unverified]
    simp only [← same, ← ihInner, deepest]
    exact ihRest
  | case6 _ _ _ _ new unverified _ _ deepest ihInner =>
    conv_rhs => unfold followReferences
    rw [if_neg new, if_neg unverified]
    simp only [← same, ← ihInner, deepest]

/-- The check for recursion depends on what the definitions refer to. -/
theorem checkRecursion_congr
    (same : (first.trees.map fun tree => (tree.name, tree.root.references)) =
      second.trees.map fun tree => (tree.name, tree.root.references)) :
    first.checkRecursion = second.checkRecursion := by
  have listed : ∀ (mission : MissionSource) (name : String), mission.referencesOf name =
      (((mission.trees.map fun tree => (tree.name, tree.root.references)).find? fun entry =>
        entry.1 = name).map Prod.snd).getD [] := by
    intro mission name
    rw [List.find?_map, referencesOf, tree?]
    simp only [Function.comp_def]
    cases mission.trees.find? fun tree => tree.name = name <;> rfl
  have references : first.referencesOf = second.referencesOf := by
    funext name
    rw [listed, listed, same]
  have folded : ∀ mission : MissionSource, mission.checkRecursion =
      (mission.trees.map fun tree => (tree.name, tree.root.references)).foldlM
        (fun verified entry => (mission.followReferences mission.trees.length [entry.1] verified
          entry.2).map (entry.1 :: ·)) [] := by
    intro mission
    rw [List.foldlM_map]
    rfl
  have lengths : first.trees.length = second.trees.length := by
    simpa using congrArg List.length same
  rw [folded, folded, same, followReferences_congr references, lengths]

end MissionSource

theorem NodeSource.referencesOfAll_append (sources more : List NodeSource) :
    referencesOfAll (sources ++ more) = referencesOfAll sources ++ referencesOfAll more := by
  induction sources with
  | nil => rfl
  | cons source sources ih => simp only [List.cons_append, referencesOfAll, ih, List.append_assoc]

namespace Gap

theorem references_definition (ports : List PortSource) :
    (gap.definition (source.withPorts ports)).root.references =
      (gap.definition source).root.references := by
  have around : ∀ surroundings : List Surrounding,
      (surroundings.foldr Surrounding.fill (source.withPorts ports)).references =
        (surroundings.foldr Surrounding.fill source).references := by
    intro surroundings
    induction surroundings with
    | nil =>
      cases source
      rfl
    | cons outer surroundings ih =>
      simp only [List.foldr_cons, Surrounding.fill, NodeSource.references,
        NodeSource.referencesOfAll_append, NodeSource.referencesOfAll, ih]
  exact around gap.surroundings

theorem declarations_mission (ports : List PortSource) :
    (gap.mission (source.withPorts ports)).declarations =
      (gap.mission source).declarations := by
  simp only [MissionSource.declarations, mission, List.foldlM_append, List.foldlM_cons]
  rfl

theorem checkRecursion_mission (ports : List PortSource) :
    (gap.mission (source.withPorts ports)).checkRecursion =
      (gap.mission source).checkRecursion := by
  apply MissionSource.checkRecursion_congr
  simp only [mission, List.map_append, List.map_cons, references_definition]
  rfl

/-- A mission that is accepted is accepted with other ports of a node if the node can be laid out
with them, and then only this node is another one. -/
theorem ofSource_mission {tree : Tree} (named : NodeKind.ofName? source.kind = some kind)
    (loaded : Tree.ofSource (gap.mission source) = .ok tree) :
    ∃ children node dress, Node.Tells dress ∧
      layoutNode (gap.definition source) kind source children = .ok node ∧
      tree.node? (gap.position source) = some (dress node) ∧
      ∀ ports, Tree.ofSource (gap.mission (source.withPorts ports)) =
        (layoutNode (gap.definition source) kind (source.withPorts ports) children).map
          fun other => { tree with
            nodes := tree.nodes.setIfInBounds (gap.position source) (dress other) } := by
  rcases Tree.exists_comesFrom loaded with
    ⟨declared, verified, declares, hasMain, laid, checked, mainRoot⟩
  rcases tree with ⟨nodes, roots, main⟩
  unfold mission at laid
  simp only [List.foldlM_append, List.foldlM_cons, bind_eq_ok] at laid
  rcases laid with ⟨⟨earlier, earlierRoots⟩, laidBefore, ⟨middle, middleRoots⟩, laidHere, laidAfter⟩
  rcases exchanges_layoutTree named laidHere with
    ⟨children, node, dress, tells, laidNode, found, others⟩
  have here : earlier.size + offset source gap.surroundings = gap.position source := by
    rw [position, size_of_layoutTrees laidBefore, Array.size_empty, Nat.zero_add]
  rw [here] at found others
  have inside := (Array.getElem?_eq_some_iff.1 found).1
  have exchanged : ∀ other, gap.after.foldlM (layoutTree declared)
      (middle.setIfInBounds (gap.position source) other, middleRoots) =
        .ok (nodes.setIfInBounds (gap.position source) other, roots) := by
    intro other
    rw [layoutTrees_setIfInBounds inside, laidAfter]
    rfl
  refine ⟨children, node, dress, tells, laidNode, ?_, fun ports => ?_⟩
  · -- Later definitions do not change the node: to put it where it stands changes nothing.
    have same : middle.setIfInBounds (gap.position source) (dress node) = middle := by
      rw [Array.setIfInBounds_def, dif_pos inside, ← (Array.getElem?_eq_some_iff.1 found).2,
        Array.set_getElem_self]
    have kept := exchanged (dress node)
    rw [same, laidAfter, Except.ok.injEq, Prod.mk.injEq] at kept
    have further : gap.position source < nodes.size := by
      rw [size_of_layoutTrees laidAfter]
      exact Nat.lt_add_right _ inside
    change nodes[gap.position source]? = _
    rw [kept.1, Array.getElem?_setIfInBounds_self, if_pos further]
  · unfold Tree.ofSource
    rw [declarations_mission, checkRecursion_mission, declares, checked]
    simp only [bind, Except.bind, Except.mapError, hasMain, Bool.not_true, Bool.false_eq_true,
      if_false, mission, List.foldlM_append, List.foldlM_cons, laidBefore, others ports]
    cases layoutNode (gap.definition source) kind (source.withPorts ports) children with
    | error error => rfl
    | ok other =>
      simp only [Except.map, exchanged (dress other), mainRoot]
      rfl

end Gap

end BehaviorTree
