import BehaviorTree.Proofs.Tree.Gaps
import BehaviorTree.Proofs.Tree.Parents
import BehaviorTree.Proofs.Tree.Roles
import Mathlib

/-!
# Trees as pictures of missions

The table of a tree has one node for every node that the mission source says, and no other. From the
root of a definition its nodes are found again by following children, with their kinds, labels and
order, and every node has what its own ports say. The roots of definitions are the nodes without a
parent.
-/

namespace BehaviorTree

namespace NodeSource

mutual

/-- A node and all nodes in it, each of them behind its children. -/
def postorder : NodeSource → List NodeSource
  | .node kind label ports children =>
    postorderOfAll children ++ [.node kind label ports children]

def postorderOfAll : List NodeSource → List NodeSource
  | [] => []
  | source :: sources => postorder source ++ postorderOfAll sources

end

end NodeSource

def Node.ports (node : Node) : NodePorts where
  fields := node.fields
  overrides := node.overrides
  outputs := node.outputs
  assignments := node.assignments

/-- A node has the kind and the label of a source, and what the ports of this source say. A
reference passes arguments to the parameters of its target. -/
inductive Node.Depicts (parameters? : String → Option (List Parameter)) (source : NodeSource)
    (node : Node) : Prop where
  | ordinary {kind : NodeKind} {roles : List PortRole}
      (named : NodeKind.ofName? source.kind = some kind) (sameKind : node.kind = kind)
      (label : node.name = source.label)
      (played : source.ports.mapM (PortSource.role? kind) = some roles)
      (ports : node.ports = .ofRoles roles)
      (configured : node.configuration = (kind.configure node.fields).toOption)
      (arguments : node.arguments = []) :
      Depicts parameters? source node
  | reference {parameters : List Parameter} (unnamed : NodeKind.ofName? source.kind = none)
      (known : parameters? source.kind = some parameters) (isReference : node.kind = .reference)
      (target : node.configuration = some (.reference source.kind))
      (label : node.name = source.label)
      (passed : source.ports.mapM (PortSource.argument? parameters) = some node.arguments)
      (ports : node.ports = .empty) : Depicts parameters? source node

section Shows

variable (parameters? : String → Option (List Parameter)) (nodes : Array Node)

mutual

/-- From a position, the nodes of a source are found in a table by following children. -/
def Shows : NodeIndex → NodeSource → Prop
  | index, .node kind label ports children => ∃ node : Node, nodes[index]? = some node ∧
      node.Depicts parameters? (.node kind label ports children) ∧ ShowsAll node.children children

def ShowsAll : List NodeIndex → List NodeSource → Prop
  | [], [] => True
  | index :: indices, source :: sources => Shows index source ∧ ShowsAll indices sources
  | _, _ => False

end

end Shows

namespace Tree

/-- The parameters that are declared by a definition, as its root knows them. -/
def parameters? (tree : Tree) (target : String) : Option (List Parameter) := do
  let root ← tree.lookup target
  let definition ← tree.node? root
  return definition.parameters

/-- A tree shows a mission without loss, repetition or mistake. -/
structure Depicts (tree : Tree) (mission : MissionSource) : Prop where
  /-- There is exactly one node for every node of the source. -/
  listing : List.Forall₂ (Node.Depicts tree.parameters?)
    (mission.trees.flatMap fun definition => definition.root.postorder) tree.nodes.toList
  shown : ∀ definition ∈ mission.trees, ∃ root, tree.lookup definition.name = some root ∧
    Shows tree.parameters? tree.nodes root definition.root
  declared : ∀ definition ∈ mission.trees, ∃ parameters,
    tree.parameters? definition.name = some parameters ∧
      definition.parameters.mapM (ParameterSource.declare definition.name) = .ok parameters
  forest : IsForest tree.nodes
  roots : ∀ index, (tree.node? index).isSome →
    (IsOrphan tree.nodes index ↔
      ∃ definition ∈ mission.trees, tree.lookup definition.name = some index)

end Tree

variable {declared : Table String (List Parameter)} {tree : TreeSource} {source : NodeSource}
  {nodes after later : Array Node} {node : Node} {index : NodeIndex} {children : List NodeIndex}

theorem depicts_layoutShell (laid : layoutShell declared tree source children = .ok node) :
    node.Depicts declared.get? source ∧ node.children = children := by
  unfold layoutShell at laid
  split at laid
  · rename_i named
    rcases sorts_of_layoutNode laid with ⟨ports, configuration, sorts, settled, rfl⟩
    rcases sorted_by_roles sorts.sorted with ⟨roles, played, same⟩
    have configured := toOption_of_settle settled
    exact ⟨.ordinary named rfl rfl played same configured rfl, rfl⟩
  · rename_i parameters unnamed known
    rw [mapError_eq_ok] at laid
    unfold layoutReference at laid
    split at laid
    · cases laid
    simp only [bind_eq_ok] at laid
    rcases laid with ⟨arguments, laidArguments, laid⟩
    split at laid
    · cases laid
    cases laid
    exact ⟨.reference unnamed known rfl rfl rfl (mapM_argument_of_layout laidArguments) rfl, rfl⟩
  · cases laid

/-- What a node is told as the root of a definition does not change what it shows. -/
theorem Node.Depicts.of_root {parameters? : String → Option (List Parameter)}
    (depicts : node.Depicts parameters? source) (definition : Option String)
    (parameters : List Parameter) :
    Node.Depicts parameters? source
      { node with definition := definition, parameters := parameters } := by
  cases depicts with
  | ordinary named sameKind label played ports configured arguments =>
    exact .ordinary named sameKind label played ports configured arguments
  | reference unnamed known isReference target label passed ports =>
    exact .reference unnamed known isReference target label passed ports

theorem forall₂_modify {α β : Type} {related : α → β → Prop} {change : β → β}
    (closed : ∀ item value, related item value → related item (change value)) {items : List α}
    {values : List β} (position : Nat) (all : List.Forall₂ related items values) :
    List.Forall₂ related items (values.modify position change) := by
  induction all generalizing position with
  | nil =>
    rw [List.modify_nil]
    exact .nil
  | cons first rest ih =>
    cases position with
    | zero => exact .cons (closed _ _ first) rest
    | succ position => exact .cons first (ih position)

mutual

/-- The nodes that are laid out for a source are the pictures of its nodes, one after the other. -/
theorem listing_layout {nodes after : Array Node} {index : NodeIndex} : (source : NodeSource) →
    layout declared tree nodes source = .ok (index, after) →
    ∃ added, after.toList = nodes.toList ++ added ∧
      List.Forall₂ (Node.Depicts declared.get?) source.postorder added
  | .node kind label ports sources, laid => by
    rw [layout_eq, bind_eq_ok] at laid
    rcases laid with ⟨⟨children, inner⟩, laidAll, laid⟩
    rw [map_eq_ok] at laid
    rcases laid with ⟨node, laidNode, done⟩
    cases done
    rcases listing_layoutAll sources laidAll with ⟨added, grown, depicts⟩
    refine ⟨added ++ [node], ?_, ?_⟩
    · simp [grown]
    · rw [NodeSource.postorder]
      exact List.rel_append depicts (.cons (depicts_layoutShell laidNode).1 .nil)

theorem listing_layoutAll {nodes after : Array Node} {indices : List NodeIndex} :
    (sources : List NodeSource) → layoutAll declared tree nodes sources = .ok (indices, after) →
    ∃ added, after.toList = nodes.toList ++ added ∧
      List.Forall₂ (Node.Depicts declared.get?) (NodeSource.postorderOfAll sources) added
  | [], laid => by
    cases laid
    exact ⟨[], by simp, .nil⟩
  | source :: sources, laid => by
    unfold layoutAll at laid
    simp only [bind_eq_ok] at laid
    rcases laid with ⟨⟨index, middle⟩, laidFirst, ⟨indices, last⟩, laidRest, done⟩
    cases done
    rcases listing_layout source laidFirst with ⟨first, grown, depicts⟩
    rcases listing_layoutAll sources laidRest with ⟨rest, grownRest, depictsRest⟩
    refine ⟨first ++ rest, ?_, ?_⟩
    · rw [grownRest, grown, List.append_assoc]
    · rw [NodeSource.postorderOfAll]
      exact List.rel_append depicts depictsRest

end

/-- The nodes of a table are the same in a later one, but for what roots are told. -/
def Remain (nodes later : Array Node) : Prop :=
  ∀ (index : NodeIndex) (node : Node), nodes[index]? = some node → ∃ definition parameters,
    later[index]? = some { node with definition := definition, parameters := parameters }

theorem Remain.of_kept (kept : ∀ index, index < nodes.size → later[index]? = nodes[index]?) :
    Remain nodes later := by
  intro index node found
  have inside := (Array.getElem?_eq_some_iff.1 found).1
  exact ⟨node.definition, node.parameters, (kept index inside).trans found⟩

theorem remain_push (nodes : Array Node) (last : Node) : Remain nodes (nodes.push last) :=
  .of_kept fun index inside => by rw [Array.getElem?_push, if_neg (Nat.ne_of_lt inside)]

theorem remain_modify (nodes : Array Node) (root : NodeIndex) (definition : Option String)
    (parameters : List Parameter) :
    Remain nodes (nodes.modify root fun node =>
      { node with definition := definition, parameters := parameters }) := by
  intro index node found
  rw [Array.getElem?_modify, found]
  split
  · exact ⟨definition, parameters, rfl⟩
  · exact ⟨node.definition, node.parameters, rfl⟩

mutual

theorem Shows.remain {parameters? : String → Option (List Parameter)} (remain : Remain nodes later)
    {index : NodeIndex} : (source : NodeSource) → Shows parameters? nodes index source →
    Shows parameters? later index source
  | .node kind label ports sources, shows => by
    unfold Shows at shows ⊢
    rcases shows with ⟨node, found, depicts, below⟩
    rcases remain index node found with ⟨definition, parameters, foundLater⟩
    exact ⟨_, foundLater, depicts.of_root definition parameters, below.remain remain sources⟩

theorem ShowsAll.remain {parameters? : String → Option (List Parameter)}
    (remain : Remain nodes later) : {indices : List NodeIndex} → (sources : List NodeSource) →
    ShowsAll parameters? nodes indices sources → ShowsAll parameters? later indices sources
  | [], [], _ => trivial
  | _ :: _, source :: sources, shows =>
    ⟨shows.1.remain remain source, shows.2.remain remain sources⟩

end

mutual

/-- The nodes of a source are found from the position of its root. -/
theorem shows_layout {nodes after : Array Node} {index : NodeIndex} : (source : NodeSource) →
    layout declared tree nodes source = .ok (index, after) →
    Shows declared.get? after index source
  | .node kind label ports sources, laid => by
    rw [layout_eq, bind_eq_ok] at laid
    rcases laid with ⟨⟨children, inner⟩, laidAll, laid⟩
    rw [map_eq_ok] at laid
    rcases laid with ⟨node, laidNode, done⟩
    cases done
    rcases depicts_layoutShell laidNode with ⟨depicts, rfl⟩
    exact ⟨node, by simp, depicts, (shows_layoutAll sources laidAll).remain (remain_push _ _) _⟩

theorem shows_layoutAll {nodes after : Array Node} {indices : List NodeIndex} :
    (sources : List NodeSource) → layoutAll declared tree nodes sources = .ok (indices, after) →
    ShowsAll declared.get? after indices sources
  | [], laid => by
    cases laid
    trivial
  | source :: sources, laid => by
    unfold layoutAll at laid
    simp only [bind_eq_ok] at laid
    rcases laid with ⟨⟨index, middle⟩, laidFirst, ⟨indices, last⟩, laidRest, done⟩
    cases done
    have kept := (laidOut_layoutAll sources laidRest).1.kept
    exact ⟨(shows_layout source laidFirst).remain (.of_kept kept) source,
      shows_layoutAll sources laidRest⟩

end

def HasParent (nodes : Array Node) (index : NodeIndex) : Prop :=
  ∃ (upper : NodeIndex) (node : Node), nodes[upper]? = some node ∧ index ∈ node.children

theorem isOrphan_iff : IsOrphan nodes index ↔ ¬ HasParent nodes index := by
  simp [IsOrphan, HasParent]

theorem HasParent.remain (below : HasParent nodes index) (remain : Remain nodes later) :
    HasParent later index := by
  rcases below with ⟨upper, node, found, listed⟩
  rcases remain upper node found with ⟨definition, parameters, foundLater⟩
  exact ⟨upper, _, foundLater, listed⟩

mutual

/-- Of the nodes that are laid out for a source only the last one has no parent. -/
theorem parent_layout {nodes after : Array Node} {root : NodeIndex} : (source : NodeSource) →
    layout declared tree nodes source = .ok (root, after) →
    ∀ index, nodes.size ≤ index → index < after.size → index = root ∨ HasParent after index
  | .node kind label ports sources, laid => by
    rw [layout_eq, bind_eq_ok] at laid
    rcases laid with ⟨⟨children, inner⟩, laidAll, laid⟩
    rw [map_eq_ok] at laid
    rcases laid with ⟨node, laidNode, done⟩
    cases done
    rcases depicts_layoutShell laidNode with ⟨-, rfl⟩
    intro index beyond inside
    have upTo : index ≤ inner.size := by simpa [Nat.lt_succ_iff] using inside
    rcases Nat.eq_or_lt_of_le upTo with last | old
    · exact Or.inl last
    right
    rcases parent_layoutAll sources laidAll index beyond old with listed | below
    · exact ⟨inner.size, node, by simp, listed⟩
    · exact below.remain (remain_push inner node)

theorem parent_layoutAll {nodes after : Array Node} {roots : List NodeIndex} :
    (sources : List NodeSource) → layoutAll declared tree nodes sources = .ok (roots, after) →
    ∀ index, nodes.size ≤ index → index < after.size → index ∈ roots ∨ HasParent after index
  | [], laid => by
    cases laid
    intro index beyond inside
    exact absurd inside (Nat.not_lt.2 beyond)
  | source :: sources, laid => by
    unfold layoutAll at laid
    simp only [bind_eq_ok] at laid
    rcases laid with ⟨⟨root, middle⟩, laidFirst, ⟨roots, last⟩, laidRest, done⟩
    cases done
    have kept := (laidOut_layoutAll sources laidRest).1.kept
    intro index beyond inside
    by_cases old : index < middle.size
    · rcases parent_layout source laidFirst index beyond old with rfl | below
      · exact Or.inl List.mem_cons_self
      · exact Or.inr (below.remain (.of_kept kept))
    · rcases parent_layoutAll sources laidRest index (Nat.le_of_not_lt old) inside with
        listed | below
      · exact Or.inl (List.mem_cons_of_mem _ listed)
      · exact Or.inr below

end

/-- What holds after some definitions were laid out. The nodes are the pictures of those of the
definitions, in their order, and all of them but the roots of definitions have parents. -/
structure Portrays (declared : Table String (List Parameter)) (definitions : List TreeSource)
    (nodes : Array Node) (roots : Table String NodeIndex) : Prop where
  listing : List.Forall₂ (Node.Depicts declared.get?)
    (definitions.flatMap fun definition => definition.root.postorder) nodes.toList
  shown : ∀ definition ∈ definitions, ∃ root, roots.get? definition.name = some root ∧
    Shows declared.get? nodes root definition.root
  parents : ∀ index, index < nodes.size → HasParent nodes index ∨
    ∃ definition ∈ definitions, roots.get? definition.name = some index

theorem portrays_empty : Portrays declared [] #[] .empty := ⟨.nil, by simp, by simp⟩

theorem Portrays.layoutTree {definitions : List TreeSource}
    {roots afterRoots : Table String NodeIndex}
    (portrays : Portrays declared definitions nodes roots)
    (new : ∀ definition ∈ definitions, definition.name ≠ tree.name)
    (laid : layoutTree declared (nodes, roots) tree = .ok (after, afterRoots)) :
    Portrays declared (definitions ++ [tree]) after afterRoots := by
  have remain : Remain nodes after := .of_kept (block_layoutTree laid).1
  unfold BehaviorTree.layoutTree at laid
  rw [bind_eq_ok] at laid
  rcases laid with ⟨⟨root, middle⟩, laidRoot, done⟩
  cases done
  have told := remain_modify middle root (some tree.name) ((declared.get? tree.name).getD [])
  rcases listing_layout tree.root laidRoot with ⟨added, grown, depicts⟩
  refine ⟨?_, ?_, ?_⟩
  · rw [List.flatMap_append, List.flatMap_singleton, Array.toList_modify, grown]
    exact forall₂_modify (fun _ _ depicts => depicts.of_root _ _) root
      (List.rel_append portrays.listing depicts)
  · intro definition listed
    rcases List.mem_append.1 listed with old | last
    · rcases portrays.shown definition old with ⟨other, known, shows⟩
      exact ⟨other, (Table.get?_insert_of_ne (new definition old)).trans known,
        shows.remain remain definition.root⟩
    · cases List.mem_singleton.1 last
      exact ⟨root, Table.get?_insert_self _ _ _, (shows_layout tree.root laidRoot).remain told _⟩
  · intro index inside
    rw [Array.size_modify] at inside
    by_cases old : index < nodes.size
    · rcases portrays.parents index old with below | ⟨definition, listed, known⟩
      · exact Or.inl (below.remain remain)
      · exact Or.inr ⟨definition, List.mem_append_left _ listed,
          (Table.get?_insert_of_ne (new definition listed)).trans known⟩
    · rcases parent_layout tree.root laidRoot index (Nat.le_of_not_lt old) inside with rfl | below
      · exact Or.inr ⟨tree, by simp, Table.get?_insert_self _ _ _⟩
      · exact Or.inl (below.remain told)

theorem Portrays.layoutTrees {definitions trees : List TreeSource}
    {roots afterRoots : Table String NodeIndex}
    (portrays : Portrays declared definitions nodes roots)
    (distinct : ((definitions ++ trees).map TreeSource.name).Nodup)
    (laid : trees.foldlM (BehaviorTree.layoutTree declared) (nodes, roots) =
      .ok (after, afterRoots)) :
    Portrays declared (definitions ++ trees) after afterRoots := by
  induction trees generalizing definitions nodes roots with
  | nil =>
    cases laid
    rwa [List.append_nil]
  | cons tree trees ih =>
    rw [List.foldlM_cons, bind_eq_ok] at laid
    rcases laid with ⟨⟨middle, middleRoots⟩, laidTree, laid⟩
    have new : ∀ definition ∈ definitions, definition.name ≠ tree.name := by
      rw [List.map_append, List.nodup_append] at distinct
      exact fun definition listed => distinct.2.2 _ (List.mem_map_of_mem listed) _ (by simp)
    rw [List.append_cons] at distinct ⊢
    exact ih (portrays.layoutTree new laidTree) distinct laid

namespace Tree

/-- The roots of definitions know the parameters that are declared by them. -/
theorem parameters?_eq {mission : MissionSource} {roots : Table String NodeIndex}
    (main : NodeIndex) (declares : mission.declarations = .ok declared)
    (portrays : Portrays declared mission.trees nodes roots)
    (laid : mission.trees.foldlM (layoutTree declared) (#[], .empty) = .ok (nodes, roots)) :
    parameters? ⟨nodes, roots, main⟩ = declared.get? := by
  funext target
  cases known : roots.get? target with
  | some root =>
    have blocks := blocks_foldlM (fun (tree : TreeSource) (listed : tree ∈ mission.trees) => listed)
      (fun name root impossible => by cases impossible) laid
    rcases blocks target root known with ⟨source, listed, rfl, first, block⟩
    rcases block.root with ⟨definition, found, parameters⟩
    rcases (declarations_parameters declares).2 source listed with ⟨own, declaredOwn, -⟩
    rw [declaredOwn, Option.getD_some] at parameters
    simp [Tree.parameters?, lookup, node?, known, found, parameters, declaredOwn]
  | none =>
    have undeclared : declared.contains target = false := by
      rw [← Bool.not_eq_true, (declarations_names declares).2.2 target]
      rintro (before | named)
      · cases before
      · rcases List.mem_map.1 named with ⟨source, listed, rfl⟩
        rcases portrays.shown source listed with ⟨root, rooted, -⟩
        cases known.symm.trans rooted
    have absent : declared.get? target = none := by simpa [Table.contains] using undeclared
    simp [Tree.parameters?, lookup, known, absent]

/-- A tree that is accepted shows its mission. -/
theorem depicts_ofSource {tree : Tree} {mission : MissionSource}
    (loaded : Tree.ofSource mission = .ok tree) : tree.Depicts mission := by
  have branches := branches_ofSource loaded
  rcases exists_comesFrom loaded with ⟨declared, verified, declares, -, laid, -, -⟩
  rcases tree with ⟨nodes, roots, main⟩
  have distinct := (declarations_names declares).1
  have portrays : Portrays declared mission.trees nodes roots :=
    portrays_empty.layoutTrees distinct laid
  have known := parameters?_eq main declares portrays laid
  refine ⟨known ▸ portrays.listing, known ▸ portrays.shown,
    known ▸ (declarations_parameters declares).2, branches.forest, ?_⟩
  intro index inside
  rw [isOrphan_iff]
  constructor
  · intro orphan
    have within : index < nodes.size := by simpa [Tree.node?] using inside
    exact (portrays.parents index within).resolve_left orphan
  · rintro ⟨definition, -, named⟩
    exact isOrphan_iff.1 (branches.roots definition.name index named)

end Tree

/-- Both references lead to the same definition, with an argument each. -/
def twoVisits : MissionSource :=
  ⟨[⟨"main", [], .node "Sequence" (some "visits") []
      [.node "visit" none [⟨.input, "pause", .constant (.int 1)⟩] [],
        .node "visit" (some "again") [⟨.input, "pause", .path "rest"⟩] []]⟩,
    ⟨"visit", [⟨"pause", "float", none⟩], .node "Retry" none
      [⟨.input, "max_attempts", .constant (.int 3)⟩, ⟨.output, "attempt", .path "tries"⟩]
      [.node "Sleep" none [⟨.input, "seconds", .parameter "pause"⟩] []]⟩]⟩

def twoVisitsTree : Tree := (Tree.ofSource twoVisits).toOption.getD default

set_option maxRecDepth 100000 in
theorem twoVisitsTree_depicts_twoVisits : twoVisitsTree.Depicts twoVisits ∧
    twoVisitsTree.nodes.size = 5 ∧ twoVisitsTree.lookup "main" = some 2 ∧
    twoVisitsTree.lookup "visit" = some 4 := by
  have loaded : Tree.ofSource twoVisits = .ok twoVisitsTree := by cbv
  exact ⟨Tree.depicts_ofSource loaded, by cbv, by cbv, by cbv⟩

end BehaviorTree
