import BehaviorTree.Engine.Halt
import BehaviorTree.Proofs.Table
import BehaviorTree.Proofs.Tree.Layout
import BehaviorTree.Proofs.Tree.Recursion
import Mathlib.Data.Finset.Card

/-!
# Well-formed trees

A tree is well formed if its nodes fit their kinds, its children and references lead to nodes, and
no way down through children and references meets a node twice. The last condition is a rank, less
than the number of nodes, that goes down with every step. Every tree of a mission source is well
formed: the rank orders nodes by their definitions first and by their positions second.
-/

namespace BehaviorTree

namespace Tree

/-- Where a node leads: to its children, and from a reference to the root of its target. -/
inductive Leads (tree : Tree) : NodeIndex → NodeIndex → Prop where
  | child {index child : NodeIndex} {node : Node} (found : tree.node? index = some node)
      (listed : child ∈ node.children) : Leads tree index child
  /-- To the root of the definition to which a reference refers. -/
  | target {index root : NodeIndex} {node : Node} {target : String}
      (found : tree.node? index = some node)
      (configured : node.configuration = some (.reference target))
      (known : tree.lookup target = some root) : Leads tree index root

/-- A rank of nodes that goes down on every way and is less than the number of nodes. -/
structure Ranking (tree : Tree) (rank : NodeIndex → Nat) : Prop where
  descends : ∀ upper lower, tree.Leads upper lower → rank lower < rank upper
  bounded : ∀ index, (tree.node? index).isSome → rank index < tree.nodes.size

/-- A tree that can be run. -/
structure WellFormed (tree : Tree) : Prop where
  fits : ∀ index node, tree.node? index = some node → node.Fits
  closed : ∀ upper lower, tree.Leads upper lower → (tree.node? lower).isSome
  resolved : ∀ index node target, tree.node? index = some node →
    node.configuration = some (.reference target) → ∃ root, tree.lookup target = some root
  rooted : (tree.node? tree.main).isSome
  ranked : ∃ rank, tree.Ranking rank

/-- How many nodes of a table stand lower than a node, by a measure of nodes. -/
def height (size : Nat) (measure : NodeIndex → Nat) (index : NodeIndex) : Nat :=
  ((Finset.range size).filter fun other => measure other < measure index).card

theorem height_lt {size : Nat} {measure : NodeIndex → Nat} {index : NodeIndex}
    (inside : index < size) : height size measure index < size := by
  have proper : (Finset.range size).filter (fun other => measure other < measure index) ⊂
      Finset.range size := by
    rw [Finset.filter_ssubset]
    exact ⟨index, Finset.mem_range.2 inside, Nat.lt_irrefl _⟩
  simpa [height] using Finset.card_lt_card proper

theorem height_mono {size : Nat} {measure : NodeIndex → Nat} {lower upper : NodeIndex}
    (inside : lower < size) (less : measure lower < measure upper) :
    height size measure lower < height size measure upper := by
  apply Finset.card_lt_card
  rw [Finset.ssubset_iff_of_subset]
  · refine ⟨lower, ?_, ?_⟩
    · simpa using ⟨inside, less⟩
    · simp
  · intro other listed
    simp only [Finset.mem_filter] at listed ⊢
    exact ⟨listed.1, Nat.lt_trans listed.2 less⟩

end Tree

variable {mission : MissionSource} {declared : Table String (List Parameter)}

/-- Definitions have different names, and exactly their parameters are declared. -/
theorem declarations_names {trees : List TreeSource} {before : Table String (List Parameter)}
    (folded : trees.foldlM (fun declared tree => do
      if declared.contains tree.name then throw (.duplicateTree tree.name)
      let parameters ← tree.parameters.mapM (ParameterSource.declare tree.name)
      return declared.insert tree.name parameters) before =
        (.ok declared : Except LoadError (Table String (List Parameter)))) :
    (trees.map TreeSource.name).Nodup ∧
      (∀ tree ∈ trees, before.contains tree.name = false) ∧
      ∀ name, declared.contains name = true ↔
        before.contains name = true ∨ name ∈ trees.map TreeSource.name := by
  induction trees generalizing before with
  | nil =>
    cases folded
    simp
  | cons tree trees ih =>
    rw [List.foldlM_cons, bind_eq_ok] at folded
    rcases folded with ⟨middle, step, folded⟩
    split at step
    · cases step
    rename_i new
    dsimp only at step
    rw [bind_eq_ok] at step
    rcases step with ⟨parameters, -, done⟩
    cases done
    rcases ih folded with ⟨distinct, unknown, known⟩
    have contains : ∀ name, (before.insert tree.name parameters).contains name = true ↔
        name = tree.name ∨ before.contains name = true := by
      intro name
      by_cases same : name = tree.name <;> simp [Table.contains, Table.get?_insert, same]
    refine ⟨?_, ?_, ?_⟩
    · rw [List.map_cons, List.nodup_cons]
      refine ⟨?_, distinct⟩
      intro repeated
      rcases List.mem_map.1 repeated with ⟨other, listed, sameName⟩
      have absent := unknown other listed
      rw [← Bool.not_eq_true, contains] at absent
      exact absent (Or.inl sameName)
    · intro other listed
      rcases List.mem_cons.1 listed with rfl | listed
      · simpa using new
      · have absent := unknown other listed
        rw [← Bool.not_eq_true, contains, not_or] at absent
        simpa using absent.2
    · intro name
      rw [known, contains, List.map_cons, List.mem_cons]
      tauto

/-- What holds after some definitions of a mission were laid out. Every node belongs to a
definition, and stays in it or refers to a definition to which its own one refers. -/
structure Assembled (mission : MissionSource) (declared : Table String (List Parameter))
    (nodes : Array Node) (roots : Table String NodeIndex) (owner : NodeIndex → String) : Prop where
  placed : ∀ index (node : Node), nodes[index]? = some node →
    node.Placed declared (mission.referencesOf (owner index)) 0 index
  together : ∀ index (node : Node) child, nodes[index]? = some node → child ∈ node.children →
    owner child = owner index
  owned : ∀ name root, roots.get? name = some root → root < nodes.size ∧ owner root = name

theorem assembled_empty : Assembled mission declared #[] .empty fun _ => "" := by
  refine ⟨by simp, by simp, ?_⟩
  intro name root found
  cases found

theorem Node.Placed.of_root {references : List String} {first index : NodeIndex} {node : Node}
    (placed : node.Placed declared references first index) (definition : Option String)
    (parameters : List Parameter) :
    Node.Placed declared references first index
      { node with definition := definition, parameters := parameters } :=
  ⟨⟨placed.fits.configured, placed.fits.completed, placed.fits.reference, placed.fits.counted⟩,
    placed.children, placed.target⟩

/-- To tell a node what it is the root of leaves its place, children and configuration alone. -/
theorem exists_of_modify {nodes : Array Node} {root index : NodeIndex} {node : Node}
    {definition : Option String} {parameters : List Parameter}
    (found : (nodes.modify root fun node =>
      { node with definition := definition, parameters := parameters })[index]? = some node) :
    ∃ inner definition parameters, nodes[index]? = some inner ∧
      node = { inner with definition := definition, parameters := parameters } := by
  rw [Array.getElem?_modify] at found
  split at found
  · rw [Option.map_eq_some_iff] at found
    rcases found with ⟨inner, found, rfl⟩
    exact ⟨inner, _, _, found, rfl⟩
  · exact ⟨node, node.definition, node.parameters, found, rfl⟩

theorem Assembled.layoutTree {tree : TreeSource} {nodes after : Array Node}
    {roots afterRoots : Table String NodeIndex} {owner : NodeIndex → String}
    (assembled : Assembled mission declared nodes roots owner)
    (references : mission.referencesOf tree.name = tree.root.references)
    (laid : layoutTree declared (nodes, roots) tree = .ok (after, afterRoots)) :
    (∃ newOwner, Assembled mission declared after afterRoots newOwner) ∧
      ∀ name, afterRoots.contains name = true ↔ name = tree.name ∨ roots.contains name = true := by
  unfold BehaviorTree.layoutTree at laid
  rw [bind_eq_ok] at laid
  rcases laid with ⟨⟨root, middle⟩, laidRoot, done⟩
  cases done
  have ⟨laidOut, atLeast, last⟩ := laidOut_layout tree.root laidRoot
  have grows : nodes.size ≤ middle.size := laidOut.grows
  refine ⟨⟨fun index => if index < nodes.size then owner index else tree.name, ?_, ?_, ?_⟩, ?_⟩
  · intro index node changed
    rcases exists_of_modify changed with ⟨inner, definition, parameters, found, rfl⟩
    apply Node.Placed.of_root
    by_cases old : index < nodes.size
    · rw [laidOut.kept index old] at found
      simpa [old] using assembled.placed index inner found
    · have placed := laidOut.placed index inner (Nat.le_of_not_lt old) found
      simpa [old, references] using placed.mono (fun _ listed => listed) (Nat.zero_le _)
  · intro index node child changed listed
    rcases exists_of_modify changed with ⟨inner, definition, parameters, found, rfl⟩
    by_cases old : index < nodes.size
    · rw [laidOut.kept index old] at found
      have before := ((assembled.placed index inner found).children child listed).2
      have childOld : child < nodes.size := Nat.lt_trans before old
      simpa [old, childOld] using assembled.together index inner child found listed
    · have placed := laidOut.placed index inner (Nat.le_of_not_lt old) found
      have childNew : ¬ child < nodes.size := Nat.not_lt.2 (placed.children child listed).1
      simp [old, childNew]
  · intro name other found
    rw [Table.get?_insert] at found
    rw [Array.size_modify]
    split at found
    · rename_i same
      cases found
      have inside : root < middle.size := Nat.lt_of_lt_of_eq (Nat.lt_succ_self root) last
      exact ⟨inside, by simp [same, Nat.not_lt.2 atLeast]⟩
    · have owned := assembled.owned name other found
      exact ⟨Nat.lt_of_lt_of_le owned.1 grows, by simp [owned.1, owned.2]⟩
  · intro name
    by_cases same : name = tree.name <;> simp [Table.contains, Table.get?_insert, same]

theorem exists_assembled {trees : List TreeSource} {nodes after : Array Node}
    {roots afterRoots : Table String NodeIndex} {owner : NodeIndex → String}
    (assembled : Assembled mission declared nodes roots owner)
    (references : ∀ tree ∈ trees, mission.referencesOf tree.name = tree.root.references)
    (laid : trees.foldlM (layoutTree declared) (nodes, roots) = .ok (after, afterRoots)) :
    (∃ newOwner, Assembled mission declared after afterRoots newOwner) ∧
      ∀ name, afterRoots.contains name = true ↔
        name ∈ trees.map TreeSource.name ∨ roots.contains name = true := by
  induction trees generalizing nodes roots owner with
  | nil =>
    cases laid
    exact ⟨⟨owner, assembled⟩, by simp⟩
  | cons tree trees ih =>
    rw [List.foldlM_cons, bind_eq_ok] at laid
    rcases laid with ⟨⟨middle, middleRoots⟩, laidTree, laid⟩
    rcases assembled.layoutTree (references tree List.mem_cons_self) laidTree with
      ⟨⟨newOwner, assembledTree⟩, contains⟩
    rcases ih assembledTree (fun other listed => references other (List.mem_cons_of_mem _ listed))
      laid with ⟨assembledAll, containsAll⟩
    refine ⟨assembledAll, ?_⟩
    intro name
    rw [containsAll, contains, List.map_cons, List.mem_cons]
    tauto

namespace MissionSource

/-- The place of a node in an order of the definitions: first by its own definition, then by its
position among fewer than `size` others. -/
def placeOf (order : List String) (size : Nat) (owner : NodeIndex → String)
    (index : NodeIndex) : Nat :=
  rankIn order (owner index) * size + index

theorem mem_of_refers {order : List String} (reached : ∀ tree ∈ mission.trees, tree.name ∈ order)
    {name target : String} (refers : target ∈ mission.referencesOf name) : name ∈ order := by
  unfold referencesOf at refers
  split at refers
  · rename_i tree located
    have named : tree.name = name := by simpa using List.find?_some located
    exact named ▸ reached tree (List.mem_of_find?_eq_some located)
  · cases refers

end MissionSource

namespace Assembled

variable {nodes : Array Node} {roots : Table String NodeIndex} {owner : NodeIndex → String}
  {main upper lower : NodeIndex}

theorem lt_size (assembled : Assembled mission declared nodes roots owner)
    (leads : Tree.Leads ⟨nodes, roots, main⟩ upper lower) : lower < nodes.size := by
  cases leads with
  | child found listed =>
    have upperInside := (Array.getElem?_eq_some_iff.1 found).1
    exact Nat.lt_trans ((assembled.placed _ _ found).children _ listed).2 upperInside
  | target found configured known => exact (assembled.owned _ _ known).1

/-- Children have lower positions, and targets belong to definitions of lower rank. -/
theorem placeOf_lt (assembled : Assembled mission declared nodes roots owner)
    {order : List String} (ordered : mission.Postorder order)
    (reached : ∀ tree ∈ mission.trees, tree.name ∈ order)
    (leads : Tree.Leads ⟨nodes, roots, main⟩ upper lower) :
    MissionSource.placeOf order nodes.size owner lower <
      MissionSource.placeOf order nodes.size owner upper := by
  have inside := assembled.lt_size leads
  unfold MissionSource.placeOf
  cases leads with
  | child found listed =>
    have before := ((assembled.placed _ _ found).children _ listed).2
    rw [assembled.together _ _ _ found listed]
    exact Nat.add_lt_add_left before _
  | target found configured known =>
    have refers := ((assembled.placed _ _ found).target _ configured).1
    have descends := ordered.rankIn_lt (MissionSource.mem_of_refers reached refers) refers
    rw [← (assembled.owned _ _ known).2] at descends
    calc MissionSource.rankIn order (owner lower) * nodes.size + lower
        < MissionSource.rankIn order (owner lower) * nodes.size + nodes.size :=
          Nat.add_lt_add_left inside _
      _ = (MissionSource.rankIn order (owner lower) + 1) * nodes.size :=
          (Nat.succ_mul _ _).symm
      _ ≤ MissionSource.rankIn order (owner upper) * nodes.size :=
          Nat.mul_le_mul_right _ descends
      _ ≤ MissionSource.rankIn order (owner upper) * nodes.size + upper := Nat.le_add_right _ _

end Assembled

theorem Tree.wellFormed_ofSource {tree : Tree} (loaded : Tree.ofSource mission = .ok tree) :
    tree.WellFormed := by
  rcases exists_comesFrom loaded with ⟨declared, verified, declares, -, laid, checked, mainRoot⟩
  rcases declarations_names declares with ⟨distinct, -, known⟩
  rcases tree with ⟨nodes, roots, main⟩
  rcases exists_assembled assembled_empty
    (fun tree listed => MissionSource.referencesOf_eq distinct listed) laid with
    ⟨⟨owner, assembled⟩, contains⟩
  rcases MissionSource.postorder_checkRecursion checked distinct with ⟨ordered, reached⟩
  have resolved : ∀ target, declared.contains target = true →
      ∃ root, roots.get? target = some root := by
    intro target isDeclared
    have named : target ∈ mission.trees.map TreeSource.name := by
      simpa [Table.contains] using (known target).1 isDeclared
    exact Table.contains_iff.1 ((contains target).2 (Or.inl named))
  refine ⟨?_, ?_, ?_, ?_, height nodes.size
    (MissionSource.placeOf verified nodes.size owner), ?_, ?_⟩
  · intro index node found
    exact (assembled.placed index node found).fits
  · intro upper lower leads
    simp [node?, assembled.lt_size leads]
  · intro index node target found configured
    exact resolved target ((assembled.placed index node found).target target configured).2
  · simp [node?, (assembled.owned "main" main mainRoot).1]
  · intro upper lower leads
    exact height_mono (assembled.lt_size leads) (assembled.placeOf_lt ordered reached leads)
  · intro index isNode
    apply height_lt
    simpa [node?] using isNode

end BehaviorTree
