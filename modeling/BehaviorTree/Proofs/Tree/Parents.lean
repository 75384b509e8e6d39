import BehaviorTree.Proofs.Tree.WellFormed

/-!
# Parents of nodes

When a source is laid out, a node becomes a child once: of the node that is laid out right after it
and its siblings. So the nodes of a tree form a forest. A node is listed by one parent at most, and
the roots of definitions are listed by none. References lead from one tree of the forest to the root
of another one.
-/

namespace BehaviorTree

/-- No node of a table lists another one as its child. -/
def IsOrphan (nodes : Array Node) (index : NodeIndex) : Prop :=
  ∀ (upper : NodeIndex) (node : Node), nodes[upper]? = some node → index ∉ node.children

/-- Children stand before their parents, and every node is a child once at most. -/
structure IsForest (nodes : Array Node) : Prop where
  before : ∀ (index : NodeIndex) (node : Node) child, nodes[index]? = some node →
    child ∈ node.children → child < index
  once : ∀ (index : NodeIndex) (node : Node), nodes[index]? = some node → node.children.Nodup
  alone : ∀ (one other : NodeIndex) (node nodeToo : Node) child, nodes[one]? = some node →
    nodes[other]? = some nodeToo → child ∈ node.children → child ∈ nodeToo.children → one = other

variable {declared : Table String (List Parameter)} {references : List String}
  {tree : TreeSource} {nodes after : Array Node} {node : Node} {index : NodeIndex}

theorem isForest_empty : IsForest #[] := ⟨by simp, by simp, by simp⟩

/-- Nothing comes after the last node, so it has no parent. -/
theorem IsForest.orphan_of_size_le (forest : IsForest nodes) (last : nodes.size ≤ index + 1) :
    IsOrphan nodes index := by
  intro upper node found listed
  have inside := (Array.getElem?_eq_some_iff.1 found).1
  have notAfter : upper ≤ index := Nat.le_of_lt_succ (Nat.lt_of_lt_of_le inside last)
  exact Nat.not_lt.2 notAfter (forest.before upper node index found listed)

/-- Orphans that stand in a table can be made the children of a new node. -/
theorem IsForest.push (forest : IsForest nodes) (distinct : node.children.Nodup)
    (inside : ∀ child ∈ node.children, child < nodes.size)
    (orphans : ∀ child ∈ node.children, IsOrphan nodes child) : IsForest (nodes.push node) := by
  refine ⟨?_, ?_, ?_⟩
  · intro upper other child found listed
    rw [Array.getElem?_push] at found
    split at found
    · rename_i new
      cases found
      exact new ▸ inside child listed
    · exact forest.before upper other child found listed
  · intro upper other found
    rw [Array.getElem?_push] at found
    split at found
    · cases found
      exact distinct
    · exact forest.once upper other found
  · intro one other first second child found foundToo listed listedToo
    rw [Array.getElem?_push] at found foundToo
    split at found <;> split at foundToo
    · rename_i new newToo
      rw [new, newToo]
    · cases found
      exact absurd listedToo (orphans child listed other second foundToo)
    · cases foundToo
      exact absurd listed (orphans child listedToo one first found)
    · exact forest.alone one other first second child found foundToo listed listedToo

/-- What is laid out later has no children among the nodes that were there before. -/
theorem LaidOut.orphan {before : Array Node} (laidOut : LaidOut declared references before after)
    (orphan : IsOrphan before index) (old : index < before.size) : IsOrphan after index := by
  intro upper node found
  by_cases known : upper < before.size
  · rw [laidOut.kept upper known] at found
    exact orphan upper node found
  · have placed := laidOut.placed upper node (Nat.le_of_not_lt known) found
    intro listed
    exact absurd old (Nat.not_lt.2 (placed.children index listed).1)

mutual

/-- A node that is laid out has no parent yet. -/
theorem forest_layout {nodes after : Array Node} {index : NodeIndex} (forest : IsForest nodes) :
    (source : NodeSource) → layout declared tree nodes source = .ok (index, after) →
    IsForest after ∧ IsOrphan after index
  | .node kindName label ports sources, laid => by
    unfold layout at laid
    rw [bind_eq_ok] at laid
    rcases laid with ⟨⟨children, inner⟩, laidAll, laid⟩
    have ⟨deeper, distinct, orphans⟩ := forest_layoutAll forest sources laidAll
    have inside := (laidOut_layoutAll sources laidAll).2
    -- Either way the new node comes last, and its children are among those just laid out.
    have pushed : ∀ node : Node, node.children = children ∨ node.children = [] →
        IsForest (inner.push node) ∧ IsOrphan (inner.push node) inner.size := by
      intro node listing
      have grown : IsForest (inner.push node) := by
        rcases listing with same | none
        · exact deeper.push (same ▸ distinct) (same ▸ fun child listed => (inside child listed).2)
            (same ▸ orphans)
        · exact deeper.push (by simp [none]) (by simp [none]) (by simp [none])
      exact ⟨grown, grown.orphan_of_size_le (by simp)⟩
    simp only at laid
    split at laid
    · rename_i kind _ named
      rw [bind_eq_ok] at laid
      rcases laid with ⟨node, laidNode, done⟩
      cases done
      exact pushed node (Or.inl (layoutNode_fits (ofName?_ne_reference named) laidNode).2.1)
    · simp only [bind_eq_ok, mapError_eq_ok] at laid
      rcases laid with ⟨node, laidNode, done⟩
      cases done
      exact pushed node (Or.inr (layoutReference_fits laidNode).2.1)
    · cases laid

/-- Nodes that are laid out one after the other are different, and have no parent yet. -/
theorem forest_layoutAll {nodes after : Array Node} {indices : List NodeIndex}
    (forest : IsForest nodes) :
    (sources : List NodeSource) → layoutAll declared tree nodes sources = .ok (indices, after) →
    IsForest after ∧ indices.Nodup ∧ ∀ index ∈ indices, IsOrphan after index
  | [], laid => by
    cases laid
    exact ⟨forest, List.nodup_nil, by simp⟩
  | source :: sources, laid => by
    unfold layoutAll at laid
    rw [bind_eq_ok] at laid
    rcases laid with ⟨⟨index, middle⟩, laidFirst, laid⟩
    simp only [bind_eq_ok] at laid
    rcases laid with ⟨⟨rest, last⟩, laidRest, done⟩
    cases done
    have ⟨forestFirst, orphan⟩ := forest_layout forest source laidFirst
    have ⟨forestRest, distinct, orphans⟩ := forest_layoutAll forestFirst sources laidRest
    have ⟨_, _, atMost⟩ := laidOut_layout source laidFirst
    have ⟨laidOut, inside⟩ := laidOut_layoutAll sources laidRest
    have inMiddle : index < middle.size := Nat.lt_of_lt_of_eq (Nat.lt_succ_self index) atMost
    refine ⟨forestRest, List.nodup_cons.2 ⟨fun listed => ?_, distinct⟩, ?_⟩
    · exact absurd inMiddle (Nat.not_lt.2 (inside index listed).1)
    · intro child listed
      rcases List.mem_cons.1 listed with rfl | listed
      · exact laidOut.orphan orphan inMiddle
      · exact orphans child listed

end

/-- The definitions that were laid out form a forest, of which their roots are roots. -/
def Sprouts (state : Array Node × Table String NodeIndex) : Prop :=
  IsForest state.1 ∧
    ∀ name root, state.2.get? name = some root → root < state.1.size ∧ IsOrphan state.1 root

theorem sprouts_layoutTree {state stateAfter : Array Node × Table String NodeIndex}
    (sprouts : Sprouts state) (laid : layoutTree declared state tree = .ok stateAfter) :
    Sprouts stateAfter := by
  unfold layoutTree at laid
  rw [bind_eq_ok] at laid
  rcases laid with ⟨⟨root, middle⟩, laidRoot, done⟩
  cases done
  have ⟨forest, orphan⟩ := forest_layout sprouts.1 tree.root laidRoot
  have ⟨laidOut, _, last⟩ := laidOut_layout tree.root laidRoot
  refine ⟨⟨?_, ?_, ?_⟩, ?_⟩
  · intro index node child changed listed
    rcases exists_of_modify changed with ⟨inner, definition, parameters, found, rfl⟩
    exact forest.before index inner child found listed
  · intro index node changed
    rcases exists_of_modify changed with ⟨inner, definition, parameters, found, rfl⟩
    exact forest.once index inner found
  · intro one other node nodeToo child changed changedToo listed listedToo
    rcases exists_of_modify changed with ⟨inner, definition, parameters, found, rfl⟩
    rcases exists_of_modify changedToo with ⟨innerToo, definition, parameters, foundToo, rfl⟩
    exact forest.alone one other inner innerToo child found foundToo listed listedToo
  · intro name other known
    have rooted : other < middle.size ∧ IsOrphan middle other := by
      rw [Table.get?_insert] at known
      split at known
      · cases known
        exact ⟨Nat.lt_of_lt_of_eq (Nat.lt_succ_self root) last, orphan⟩
      · have old := sprouts.2 name other known
        exact ⟨Nat.lt_of_lt_of_le old.1 laidOut.grows, laidOut.orphan old.2 old.1⟩
    refine ⟨by rw [Array.size_modify]; exact rooted.1, ?_⟩
    intro upper node changed
    rcases exists_of_modify changed with ⟨inner, definition, parameters, found, rfl⟩
    exact rooted.2 upper inner found

theorem sprouts_foldlM {trees : List TreeSource}
    {state stateAfter : Array Node × Table String NodeIndex} (sprouts : Sprouts state)
    (laid : trees.foldlM (layoutTree declared) state = .ok stateAfter) : Sprouts stateAfter := by
  induction trees generalizing state with
  | nil =>
    cases laid
    exact sprouts
  | cons tree trees ih =>
    rw [List.foldlM_cons, bind_eq_ok] at laid
    rcases laid with ⟨middle, laidTree, laid⟩
    exact ih (sprouts_layoutTree sprouts laidTree) laid

namespace Tree

/-- The nodes of a tree form a forest, of which the roots of definitions are roots. -/
structure Branches (tree : Tree) : Prop where
  forest : IsForest tree.nodes
  roots : ∀ name root, tree.lookup name = some root → IsOrphan tree.nodes root
  main : tree.lookup "main" = some tree.main

theorem branches_ofSource {tree : Tree} {mission : MissionSource}
    (loaded : Tree.ofSource mission = .ok tree) : tree.Branches := by
  rcases exists_comesFrom loaded with ⟨declared, verified, comes⟩
  have initially : Sprouts (#[], .empty) := ⟨isForest_empty, fun _ _ known => by cases known⟩
  have sprouts := sprouts_foldlM initially comes.laid
  exact ⟨sprouts.1, fun name root known => (sprouts.2 name root known).2, comes.main⟩

end Tree

end BehaviorTree
