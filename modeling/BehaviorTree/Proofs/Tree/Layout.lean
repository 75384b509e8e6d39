import BehaviorTree.Proofs.Node.Configuration
import BehaviorTree.Tree.Layout

/-!
# Places of nodes

A source is laid out behind the nodes that are there already. Every node fits its kind, the
children of a node stand between the start of its definition and itself, and a reference names a
declared definition that the source refers to.
-/

namespace BehaviorTree

/-- A node stands where it may in a definition whose first node is `first`. -/
structure Node.Placed (declared : Table String (List Parameter)) (references : List String)
    (first index : NodeIndex) (node : Node) : Prop where
  fits : node.Fits
  /-- The children stand before the node, in the same definition. -/
  children : ∀ child ∈ node.children, first ≤ child ∧ child < index
  target : ∀ target, node.configuration = some (.reference target) →
    target ∈ references ∧ declared.contains target = true

variable {declared : Table String (List Parameter)} {references : List String}
  {tree : TreeSource} {source : NodeSource} {children : List NodeIndex} {node : Node}

theorem Node.Placed.mono {more : List String} {first earlier index : NodeIndex}
    (placed : node.Placed declared references first index)
    (included : ∀ target ∈ references, target ∈ more) (before : earlier ≤ first) :
    node.Placed declared more earlier index := by
  refine ⟨placed.fits, ?_, ?_⟩
  · intro child listed
    have range := placed.children child listed
    exact ⟨Nat.le_trans before range.1, range.2⟩
  · intro target configured
    have known := placed.target target configured
    exact ⟨included target known.1, known.2⟩

theorem ofName?_ne_reference {name : String} {kind : NodeKind}
    (named : NodeKind.ofName? name = some kind) : kind ≠ .reference := by
  have listed := List.mem_of_find?_eq_some named
  rintro rfl
  revert listed
  decide

/-- A node of a kind that sources can name fits that kind. -/
theorem layoutNode_fits {kind : NodeKind} (ordinary : kind ≠ .reference)
    (laid : layoutNode tree kind source children = .ok node) :
    node.Fits ∧ node.children = children ∧ node.kind = kind := by
  unfold layoutNode at laid
  split at laid
  · cases laid
  rename_i counted
  dsimp only at laid
  rw [bind_eq_ok] at laid
  rcases laid with ⟨ports, -, laid⟩
  split at laid
  · cases laid
  split at laid
  · rename_i configuration configured
    cases laid
    refine ⟨⟨?_, by simp, ?_, by simpa using counted⟩, rfl, rfl⟩
    · intro chosen same
      cases same
      exact configure_kind configured
    · intro isReference
      exact absurd isReference ordinary
  · cases laid
  · split at laid
    · cases laid
    · rename_i given
      cases laid
      refine ⟨⟨by simp, ?_, ?_, by simpa using counted⟩, rfl, rfl⟩
      · intro _
        simpa using given
      · intro isReference
        exact absurd isReference ordinary

theorem layoutReference_fits {parameters : List Parameter}
    (laid : layoutReference tree parameters source children = .ok node) :
    node.Fits ∧ node.children = [] ∧ node.configuration = some (.reference source.kind) := by
  unfold layoutReference at laid
  split at laid
  · cases laid
  rename_i none
  simp only [bind_eq_ok] at laid
  rcases laid with ⟨arguments, -, laid⟩
  split at laid
  · cases laid
  cases laid
  have childless : children = [] := by simpa using none
  subst childless
  refine ⟨⟨?_, ?_, ?_, rfl⟩, rfl, rfl⟩
  · intro configuration configured
    cases configured
    rfl
  · intro missing
    cases missing
  · intro kind
    exact ⟨rfl, _, rfl⟩

/-- Nodes that are laid out behind others, all of them in their places. -/
structure LaidOut (declared : Table String (List Parameter)) (references : List String)
    (before after : Array Node) : Prop where
  grows : before.size ≤ after.size
  kept : ∀ index, index < before.size → after[index]? = before[index]?
  placed : ∀ index node, before.size ≤ index → after[index]? = some node →
    node.Placed declared references before.size index

namespace LaidOut

variable {before middle after : Array Node}

theorem refl (nodes : Array Node) : LaidOut declared references nodes nodes := by
  refine ⟨Nat.le_refl _, fun _ _ => rfl, ?_⟩
  intro index node beyond found
  have inside := (Array.getElem?_eq_some_iff.1 found).1
  omega

theorem trans {more : List String} (first : LaidOut declared references before middle)
    (second : LaidOut declared more middle after) :
    LaidOut declared (references ++ more) before after := by
  refine ⟨Nat.le_trans first.grows second.grows, ?_, ?_⟩
  · intro index inside
    rw [second.kept index (Nat.lt_of_lt_of_le inside first.grows), first.kept index inside]
  · intro index node beyond found
    by_cases old : index < middle.size
    · rw [second.kept index old] at found
      exact (first.placed index node beyond found).mono (fun _ listed => by simp [listed])
        (Nat.le_refl _)
    · exact (second.placed index node (Nat.le_of_not_lt old) found).mono
        (fun _ listed => by simp [listed]) first.grows

theorem push (first : LaidOut declared references before middle) {more : List String}
    (included : ∀ target ∈ references, target ∈ more)
    (placed : node.Placed declared more before.size middle.size) :
    LaidOut declared more before (middle.push node) := by
  refine ⟨?_, ?_, ?_⟩
  · rw [Array.size_push]
    exact Nat.le_succ_of_le first.grows
  · intro index inside
    rw [Array.getElem?_push, if_neg (by have := first.grows; omega)]
    exact first.kept index inside
  · intro index other beyond found
    rw [Array.getElem?_push] at found
    split at found
    · rename_i last
      cases found
      rw [last]
      exact placed
    · exact (first.placed index other beyond found).mono included (Nat.le_refl _)

end LaidOut

mutual

/-- A node comes last of everything that is laid out for it. -/
theorem laidOut_layout {nodes after : Array Node} {index : NodeIndex} : (source : NodeSource) →
    layout declared tree nodes source = .ok (index, after) →
    LaidOut declared source.references nodes after ∧ nodes.size ≤ index ∧ index + 1 = after.size
  | .node kindName label ports sources, laid => by
    unfold layout at laid
    rw [bind_eq_ok] at laid
    rcases laid with ⟨⟨children, inner⟩, laidAll, laid⟩
    have ⟨deeper, inside⟩ := laidOut_layoutAll sources laidAll
    simp only at laid
    split at laid
    · rename_i kind _ named
      rw [bind_eq_ok] at laid
      rcases laid with ⟨node, laidNode, done⟩
      cases done
      have ⟨fits, sameChildren, sameKind⟩ :=
        layoutNode_fits (ofName?_ne_reference named) laidNode
      refine ⟨?_, deeper.grows, by simp⟩
      have references : (NodeSource.node kindName label ports sources).references =
          NodeSource.referencesOfAll sources := by
        simp [NodeSource.references, named]
      rw [references]
      refine deeper.push (fun _ listed => listed) ⟨fits, ?_, ?_⟩
      · rw [sameChildren]
        exact inside
      · intro target configured
        have kind := fits.kind_eq_reference_iff.2 ⟨target, configured⟩
        rw [sameKind] at kind
        exact absurd kind (ofName?_ne_reference named)
    · rename_i parameters unnamed known
      simp only [bind_eq_ok, mapError_eq_ok] at laid
      rcases laid with ⟨node, laidNode, done⟩
      cases done
      have ⟨fits, childless, configured⟩ := layoutReference_fits laidNode
      refine ⟨?_, deeper.grows, by simp⟩
      have references : (NodeSource.node kindName label ports sources).references =
          kindName :: NodeSource.referencesOfAll sources := by
        simp [NodeSource.references, unnamed]
      rw [references]
      refine deeper.push (fun _ listed => List.mem_cons_of_mem _ listed) ⟨fits, ?_, ?_⟩
      · simp [childless]
      · intro target same
        rw [configured] at same
        cases same
        exact ⟨by simp [NodeSource.kind], by simp [NodeSource.kind, Table.contains, known]⟩
    · cases laid

/-- Nodes that are laid out one after the other stand between what was there and the end. -/
theorem laidOut_layoutAll {nodes after : Array Node} {indices : List NodeIndex} :
    (sources : List NodeSource) → layoutAll declared tree nodes sources = .ok (indices, after) →
    LaidOut declared (NodeSource.referencesOfAll sources) nodes after ∧
      ∀ index ∈ indices, nodes.size ≤ index ∧ index < after.size
  | [], laid => by
    cases laid
    exact ⟨.refl nodes, by simp⟩
  | source :: sources, laid => by
    unfold layoutAll at laid
    rw [bind_eq_ok] at laid
    rcases laid with ⟨⟨index, middle⟩, laidFirst, laid⟩
    simp only [bind_eq_ok] at laid
    rcases laid with ⟨⟨rest, last⟩, laidRest, done⟩
    cases done
    have ⟨first, atLeast, atMost⟩ := laidOut_layout source laidFirst
    have ⟨second, inside⟩ := laidOut_layoutAll sources laidRest
    refine ⟨first.trans second, ?_⟩
    intro child listed
    have grown : middle.size ≤ last.size := second.grows
    rcases List.mem_cons.1 listed with rfl | listed
    · have inside : child < middle.size := Nat.lt_of_lt_of_eq (Nat.lt_succ_self child) atMost
      exact ⟨atLeast, Nat.lt_of_lt_of_le inside grown⟩
    · have range := inside child listed
      have below := first.grows
      exact ⟨Nat.le_trans below range.1, range.2⟩

end

namespace Tree

/-- How a tree comes from a mission: the parameters of the definitions are declared, the definitions
are laid out one after the other, and no recursion is found among them. -/
structure ComesFrom (tree : Tree) (mission : MissionSource)
    (declared : Table String (List Parameter)) (verified : List String) : Prop where
  declares : mission.declarations = .ok declared
  hasMain : declared.contains "main" = true
  laid : mission.trees.foldlM (layoutTree declared) (#[], .empty) = .ok (tree.nodes, tree.roots)
  checked : mission.checkRecursion = .ok verified
  main : tree.roots.get? "main" = some tree.main

theorem exists_comesFrom {mission : MissionSource} {tree : Tree}
    (loaded : ofSource mission = .ok tree) :
    ∃ declared verified, tree.ComesFrom mission declared verified := by
  unfold ofSource at loaded
  rw [bind_eq_ok] at loaded
  rcases loaded with ⟨declared, declares, loaded⟩
  rw [mapError_eq_ok] at declares
  split at loaded
  · cases loaded
  rename_i hasMain
  dsimp only at loaded
  rw [bind_eq_ok] at loaded
  rcases loaded with ⟨⟨nodes, roots⟩, laid, loaded⟩
  rw [bind_eq_ok] at loaded
  rcases loaded with ⟨verified, checked, loaded⟩
  rw [mapError_eq_ok] at checked
  dsimp only at loaded
  split at loaded
  · rename_i main mainRoot
    cases loaded
    exact ⟨declared, verified, declares, by simpa using hasMain, laid, checked, mainRoot⟩
  · cases loaded

end Tree

end BehaviorTree
