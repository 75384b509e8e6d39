import BehaviorTree.Proofs.Engine.Stays
import BehaviorTree.Proofs.Tree.Parents

/-!
# Subtrees that do not overlap

The nodes of a tree form a forest, and as long as the numbers last every reference has a frame of
its own. So a node in a frame is invoked by one other node at most: a child by its parent, and the
root of a definition by the reference to which its frame belongs. Therefore two subtrees have
nothing in common unless one of them is in the other one, and nothing invokes the root of the
mission.
-/

namespace BehaviorTree

/-- Every reference has a frame of its own, and none has that of the mission. -/
structure RunStore.Distinct (runs : RunStore) : Prop where
  nonzero : ∀ key frame, runs.frame? key = some frame → frame ≠ 0
  alone : ∀ one other frame, runs.frame? one = some frame → runs.frame? other = some frame →
    one = other

theorem RunStore.Numbered.distinct {runs : RunStore} (numbered : runs.Numbered) :
    runs.Distinct := by
  refine ⟨?_, numbered.alone⟩
  rintro key frame framed rfl
  exact Nat.lt_irrefl 0 (numbered.bounded key 0 framed).1

theorem RunStore.Distinct.of_framesIn {before after : RunStore} (distinct : after.Distinct)
    (framesIn : before.FramesIn after) : before.Distinct :=
  ⟨fun key frame framed => distinct.nonzero key frame (framesIn key frame framed),
    fun one other frame framed framedToo =>
      distinct.alone one other frame (framesIn one frame framed) (framesIn other frame framedToo)⟩

namespace Tree

variable {tree : Tree} {runs : RunStore} {rank : NodeIndex → Nat} {index child other : NodeIndex}
  {node nodeToo : Node} {one two key upper lower : RunKey}

namespace Branches

theorem children_nodup (branches : tree.Branches) (found : tree.node? index = some node) :
    node.children.Nodup :=
  branches.forest.once index node found

theorem parent_unique (branches : tree.Branches) (found : tree.node? index = some node)
    (foundToo : tree.node? other = some nodeToo) (listed : child ∈ node.children)
    (listedToo : child ∈ nodeToo.children) : index = other :=
  branches.forest.alone index other node nodeToo child found foundToo listed listedToo

/-- The root of a definition is a child of no node. -/
theorem root_ne_child (branches : tree.Branches) {name : String} {root : NodeIndex}
    (known : tree.lookup name = some root) (found : tree.node? index = some node) :
    root ∉ node.children :=
  branches.roots name root known index node found

/-- Nothing leads from a child of a node to a child of the same node. -/
theorem not_below_child (branches : tree.Branches) (ranking : tree.Ranking rank)
    (found : tree.node? index = some node) (listed : child ∈ node.children)
    (listedToo : other ∈ node.children) : ¬ Relation.TransGen tree.Leads child other := by
  intro below
  have descends : ∀ {first last}, Relation.ReflTransGen tree.Leads first last →
      rank last ≤ rank first := by
    intro first last way
    induction way with
    | refl => exact Nat.le_refl _
    | tail _ leads ih => exact Nat.le_trans (Nat.le_of_lt (ranking.descends _ _ leads)) ih
  rcases Relation.TransGen.tail'_iff.1 below with ⟨last, way, leads⟩
  cases leads with
  | child foundToo listedLast =>
    -- The only parent of the other child is the node, which stands above the child.
    cases branches.parent_unique found foundToo listedToo listedLast
    exact Nat.not_lt.2 (descends way) (ranking.descends _ _ (.child found listed))
  | target foundToo configured known => exact branches.root_ne_child known found listedToo

end Branches

/-- A node is invoked in the frame of its parent, or as a root in the frame of a reference. -/
theorem Invokes.child_or_root (invokes : tree.Invokes runs upper lower) :
    (lower.frame = upper.frame ∧
      ∃ node, tree.node? upper.node = some node ∧ lower.node ∈ node.children) ∨
    (runs.frame? upper = some lower.frame ∧ ∃ name, tree.lookup name = some lower.node) := by
  cases invokes with
  | child found listed => exact Or.inl ⟨rfl, _, found, listed⟩
  | target found configured framed known => exact Or.inr ⟨framed, _, known⟩

section Distinct

variable (branches : tree.Branches) (distinct : runs.Distinct)
include branches distinct

/-- A node in a frame is invoked by one other node at most. -/
theorem Invokes.unique (invokes : tree.Invokes runs one lower)
    (invokesToo : tree.Invokes runs two lower) : one = two := by
  rcases invokes.child_or_root with ⟨sameFrame, node, found, listed⟩ | ⟨framed, name, known⟩ <;>
    rcases invokesToo.child_or_root with
      ⟨sameFrameToo, nodeToo, foundToo, listedToo⟩ | ⟨framedToo, nameToo, knownToo⟩
  · have sameNode := branches.parent_unique found foundToo listed listedToo
    have frames : one.frame = two.frame := sameFrame.symm.trans sameFrameToo
    cases one
    cases two
    simp_all
  · exact absurd listed (branches.root_ne_child knownToo found)
  · exact absurd listedToo (branches.root_ne_child known foundToo)
  · exact distinct.alone _ _ _ framed framedToo

/-- What is above a node is above the node that invokes it, or is that node. -/
theorem ReachesBelow.invoker (below : tree.ReachesBelow runs key lower)
    (invokes : tree.Invokes runs upper lower) : tree.Reaches runs key upper := by
  rcases Relation.TransGen.tail'_iff.1 below with ⟨last, way, lastInvokes⟩
  rwa [← lastInvokes.unique branches distinct invokes]

/-- Of two subtrees that have something in common one is in the other one. -/
theorem Reaches.comparable (reaches : tree.Reaches runs one lower)
    (reachesToo : tree.Reaches runs two lower) :
    tree.Reaches runs one two ∨ tree.Reaches runs two one := by
  induction reaches with
  | refl => exact Or.inr reachesToo
  | @tail middle lower above invokes ih =>
    rcases reachesToo.eq_or_below with rfl | below
    · exact Or.inl (above.trans invokes.reaches)
    · exact ih (below.invoker branches distinct invokes)

/-- The subtrees of different nodes that are invoked by the same one have nothing in common. -/
theorem Invokes.apart (ranking : tree.Ranking rank) (invokes : tree.Invokes runs key one)
    (invokesToo : tree.Invokes runs key two) (different : one ≠ two)
    (reaches : tree.Reaches runs one lower) : ¬ tree.Reaches runs two lower := by
  have beside : ∀ {first second}, tree.Invokes runs key first → tree.Invokes runs key second →
      first ≠ second → ¬ tree.Reaches runs first second := by
    intro first second down downToo unequal way
    rcases way.eq_or_below with same | below
    · exact unequal same.symm
    · exact down.reachesBelow.not_reaches ranking (below.invoker branches distinct downToo)
  intro reachesToo
  rcases reaches.comparable branches distinct reachesToo with way | way
  · exact beside invokes invokesToo different way
  · exact beside invokesToo invokes different.symm way

/-- The subtrees of different children of a node have nothing in common. -/
theorem children_apart (ranking : tree.Ranking rank) (found : tree.node? key.node = some node)
    (listed : child ∈ node.children) (listedToo : other ∈ node.children) (different : child ≠ other)
    (reaches : tree.Reaches runs (key.sibling child) lower) :
    ¬ tree.Reaches runs (key.sibling other) lower :=
  Invokes.apart branches distinct ranking (.child found listed) (.child found listedToo)
    (fun same => different (congrArg RunKey.node same)) reaches

/-- Nothing invokes the root of the mission, which runs in a frame of its own. -/
theorem not_reachesBelow_main : ¬ tree.ReachesBelow runs key ⟨0, tree.main⟩ := by
  intro below
  rcases Relation.TransGen.tail'_iff.1 below with ⟨last, -, invokes⟩
  rcases invokes.child_or_root with ⟨-, node, found, listed⟩ | ⟨framed, -⟩
  · exact branches.root_ne_child branches.main found listed
  · exact distinct.nonzero _ _ framed rfl

end Distinct

end Tree

end BehaviorTree
