import BehaviorTree.Proofs.Engine.Branches

/-!
# Frames that are known

A node runs in the frame of the mission or in one that was given to a reference, and the same holds
of the reference. So if a node that remembers something is below another one once more frames are
given, it has been below it all the time.
-/

namespace BehaviorTree

/-- Nothing is remembered in the subtree of a node. -/
def Tree.Vacant (tree : Tree) (runs : RunStore) (root : RunKey) : Prop :=
  ∀ lower, tree.Reaches runs root lower → runs.get? lower = none

namespace RunStore

/-- A frame is that of the mission or belongs to a reference. -/
def Knows (runs : RunStore) (frame : FrameId) : Prop :=
  frame = 0 ∨ ∃ key, runs.frame? key = some frame

/-- Whatever remembers something or has a frame for another node is in a known frame. -/
structure Housed (runs : RunStore) : Prop where
  states : ∀ key state, runs.get? key = some state → runs.Knows key.frame
  frames : ∀ key frame, runs.frame? key = some frame → runs.Knows key.frame

variable {runs before after later : RunStore} {frame : FrameId} {key upper lower : RunKey}
  {tree : Tree}

theorem Knows.of_framesIn (knows : before.Knows frame) (framesIn : before.FramesIn after) :
    after.Knows frame := by
  rcases knows with main | ⟨key, framed⟩
  · exact Or.inl main
  · exact Or.inr ⟨key, framesIn _ _ framed⟩

theorem housed_empty : empty.Housed := by
  refine ⟨?_, ?_⟩
  · rintro key state ⟨⟩
  · rintro key frame ⟨⟩

/-- What is below a node in a known frame is in a known frame. -/
theorem Knows.of_reaches (knows : runs.Knows upper.frame)
    (reaches : tree.Reaches runs upper lower) : runs.Knows lower.frame := by
  induction reaches with
  | refl => exact knows
  | tail _ invokes ih =>
    rcases invokes.child_or_root with ⟨sameFrame, -⟩ | ⟨framed, -⟩
    · exact sameFrame ▸ ih
    · exact Or.inr ⟨_, framed⟩

theorem Housed.frameFor (housed : runs.Housed) (knows : runs.Knows key.frame) :
    (runs.frameFor key).2.Housed := by
  have framesIn := framesIn_frameFor runs key
  refine ⟨fun other state remembered => ?_, fun other frame framed => ?_⟩
  · rw [get?_frameFor] at remembered
    exact (housed.states other state remembered).of_framesIn framesIn
  · by_cases same : other = key
    · exact same ▸ knows.of_framesIn framesIn
    · rw [frame?_frameFor_of_ne same] at framed
      exact (housed.frames other frame framed).of_framesIn framesIn

/-- New frames do not lead to what is in a frame that was known before. -/
theorem Housed.reaches_of_later (housed : before.Housed) (framesIn : before.FramesIn later)
    (distinct : later.Distinct) (knows : before.Knows lower.frame)
    (reaches : tree.Reaches later upper lower) : tree.Reaches before upper lower := by
  induction reaches with
  | refl => exact .refl upper
  | tail _ invokes ih =>
    cases invokes with
    | child found listed => exact (ih knows).trans (Tree.Invokes.child found listed).reaches
    | target found configured framed known =>
      rcases knows with main | ⟨reference, given⟩
      · exact absurd main (distinct.nonzero _ _ framed)
      · cases distinct.alone _ _ _ (framesIn _ _ given) framed
        exact (ih (housed.frames _ _ given)).trans
          (Tree.Invokes.target found configured given known).reaches

/-- A subtree in which nothing came to be remembered is as vacant as before. -/
theorem Housed.vacant (housed : before.Housed) (framesIn : before.FramesIn later)
    (distinct : later.Distinct) (vacant : tree.Vacant before upper)
    (quiet : ∀ lower, tree.Reaches later upper lower → before.get? lower = none →
      later.get? lower = none) : tree.Vacant later upper := by
  intro lower reaches
  cases remembered : before.get? lower with
  | none => exact quiet lower reaches remembered
  | some state =>
    have inside := housed.reaches_of_later framesIn distinct
      (housed.states lower state remembered) reaches
    rw [vacant lower inside] at remembered
    cases remembered

end RunStore

namespace Context

variable {σ : Type} {tree : Tree} {key target : RunKey} {node : Node}
  {before after context inner : Context σ}

/-- A tick in a known frame leads to known frames only. -/
theorem Outside.housed (outside : before.Outside tree key after) (housed : before.runs.Housed)
    (knows : before.runs.Knows key.frame) : after.runs.Housed := by
  have inside : ∀ {lower}, tree.Reaches after.runs key lower → after.runs.Knows lower.frame :=
    fun reaches => (knows.of_framesIn outside.framesIn).of_reaches reaches
  refine ⟨fun lower state remembered => ?_, fun lower frame framed => ?_⟩
  · by_cases reached : tree.Reaches after.runs key lower
    · exact inside reached
    · rw [outside.states lower reached] at remembered
      exact (housed.states lower state remembered).of_framesIn outside.framesIn
  · by_cases reached : tree.Reaches after.runs key lower
    · exact inside reached
    · rw [outside.frames lower reached] at framed
      exact (housed.frames lower frame framed).of_framesIn outside.framesIn

theorem Enters.housed (enters : context.Enters tree key node target inner)
    (housed : context.runs.Housed) (knows : context.runs.Knows key.frame) :
    inner.runs.Housed ∧ inner.runs.Knows target.frame := by
  cases enters with
  | child listed => exact ⟨housed, knows⟩
  | inScope listed held => exact ⟨housed, knows⟩
  | inFrame parameters configured known =>
    exact ⟨housed.frameFor knows, Or.inr ⟨key, RunStore.frame?_frameFor _ _⟩⟩

/-- What a node remembers is not in the subtree of a child. -/
theorem vacant_setRun {rank : NodeIndex → Nat} {child : NodeIndex} {state : RunState}
    (ranking : tree.Ranking rank) (found : tree.node? key.node = some node)
    (listed : child ∈ node.children) (vacant : tree.Vacant context.runs (key.sibling child)) :
    tree.Vacant (context.setRun key state).runs (key.sibling child) := by
  intro lower reaches
  have reached : tree.Reaches context.runs (key.sibling child) lower := reaches.mono (.of_eq rfl)
  have below : tree.ReachesBelow context.runs key (key.sibling child) :=
    (Tree.Invokes.child found listed).reachesBelow
  have different : lower ≠ key := by
    rintro rfl
    exact below.not_reaches ranking reached
  rw [Context.get?_setRun, if_neg different]
  exact vacant lower reached

end Context

end BehaviorTree
