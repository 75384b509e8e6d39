import BehaviorTree.Engine.Tick
import BehaviorTree.Proofs.Tree.WellFormed

/-!
# Pauses and the engine

How often a mission was paused is asked by nodes that start their child afresh after a pause, and by
no others. A tree without such nodes is ticked the same after any number of pauses.
-/

namespace BehaviorTree

variable {σ : Type} [RemoteService σ]

/-- No node of the tree starts its child afresh after a pause. -/
def Tree.IgnoresPauses (tree : Tree) : Prop :=
  ∀ index node, tree.node? index = some node → node.kind ≠ .restartWhenPaused

/-- The setting of a tick after another number of pauses. -/
def Setting.pausedTo (setting : Setting) (pauses : BitVec 64) : Setting :=
  { setting with pauses := pauses }

variable {setting : Setting} {run : NodeIndex → Tick σ Status} {key : RunKey} {node : Node}

omit [RemoteService σ] in
theorem defineAll_pausedTo (pauses : BitVec 64) (index : NodeIndex) (assignments : List Assignment) :
    (defineAll (setting.pausedTo pauses) index assignments : Attempt σ Unit) =
      defineAll setting index assignments := by
  induction assignments with
  | nil => rfl
  | cons assignment rest ih =>
    simp only [defineAll, ih]
    rfl

theorem tickConfigured_pausedTo {configuration : Configuration} (pauses : BitVec 64)
    (ignores : configuration.kind ≠ .restartWhenPaused) :
    tickConfigured (setting.pausedTo pauses) run key node configuration =
      tickConfigured setting run key node configuration := by
  cases configuration with
  | restartWhenPaused => exact absurd rfl ignores
  | defineBlackboard =>
    simp only [tickConfigured, tickDefine, scopeOf, openScope, defineAll_pausedTo]
  | _ => rfl

theorem attemptNode_pausedTo (pauses : BitVec 64) (fits : node.Fits)
    (ignores : node.kind ≠ .restartWhenPaused) :
    attemptNode (setting.pausedTo pauses) run key node = attemptNode setting run key node := by
  unfold attemptNode
  congr 1
  funext context
  cases effective : node.effectiveConfiguration context with
  | ok configuration =>
    apply tickConfigured_pausedTo
    rwa [fits.effective_kind effective]
  | error cause => cases cause <;> rfl

/-- A tree whose nodes do not ask for pauses is ticked the same, however often it was paused. -/
theorem tickWithin_pausedTo (wellFormed : setting.tree.WellFormed)
    (ignores : setting.tree.IgnoresPauses) (pauses : BitVec 64) (depth : Nat) (index : NodeIndex) :
    (tickWithin (setting.pausedTo pauses) depth index : Tick σ Status) =
      tickWithin setting depth index := by
  induction depth generalizing index with
  | zero => rfl
  | succ depth ih =>
    have inner : (tickWithin (setting.pausedTo pauses) depth : NodeIndex → Tick σ Status) =
        tickWithin setting depth := funext ih
    have sameTree : (setting.pausedTo pauses).tree = setting.tree := rfl
    unfold tickWithin
    rw [sameTree, inner]
    cases found : setting.tree.node? index with
    | none => rfl
    | some node =>
      simp only [attemptNode_pausedTo pauses (wellFormed.fits _ _ found) (ignores _ _ found)]
      rfl

end BehaviorTree
