import BehaviorTree.Proofs.Engine.Chronicle

/-!
# Turns of an activation

A node that is ticked has the same tree, and so the same children, in all turns of an activation.
What it says of a turn holds of the attempt of the node and of what is left once the turn is over.
The ticks of the children in several turns are those of the single turns, one after the other.
-/

namespace BehaviorTree

variable {σ : Type}

/-- A node runs as it was configured on every tick. -/
structure Node.IsFixed (node : Node) (configuration : Configuration) : Prop where
  literal : node.overrides = []
  configured : node.configuration = some configuration

theorem Node.IsFixed.effectiveConfiguration_eq {node : Node} {configuration : Configuration}
    (fixed : node.IsFixed configuration) (context : Context σ) :
    node.effectiveConfiguration context = .ok configuration := by
  rw [effectiveConfiguration, fixed.literal, fixed.configured]

variable [RemoteService σ] {setting : Setting} {run : NodeIndex → Tick σ Status} {key : RunKey}
  {node : Node} {child : NodeIndex} {configuration : Configuration} {context : Context σ}
  {turn last : PastTurn σ key} {turns : List (PastTurn σ key)} {state : RunState}

/-- A node whose fields can be bound does what its kind does. -/
theorem ends_attemptNode (effective : node.effectiveConfiguration context = .ok configuration)
    {after : Status → Context σ → Prop} {failed : Fault → Context σ → Prop} :
    Ends (attemptNode setting run key node) context after failed ↔
      Ends (tickConfigured setting run key node configuration) context after failed := by
  simp only [attemptNode, ends_bind, Attempt.ends_get, effective]

namespace PastTurn

theorem fits (turn : PastTurn σ key) : turn.node.Fits :=
  turn.stands.wellFormed.fits _ _ turn.stands.found

/-- A turn is an attempt that has a status, and the end of the turn. -/
theorem exists_closes {attempted : Status → Context σ → Prop}
    (effective : turn.node.effectiveConfiguration turn.before = .ok configuration)
    (ends : Ends
      (tickConfigured turn.setting (tickWithin turn.setting turn.depth) key turn.node configuration)
      turn.before attempted Aborts) :
    ∃ last, attempted turn.status last ∧ last.Closes turn.setting.tree key turn.status turn.after :=
  (turn.stands.ends_tickWithin turn.ready ((ends_attemptNode effective).2 ends)).of_eq_ok turn.ran

/-- A node whose fields cannot be bound fails. So one that is running was bound. -/
theorem exists_effective (running : turn.status = .running) :
    ∃ configuration, turn.node.effectiveConfiguration turn.before = .ok configuration := by
  cases effective : turn.node.effectiveConfiguration turn.before with
  | ok configuration => exact ⟨configuration, rfl⟩
  | error failure =>
    have settled : Ends (settleAttempt turn.setting key turn.node
        (attemptNode turn.setting (tickWithin turn.setting turn.depth) key turn.node)) turn.before
        (fun status _ => status ≠ .running) fun _ _ => True := by
      unfold Ends
      rw [outcome_settleAttempt, outcome_attemptNode, effective]
      cases failure
      · exact fun impossible => by cases impossible
      · trivial
    have ends : Ends (tickWithin turn.setting (turn.depth + 1) key.node) turn.before
        (fun status _ => status ≠ .running) fun _ _ => True := by
      have here : (⟨turn.before.frame, key.node⟩ : RunKey) = key := by rw [turn.ready.atKey]
      simp only [tickWithin, turn.stands.found, ends_bind, BehaviorTree.ends_get, here]
      refine settled.mono (fun status _ isOver => ?_) fun _ _ _ => trivial
      exact ends_true.mono (fun _ _ _ => isOver) fun _ _ _ => trivial
    exact absurd running (ends.of_eq_ok turn.ran)

/-- The ticks of the children in a turn are those of the attempt. -/
theorem ticks_eq {ticks : List (NodeIndex × Status)}
    (closes : context.Closes turn.setting.tree key turn.status turn.after)
    (ticked : context.childTicks key turn.node.children =
      turn.before.childTicks key turn.node.children ++ ticks) : turn.ticks = ticks := by
  rcases turn.stands.shallow with ⟨rank, ranking, -⟩
  rw [PastTurn.ticks, closes.childTicks_eq ranking turn.stands.found, ticked, List.drop_left]

/-- The node of a turn is that of the turn before. -/
theorem Leaves.node_eq (leaves : last.Leaves turn.setting.tree turn.before.runs) :
    last.node = turn.node := by
  have found := last.stands.found
  rw [leaves.sameTree, turn.stands.found] at found
  exact (Option.some.inj found).symm

theorem housed (turn : PastTurn σ key) : turn.after.runs.Housed := by
  have isNode : (turn.setting.tree.node? key.node).isSome := by simp [turn.stands.found]
  have behaves := behaves_tickWithin turn.stands.wellFormed (turn.depth + 1) key turn.before
    turn.ready.atKey isNode turn.ready.sound.fits
  exact (behaves.of_eq_ok turn.ran).1.housed turn.ready.housed turn.ready.inside

theorem distinct (turn : PastTurn σ key) (room : turn.before.runs.frames.size < 2 ^ 32) :
    turn.before.runs.Distinct :=
  (turn.framed.numbered RunStore.numbered_empty room).distinct

theorem distinct_after (turn : PastTurn σ key) (room : turn.after.runs.frames.size < 2 ^ 32) :
    turn.after.runs.Distinct := by
  have stays := staying_tickWithin (σ := σ) turn.stands.wellFormed (turn.depth + 1) key.node
    turn.before
  rw [turn.ran] at stays
  exact ((turn.framed.trans stays.grows).numbered RunStore.numbered_empty room).distinct

/-- While a node waits, nothing comes to be remembered in the subtree of a child. -/
theorem Leaves.vacant (leaves : last.Leaves turn.setting.tree turn.before.runs)
    (room : turn.before.runs.frames.size < 2 ^ 32) (listed : child ∈ turn.node.children)
    (vacant : turn.setting.tree.Vacant last.after.runs (key.sibling child)) :
    turn.setting.tree.Vacant turn.before.runs (key.sibling child) := by
  have distinct := turn.distinct room
  refine last.housed.vacant leaves.framesIn distinct vacant ?_
  intro lower reaches
  exact leaves.quiet lower
    ⟨_, .refl _, distinct, reaches.head (.child turn.stands.found listed)⟩

end PastTurn

/-- The ticks of the children of a node in several turns, of which the latest is in front. -/
def ticksOf (turns : List (PastTurn σ key)) : List (NodeIndex × Status) :=
  turns.reverse.flatMap PastTurn.ticks

@[simp] theorem ticksOf_nil : ticksOf ([] : List (PastTurn σ key)) = [] := rfl

@[simp] theorem ticksOf_cons : ticksOf (turn :: turns) = ticksOf turns ++ turn.ticks := by
  simp [ticksOf]

end BehaviorTree
