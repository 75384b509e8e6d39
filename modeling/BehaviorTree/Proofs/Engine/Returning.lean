import BehaviorTree.Proofs.Engine.Stays
import BehaviorTree.Proofs.Engine.Steady

/-!
# Ticks come back to where they started

A node that is entered by way of a scope or an invocation moves the engine there, and the engine
has to be back when the node has had its turn, also if the tick ends early inside of it. What a
node does by itself does not move the engine, so a turn comes back if the ticks in it do, and every
tick does by induction on how deep nodes are nested.
-/

namespace BehaviorTree

variable {σ α : Type}

/-- The engine is in the same scope, frame and invocations as before. -/
structure Context.Returned (before after : Context σ) : Prop where
  scope : after.scope = before.scope
  frame : after.frame = before.frame
  parameters : after.parameters = before.parameters

namespace Context.Returned

theorem trans {first second third : Context σ} (left : first.Returned second)
    (right : second.Returned third) : first.Returned third :=
  ⟨right.scope.trans left.scope, right.frame.trans left.frame,
    right.parameters.trans left.parameters⟩

instance : Context.OverlooksStores (Context.Returned (σ := σ)) where
  refl := fun _ => ⟨rfl, rfl, rfl⟩
  trans := fun _ _ _ => trans
  stored := fun _ _ _ _ => ⟨rfl, rfl, rfl⟩
  rescoped := fun returned => ⟨rfl, returned.frame, returned.parameters⟩

end Context.Returned

/-- Whatever becomes of an action, it leaves the engine where it was. -/
abbrev Returning {ε : Type} (action : ExceptT ε (StateM (Context σ)) α) : Prop :=
  Keeping Context.Returned action

namespace Returning

theorem inFrame {action : Attempt σ α} (returning : Returning action) (frame : FrameId)
    (parameters : Table String Value) : Returning (inFrame frame parameters action) := by
  intro context
  rw [outcome_inFrame]
  exact ⟨(returning _).scope, rfl, congrArg List.tail (returning _).parameters⟩

variable {run : NodeIndex → Tick σ Status} (returns : ∀ child, Returning (run child))
  (setting : Setting) (key : RunKey) (node : Node)
include returns

theorem child (index : NodeIndex) : Returning (Tick.attempt (run index)) :=
  .attempt (returns index)

theorem tickRepeater (index : NodeIndex) (maxStarts : Int64) :
    Returning (tickRepeater setting run key index maxStarts) := by
  unfold BehaviorTree.tickRepeater
  split
  · exact .pure _
  · refine .bind (.startsOf _ _) fun starts => .bind (child returns index) fun status => ?_
    cases status with
    | failure => exact .pure _
    | running => exact .bind (.remember _ _) fun _ => .pure _
    | success =>
      dsimp only
      split
      · exact .pure _
      · exact .bind (.writeOutput _ _ _ _) fun _ => .bind (.remember _ _) fun _ => .pure _

theorem tickRetrier (index : NodeIndex) (maxAttempts : Int64) :
    Returning (tickRetrier setting run key index maxAttempts) := by
  refine .bind (.counted _) fun failures => .bind (child returns index) fun status => ?_
  cases status with
  | success => exact .pure _
  | running => exact .bind (.remember _ _) fun _ => .pure _
  | failure =>
    dsimp only
    split
    · exact .pure _
    · exact .bind (.writeOutput _ _ _ _) fun _ => .bind (.remember _ _) fun _ => .pure _

theorem tickParallel : Returning (tickParallel run key node) := by
  refine .bind (.childAt _ _ _) fun first => .bind (child returns _) fun status =>
    .bind .get fun context => .bind (.childAt _ _ _) fun second =>
    .bind (child returns _) fun _ => ?_
  split
  · exact .bind (fun _ => ⟨rfl, rfl, rfl⟩) fun _ => .pure _
  · exact .pure _

theorem tickDefine : Returning (tickDefine setting run key node) :=
  .bind (.childAt _ _ _) fun _ => .bind (.scopeOf _ _ _) fun _ => .inScope (child returns _) _

theorem tickReference (target : String) :
    Returning (tickReference setting run key node target) := by
  unfold BehaviorTree.tickReference
  split
  · split
    · refine .of_ends fun context => ?_
      simp only [ends_bind, Attempt.ends_get, ends_bound, Attempt.ends_set]
      split
      · exact (inFrame (child returns _) _ _).endsAfter ⟨rfl, rfl, rfl⟩
      · exact ⟨rfl, rfl, rfl⟩
    · exact .throw _
  · exact .throw _

variable [RemoteService σ]

theorem tickFrom (tree : Tree) (children : List NodeIndex) (previous : Option Nat)
    (stopOn otherwise : Status) (position : Nat) (rest : List NodeIndex) :
    Returning (tickFrom tree run key children previous stopOn otherwise position rest) := by
  induction rest generalizing position with
  | nil => exact .pure _
  | cons index rest ih =>
    refine .bind (child returns index) fun status => ?_
    split
    · exact .bind (.handOver (fun _ => .haltSibling _ _ _) _ _ _) fun _ =>
        .bind (.remember _ _) fun _ => .pure _
    · split
      · exact .pure _
      · exact ih _

theorem tickChildren (tree : Tree) (children : List NodeIndex) (always : Bool)
    (stopOn otherwise : Status) :
    Returning (tickChildren tree run key children always stopOn otherwise) :=
  .bind (.runStateOf key) fun _ => tickFrom returns _ _ _ _ _ _ _ _

theorem tickForDuration (duration : Duration) :
    Returning (tickForDuration setting run key node duration) := by
  refine .bind (.deadlineOf _ _ _) fun deadline => .bind (.childAt _ _ _) fun main => ?_
  split
  · exact .bind (.writeOutput _ _ _ _) fun _ => .bind (.remember _ _) fun _ => child returns _
  · refine .bind (.timeOut _ _ _ _) fun _ => ?_
    split
    · exact .pure _
    · exact .bind (.remember _ _) fun _ => child returns _

theorem tickRestartWhenPaused : Returning (tickRestartWhenPaused setting run key node) :=
  .bind (.childAt _ _ _) fun _ => .bind (.haltAfterPause _ _ _) fun _ =>
    .bind (.remember _ _) fun _ => child returns _

theorem tickConfigured (configuration : Configuration) :
    Returning (tickConfigured setting run key node configuration) := by
  cases configuration with
  | sequence always => exact tickChildren returns _ _ _ _ _ _
  | selector always => exact tickChildren returns _ _ _ _ _ _
  | repeater maxStarts => exact .bind (.childAt _ _ _) fun _ => tickRepeater returns _ _ _ _
  | retrier maxAttempts => exact .bind (.childAt _ _ _) fun _ => tickRetrier returns _ _ _ _
  | forDuration duration => exact tickForDuration returns _ _ _ _
  | simpleParallel => exact tickParallel returns _ _
  | condition condition => exact .tickCondition _ _
  | restartWhenPaused => exact tickRestartWhenPaused returns _ _ _
  | defineBlackboard => exact tickDefine returns _ _ _
  | setBlackboard => exact .tickSet _ _ _
  | formatBlackboard name format =>
    exact .bind .get fun _ => .bind (.accessed _) fun _ =>
      .bind (.writeVariable _ _ _ _) fun _ => .pure _
  | dateToBlackboard name format =>
    exact .bind (.bound _) fun _ => .bind (.writeVariable _ _ _ _) fun _ => .pure _
  | sleep duration => exact .bind (.wakeUpTime _ _ _) fun _ => .pure _
  | constantResult status => exact .pure _
  | reference target => exact tickReference returns _ _ _ _
  | remote remote => exact .tickRemote _ _ _ _

theorem attemptNode : Returning (attemptNode setting run key node) := by
  refine .bind .get fun context => ?_
  split
  · exact tickConfigured returns _ _ _ _
  · exact .throw _
  · exact .throw _

omit returns [RemoteService σ] in
theorem settleAttempt {attempt : Attempt σ Status} (returning : Returning attempt) :
    Returning (settleAttempt setting key node attempt) := by
  intro context
  have returned := returning context
  rw [outcome_settleAttempt]
  revert returned
  rcases outcome attempt context with ⟨(cause | failure) | status, after⟩ <;>
    exact fun returned => ⟨returned.scope, returned.frame, returned.parameters⟩

omit returns in
theorem concludeNode (status : Status) :
    Returning (concludeNode setting key status : Tick σ Unit) := by
  unfold BehaviorTree.concludeNode
  split
  · exact fun _ => ⟨rfl, rfl, rfl⟩
  · exact .halt _ _

end Returning

variable [RemoteService σ]

theorem returning_tickWithin (setting : Setting) (depth : Nat) (index : NodeIndex) :
    Returning (tickWithin setting depth index : Tick σ Status) := by
  induction depth generalizing index with
  | zero => exact .throw _
  | succ depth ih =>
    unfold tickWithin
    split
    · refine .bind .get fun context => .bind ?_ fun status => ?_
      · exact Returning.settleAttempt _ _ _ (Returning.attemptNode ih _ _ _)
      · exact .bind (Returning.concludeNode _ _ _) fun _ => .pure _
    · exact .throw _

/-- Whatever becomes of the tick of a node, and of those of the nodes inside of it, the engine is
then in the scope, in the frame and in the invocations in which it was before. -/
theorem ticks_leave_engine_in_place (setting : Setting) (index : NodeIndex) (before : Context σ) :
    before.Returned (outcome (tick setting index) before).2 ∧
      ∀ depth, before.Returned (outcome (tickWithin setting depth index) before).2 :=
  ⟨returning_tickWithin setting _ index before,
    fun depth => returning_tickWithin setting depth index before⟩

end BehaviorTree
