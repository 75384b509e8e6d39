import BehaviorTree.Engine.Context
import Mathlib.Tactic.Common

/-!
# Outcomes of actions

What an action of the engine does is read off its outcome, a result and the state that it leaves.
`Ends` says of an action and the state in which it starts what its outcome is like. It is taken
apart along the action: what a sequence of actions has to achieve is what its first one has to
achieve for the rest of it.
-/

namespace BehaviorTree

section Actions

variable {ε α β ς : Type}

/-- The result of an action that starts in a state, and the state that it leaves. -/
def outcome (action : ExceptT ε (StateM ς) α) (state : ς) : Except ε α × ς :=
  action.run.run state

/-- An action has a result for which `after` holds, or an error for which `failed` holds. -/
def Ends (action : ExceptT ε (StateM ς) α) (state : ς) (after : α → ς → Prop)
    (failed : ε → ς → Prop) : Prop :=
  match outcome action state with
  | (.ok result, next) => after result next
  | (.error error, next) => failed error next

variable {action : ExceptT ε (StateM ς) α} {next : α → ExceptT ε (StateM ς) β} {state : ς}
  {after weaker : α → ς → Prop} {afterNext : β → ς → Prop} {failed weakerFailed : ε → ς → Prop}

theorem Ends.mono (ends : Ends action state after failed)
    (ofAfter : ∀ result next, after result next → weaker result next)
    (ofFailed : ∀ error next, failed error next → weakerFailed error next) :
    Ends action state weaker weakerFailed := by
  unfold Ends at ends ⊢
  split at ends
  · exact ofAfter _ _ ends
  · exact ofFailed _ _ ends

/-- What is said of an action holds of the result that it has. -/
theorem Ends.of_eq_ok (ends : Ends action state after failed) {result : α} {next : ς}
    (ran : outcome action state = (.ok result, next)) : after result next := by
  simpa only [Ends, ran] using ends

theorem ends_true : Ends action state (fun _ _ => True) fun _ _ => True := by
  unfold Ends
  split <;> trivial

theorem Ends.and (ends : Ends action state after failed)
    (also : Ends action state weaker weakerFailed) :
    Ends action state (fun result next => after result next ∧ weaker result next)
      fun error next => failed error next ∧ weakerFailed error next := by
  unfold Ends at ends also ⊢
  split
  · rename_i found
    rw [found] at ends also
    exact ⟨ends, also⟩
  · rename_i found
    rw [found] at ends also
    exact ⟨ends, also⟩

theorem outcome_bind : outcome (action >>= next) state =
    match outcome action state with
    | (.ok result, middle) => outcome (next result) middle
    | (.error error, middle) => (.error error, middle) := by
  unfold outcome ExceptT.run StateT.run
  simp only [bind, ExceptT.bind, ExceptT.mk, StateT.bind, ExceptT.bindCont]
  cases action state with
  | mk result middle => cases result <;> rfl

/-- The first action of a sequence has to achieve what the rest of it starts from. -/
theorem ends_bind : Ends (action >>= next) state afterNext failed ↔
    Ends action state (fun result middle => Ends (next result) middle afterNext failed) failed := by
  unfold Ends
  rw [outcome_bind]
  cases outcome action state with
  | mk result middle => cases result <;> rfl

/-- A sequence of actions, of which the first one is known. -/
theorem Ends.bind (ends : Ends action state after failed)
    (rest : ∀ result middle, after result middle → Ends (next result) middle afterNext failed) :
    Ends (action >>= next) state afterNext failed :=
  ends_bind.2 (ends.mono rest fun _ _ fails => fails)

theorem ends_get {after : ς → ς → Prop} :
    Ends (get : ExceptT ε (StateM ς) ς) state after failed ↔ after state state :=
  Iff.rfl

end Actions

variable {σ α : Type} {context : Context σ} {after : α → Context σ → Prop}
  {failed : Fault → Context σ → Prop}

namespace Attempt

-- The state of an attempt is that of the ticks that it may contain.

theorem ends_get {after : Context σ → Context σ → Prop} :
    Ends (get : Attempt σ (Context σ)) context after failed ↔ after context context :=
  Iff.rfl

theorem ends_set {next : Context σ} {after : PUnit → Context σ → Prop} :
    Ends (set next : Attempt σ PUnit) context after failed ↔ after ⟨⟩ next :=
  Iff.rfl

end Attempt

theorem ends_bound {result : Except BindingError α} :
    Ends (bound result : Attempt σ α) context after failed ↔
      match result with
      | .ok value => after value context
      | .error cause => failed (.node (.binding cause)) context := by
  cases result <;> rfl

theorem ends_accessed {result : Except BlackboardError α} :
    Ends (accessed result : Attempt σ α) context after failed ↔
      match result with
      | .ok value => after value context
      | .error cause => failed (.node (.blackboard cause)) context := by
  cases result <;> rfl

theorem outcome_attempt {action : Tick σ α} :
    outcome (Tick.attempt action) context =
      ((outcome action context).1.mapError .abort, (outcome action context).2) := by
  unfold outcome Tick.attempt ExceptT.adapt ExceptT.mk ExceptT.run StateT.run
  rfl

/-- A part of a tick ends an attempt when it ends the tick. -/
theorem ends_attempt {action : Tick σ α} :
    Ends (Tick.attempt action) context after failed ↔
      Ends action context after fun failure => failed (.abort failure) := by
  unfold Ends
  rw [outcome_attempt]
  cases outcome action context with
  | mk result next => cases result <;> rfl

theorem ends_monadLift {action : Tick σ α} :
    Ends (liftM action : Attempt σ α) context after failed ↔
      Ends action context after fun failure => failed (.abort failure) :=
  ends_attempt

theorem outcome_inScope {scope : ScopeId} {action : Attempt σ α} :
    outcome (inScope scope action) context =
      ((outcome action { context with scope := scope }).1,
        { (outcome action { context with scope := scope }).2 with scope := context.scope }) :=
  rfl

theorem ends_inScope {scope : ScopeId} {action : Attempt σ α} :
    Ends (inScope scope action) context after failed ↔
      Ends action { context with scope := scope }
        (fun result inner => after result { inner with scope := context.scope })
        fun fault inner => failed fault { inner with scope := context.scope } := by
  unfold Ends
  rw [outcome_inScope]
  cases outcome action { context with scope := scope } with
  | mk result next => cases result <;> rfl

theorem outcome_inFrame {frame : FrameId} {parameters : Table String Value}
    {action : Attempt σ α} :
    outcome (inFrame frame parameters action) context =
      let inside := { context with frame := frame, parameters := parameters :: context.parameters }
      ((outcome action inside).1,
        { (outcome action inside).2 with
          frame := context.frame
          parameters := (outcome action inside).2.parameters.tail }) :=
  rfl

theorem ends_inFrame {frame : FrameId} {parameters : Table String Value} {action : Attempt σ α} :
    Ends (inFrame frame parameters action) context after failed ↔
      Ends action { context with frame := frame, parameters := parameters :: context.parameters }
        (fun result inner =>
          after result { inner with
            frame := context.frame
            parameters := inner.parameters.tail })
        fun fault inner =>
          failed fault { inner with
            frame := context.frame
            parameters := inner.parameters.tail } := by
  unfold Ends
  rw [outcome_inFrame]
  dsimp only
  cases outcome action
      { context with frame := frame, parameters := parameters :: context.parameters } with
  | mk result next => cases result <;> rfl

end BehaviorTree
