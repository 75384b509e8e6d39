import BehaviorTree.Proofs.Engine.Keeping
import BehaviorTree.Proofs.Engine.RemoteNode

/-!
# Steps that only change what is stored

What a node does by itself in its turn only changes the blackboard, the run states and the client,
and so do halts: a halt forgets run states, gives up requests and destroys scopes. So both keep
every relation between contexts that overlooks these stores. Among them is that the note of the
innermost running node, which is made at the end of a turn, stays as it is.
-/

namespace BehaviorTree

variable {ε σ α β : Type}

namespace Context

/-- Run states may have been forgotten; where the engine has been is the same. -/
structure Recedes (before after : Context σ) : Prop where
  innermost : after.innermost = before.innermost
  frames : after.runs.frames = before.runs.frames
  visits : after.visits = before.visits
  states : ∀ key, before.runs.get? key = none → after.runs.get? key = none

theorem Recedes.refl (context : Context σ) : context.Recedes context :=
  ⟨rfl, rfl, rfl, fun _ => id⟩

theorem Recedes.trans {first second third : Context σ} (left : first.Recedes second)
    (right : second.Recedes third) : first.Recedes third :=
  ⟨right.innermost.trans left.innermost, right.frames.trans left.frames,
    right.visits.trans left.visits, fun key none => right.states key (left.states key none)⟩

instance : Std.Refl (Recedes (σ := σ)) := ⟨.refl⟩

instance : IsTrans (Context σ) Recedes := ⟨fun _ _ _ => .trans⟩

end Context

section Halts

variable [RemoteService σ]

theorem receding_discard (key : RunKey) :
    Keeping Context.Recedes (discard key : Tick σ Unit) := by
  intro context
  have discarded : (outcome (discard key : Tick σ Unit) context).2 = context.discarded key := rfl
  rw [discarded]
  refine ⟨?_, Context.samePlace_discarded.frames, Context.samePlace_discarded.visits, ?_⟩
  · unfold Context.discarded
    split <;> rfl
  · intro other none
    rw [Context.get?_discarded, none, ite_self]

theorem receding_haltWithin (tree : Tree) (depth : Nat) (key : RunKey) :
    Keeping Context.Recedes (haltWithin tree depth key : Tick σ Unit) :=
  .haltWithin receding_discard tree depth key

theorem Keeping.handOver {related : Context σ → Context σ → Prop} [Std.Refl related]
    [IsTrans (Context σ) related] {tree : Tree} {key : RunKey}
    (halts : ∀ child, Keeping related (haltSibling tree key child : Attempt σ Unit))
    (children : List NodeIndex) (previous : Option Nat) (position : Nat) :
    Keeping related (BehaviorTree.handOver tree key children previous position :
      Attempt σ Unit) := by
  unfold BehaviorTree.handOver abandon
  split
  · split
    · split
      · exact .forM _ fun child _ => halts child
      · exact .throw _
    · exact .pure _
  · exact .pure _

end Halts

/-- The note of the innermost running node is left as it is. -/
def Context.SameInnermost (before after : Context σ) : Prop := after.innermost = before.innermost

/-- A relation between contexts to which it does not matter what is stored in them, nor that
another scope was entered and left again. -/
class Context.OverlooksStores (related : Context σ → Context σ → Prop) : Prop extends
    Std.Refl related, IsTrans (Context σ) related where
  stored : ∀ context blackboard runs client,
    related context { context with blackboard := blackboard, runs := runs, client := client }
  rescoped : ∀ {context after : Context σ} {scope : ScopeId},
    related { context with scope := scope } after →
      related context { after with scope := context.scope }

instance : Context.OverlooksStores (Context.SameInnermost (σ := σ)) where
  refl := fun _ => rfl
  trans := fun _ _ _ left right => right.trans left
  stored := fun _ _ _ _ => rfl
  rescoped := id

/-- Whatever becomes of an action, it does not touch the innermost running node. -/
abbrev Steady (action : ExceptT ε (StateM (Context σ)) α) : Prop :=
  Keeping Context.SameInnermost action

variable {related : Context σ → Context σ → Prop} [stores : Context.OverlooksStores related]

namespace Keeping

theorem bound (result : Except BindingError α) :
    Keeping related (BehaviorTree.bound result : Attempt σ α) := by
  cases result
  · exact .throw _
  · exact .pure _

theorem accessed (result : Except BlackboardError α) :
    Keeping related (BehaviorTree.accessed result : Attempt σ α) := by
  cases result
  · exact .throw _
  · exact .pure _

theorem runStateOf (key : RunKey) :
    Keeping related (BehaviorTree.runStateOf key : Attempt σ (Option RunState)) :=
  .bind .get fun _ => .pure _

theorem inScope {action : Attempt σ α} (keeping : Keeping related action) (scope : ScopeId) :
    Keeping related (BehaviorTree.inScope scope action) := by
  intro context
  rw [outcome_inScope]
  exact stores.rescoped (keeping { context with scope := scope })

theorem remember (key : RunKey) (state : RunState) :
    Keeping related (BehaviorTree.remember key state : Attempt σ Unit) :=
  fun context => stores.stored context _ _ _

theorem writeVariable (setting : Setting) (node : NodeIndex) (name : String) (value : Value) :
    Keeping related (BehaviorTree.writeVariable setting node name value : Attempt σ Unit) := by
  refine .of_ends fun context => ?_
  unfold BehaviorTree.writeVariable
  simp only [ends_bind, Attempt.ends_get, ends_accessed, Attempt.ends_set]
  split
  · exact stores.stored context _ _ _
  · exact refl context

theorem writeOutput (setting : Setting) (node : NodeIndex) (port : String) (value : Value) :
    Keeping related (BehaviorTree.writeOutput setting node port value : Attempt σ Unit) := by
  unfold BehaviorTree.writeOutput
  split
  · exact .pure _
  · refine .of_ends fun context => ?_
    simp only [ends_bind, Attempt.ends_get, ends_accessed, Attempt.ends_set]
    split
    · exact stores.stored context _ _ _
    · exact refl context

variable (setting : Setting) (key : RunKey) (node : Node)

theorem counted : Keeping related (BehaviorTree.counted key : Attempt σ (Option Int64)) := by
  refine .bind (runStateOf key) fun state => ?_
  split <;> exact .pure _

theorem startsOf : Keeping related (BehaviorTree.startsOf setting key : Attempt σ Int64) := by
  refine .bind (counted key) fun starts => ?_
  split
  · exact .pure _
  · exact .bind (writeOutput _ _ _ _) fun _ => .pure _

theorem later (now duration : Duration) :
    Keeping related (BehaviorTree.later now duration : Attempt σ Duration) := by
  unfold BehaviorTree.later
  split
  · exact .pure _
  · exact .throw _

theorem deadlineOf (duration : Duration) :
    Keeping related (BehaviorTree.deadlineOf setting key duration :
      Attempt σ (Duration × Bool)) := by
  refine .bind (runStateOf key) fun state => ?_
  split
  · exact .pure _
  · exact .bind (later _ _) fun _ => .pure _

theorem wakeUpTime (duration : Duration) :
    Keeping related (BehaviorTree.wakeUpTime setting key duration : Attempt σ Duration) := by
  refine .bind (runStateOf key) fun state => ?_
  split
  · exact .pure _
  · exact .bind (later _ _) fun _ => .bind (remember _ _) fun _ => .pure _

theorem childAt (position : Nat) :
    Keeping related (BehaviorTree.childAt node key position : Attempt σ NodeIndex) := by
  unfold BehaviorTree.childAt
  split
  · exact .pure _
  · exact .throw _

theorem defineAll (index : NodeIndex) (assignments : List Assignment) :
    Keeping related (BehaviorTree.defineAll setting index assignments : Attempt σ Unit) := by
  induction assignments with
  | nil => exact .pure _
  | cons assignment rest ih =>
    unfold BehaviorTree.defineAll
    refine .of_ends fun context => ?_
    simp only [ends_bind, Attempt.ends_get, ends_bound, ends_accessed, Attempt.ends_set]
    split
    · split
      · exact ih.endsAfter (stores.stored context _ _ _)
      · exact refl context
    · exact refl context

theorem openScope : Keeping related (BehaviorTree.openScope setting key node :
    Attempt σ ScopeId) := by
  refine .of_ends fun context => ?_
  unfold BehaviorTree.openScope
  simp only [ends_bind, Attempt.ends_get, ends_accessed, Attempt.ends_set]
  split
  · rename_i created _
    exact ((defineAll setting key.node node.assignments).inScope created.1).endsAfter
      (stores.stored context _ _ _)
  · exact refl context

theorem scopeOf : Keeping related (BehaviorTree.scopeOf setting key node : Attempt σ ScopeId) := by
  refine .bind (runStateOf key) fun state => ?_
  split
  · refine .bind .get fun context => ?_
    split
    · exact .pure _
    · exact openScope _ _ _
  · exact openScope _ _ _

theorem tickCondition (condition : ConditionConfiguration) :
    Keeping related (BehaviorTree.tickCondition setting condition : Attempt σ Status) := by
  have reads : ∀ operand : Operand, Keeping related (do
      BehaviorTree.bound ((← MonadState.get).freshValue condition.freshness setting.now operand) :
        Attempt σ Lookup) :=
    fun operand => .bind .get fun _ => bound _
  unfold BehaviorTree.tickCondition
  refine .bind (reads _) fun left => ?_
  split
  · refine .bind (reads _) fun right => ?_
    split
    · split
      · exact .pure _
      · exact .pure _
      · exact .throw _
    · exact .pure _
  · exact .pure _

theorem tickSet : Keeping related (BehaviorTree.tickSet setting key node : Attempt σ Status) := by
  unfold BehaviorTree.tickSet
  refine .bind .get fun context => .bind (bound _) fun values => .bind ?_ fun _ => .bind ?_
    fun _ => .pure _
  · refine .forM _ fun assigned _ => ?_
    dsimp only
    split
    · exact .pure _
    · exact .throw _
  · exact .forM _ fun assigned _ => writeVariable _ _ _ _

variable [RemoteService σ]

theorem discard (key : RunKey) : Keeping related (BehaviorTree.discard key : Tick σ Unit) := by
  intro context
  have discarded : (outcome (BehaviorTree.discard key : Tick σ Unit) context).2 =
      context.discarded key := rfl
  rw [discarded, Context.discarded]
  split
  · exact stores.stored context _ _ _
  · exact refl context

theorem halt (tree : Tree) : Keeping related (BehaviorTree.halt tree key : Tick σ Unit) :=
  .haltWithin discard tree _ key

theorem haltSibling (tree : Tree) (child : NodeIndex) :
    Keeping related (BehaviorTree.haltSibling tree key child : Attempt σ Unit) :=
  .attempt (halt _ tree)

theorem timeOut (child : NodeIndex) (timedOut : Bool) :
    Keeping related (BehaviorTree.timeOut setting key child timedOut : Attempt σ Unit) := by
  unfold BehaviorTree.timeOut
  split
  · exact .pure _
  · exact .bind (haltSibling _ _ _) fun _ => writeOutput _ _ _ _

theorem haltAfterPause (child : NodeIndex) :
    Keeping related (BehaviorTree.haltAfterPause setting key child : Attempt σ Unit) := by
  refine .bind (runStateOf key) fun state => ?_
  split
  · split
    · exact haltSibling _ _ _
    · exact .pure _
  · exact .pure _

end Keeping

namespace RemoteStep

variable {action : RemoteStep σ α} {next : α → RemoteStep σ β}

/-- Whatever becomes of an action, the context that it leaves is related to the one before. -/
def Keeping (related : Context σ → Context σ → Prop) (action : RemoteStep σ α) : Prop :=
  ∀ run context, Ends action run context (fun _ _ after => related context after)
    fun _ _ after => related context after

namespace Keeping

theorem pure (value : α) : Keeping related (pure value : RemoteStep σ α) :=
  fun _ context => refl context

theorem throw (fault : Fault) : Keeping related (throw fault : RemoteStep σ α) :=
  fun _ context => refl context

theorem get : Keeping related (get : RemoteStep σ RemoteRun) := fun _ context => refl context

theorem update (change : RemoteRun → RemoteRun) :
    Keeping related (update change : RemoteStep σ Unit) :=
  fun _ context => refl context

theorem useClient (operation : Client σ → α × Client σ) :
    Keeping related (useClient operation) :=
  fun _ context => stores.stored context _ _ _

omit stores in
theorem ofAttempt {attempt : Attempt σ α} (keeping : BehaviorTree.Keeping related attempt) :
    Keeping related (ofAttempt attempt) :=
  fun _ _ => ends_ofAttempt.2 (keeping.ends _)

theorem bind (begins : Keeping related action) (goesOn : ∀ result, Keeping related (next result)) :
    Keeping related (action >>= next) := by
  intro run context
  have kept := begins run context
  rw [ends_bind]
  unfold Ends at kept ⊢
  revert kept
  rcases (action.run.run run).run context with ⟨⟨error | result, run⟩, middle⟩
  · exact id
  · intro kept
    have rest := goesOn result run middle
    unfold Ends at rest
    revert rest
    dsimp only
    rcases ((next result).run.run run).run middle with ⟨⟨error | last, run⟩, after⟩ <;>
      exact fun rest => IsTrans.trans _ _ _ kept rest

theorem retryOr (error : RemoteError) (attempts : Nat) (limit : UInt32) :
    Keeping related (retryOr error attempts limit : RemoteStep σ Status) := by
  unfold RemoteStep.retryOr
  split
  · exact pure _
  · exact throw _

variable [RemoteService σ] (setting : Setting) (key : RunKey) (node : Node)
  (remote : RemoteConfiguration)

theorem openSession : Keeping related (openSession remote : RemoteStep σ Unit) := by
  refine .bind .get fun run => ?_
  split
  · exact .pure _
  · refine .bind (.useClient _) fun opened => ?_
    split
    · exact .update _
    · exact .throw _

theorem currentCall : Keeping related (currentCall setting node remote : RemoteStep σ
    (Except (Failure RemoteError) CallHandle)) := by
  refine .bind .get fun run => ?_
  split
  · exact .pure _
  · refine .bind (.update _) fun _ => .bind (.useClient _) fun started => ?_
    split
    · exact .bind (.update _) fun _ => .pure _
    · exact .pure _

omit [RemoteService σ] in
theorem settle (reply : Except (Failure RemoteError) CallStatus) :
    Keeping related (settle setting key remote reply : RemoteStep σ Status) := by
  have output : ∀ port value, Keeping related (RemoteStep.ofAttempt (BehaviorTree.writeOutput
      setting key.node port value) : RemoteStep σ Unit) :=
    fun _ _ => .ofAttempt (.writeOutput _ _ _ _)
  unfold RemoteStep.settle
  split
  · refine .bind (.update _) fun _ => ?_
    split
    · exact .bind (output _ _) fun _ => .pure _
    · exact .pure _
  · exact .bind (.update _) fun _ => .bind (output _ _) fun _ => .pure _
  · exact .bind (.update _) fun _ => .throw _
  · exact .throw _
  · exact .bind (.update _) fun _ => .bind .get fun _ => .retryOr _ _ _
  · exact .bind (.update _) fun _ => .bind .get fun _ => .retryOr _ _ _

theorem advance : Keeping related (advance setting key node remote : RemoteStep σ Status) := by
  refine .bind (openSession _) fun _ => .bind (currentCall _ _ _) fun call => ?_
  split
  · exact .throw _
  · exact .bind .get fun _ => .retryOr _ _ _
  · exact .bind (.useClient _) fun _ => settle _ _ _ _

end Keeping

end RemoteStep

theorem Keeping.tickRemote [RemoteService σ] (setting : Setting) (key : RunKey) (node : Node)
    (remote : RemoteConfiguration) :
    Keeping related (BehaviorTree.tickRemote setting key node remote : Attempt σ Status) := by
  intro context
  have begun : related context { context with runs := context.runs.erase key } :=
    stores.stored context _ _ _
  have steps : RemoteStep.Keeping related
      (RemoteStep.advance setting key node remote : RemoteStep σ Status) :=
    .advance setting key node remote
  have advanced := steps (context.runs.remoteRun key)
    { context with runs := context.runs.erase key }
  unfold RemoteStep.Ends at advanced
  unfold outcome BehaviorTree.tickRemote
  simp only [ExceptT.run, StateT.run] at advanced ⊢
  revert advanced
  rcases RemoteStep.advance setting key node remote (context.runs.remoteRun key)
    { context with runs := context.runs.erase key } with ⟨⟨fault | status, remembered⟩, after⟩
  · exact fun advanced => IsTrans.trans _ _ _ (IsTrans.trans _ _ _ begun advanced)
      (stores.stored after _ _ _)
  · cases status <;> exact fun advanced => IsTrans.trans _ _ _
      (IsTrans.trans _ _ _ begun advanced) (stores.stored after _ _ _)

end BehaviorTree
