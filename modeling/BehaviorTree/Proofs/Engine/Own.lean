import BehaviorTree.Proofs.Engine.PastRemote

/-!
# What nodes do by themselves

Apart from what it ticks and halts, a node reads and changes no run state but its own. Whatever the
run states of all others are, it does the same, and leaves them as they are. It stays at its place,
in its invocation, and gives no frames to references.
-/

namespace BehaviorTree

variable {σ α β γ : Type}

/-- The context with other run states. -/
def Context.withStates (context : Context σ) (states : Table RunKey RunState) : Context σ :=
  { context with runs := { context.runs with states := states } }

/-- Where the engine is, with the frames that references have. -/
structure Place where
  frame : FrameId
  parameters : List (Table String Value)
  frames : Table RunKey FrameId
  lastFrame : FrameId

def Context.place (context : Context σ) : Place :=
  ⟨context.frame, context.parameters, context.runs.frames, context.runs.lastFrame⟩

/-- Run states that are alike stay so when a node reads or changes its own. -/
structure Shares (alike : Table RunKey RunState → Table RunKey RunState → Prop) (key : RunKey) :
    Prop where
  get? : ∀ {one other}, alike one other → one.get? key = other.get? key
  insert : ∀ {one other} (state : RunState), alike one other →
    alike (one.insert key state) (other.insert key state)
  erase : ∀ {one other}, alike one other → alike (one.erase key) (other.erase key)

theorem shares_eq (key : RunKey) : Shares Eq key :=
  ⟨fun same => same ▸ rfl, fun _ same => same ▸ rfl, fun same => same ▸ rfl⟩

/-- What is alike while a node does something at a place, with one or the other run states. -/
def beside (alike : Table RunKey RunState → Table RunKey RunState → Prop) (place : Place) :
    Likeness Fault (Context σ) where
  states older newer := older.place = place ∧
    ∃ states, newer = older.withStates states ∧ alike older.runs.states states
  exhausted _ := False

/-- An action reads and changes no run state but that of one node, and stays at its place. -/
def Own (key : RunKey) (action : Attempt σ α) : Prop :=
  ∀ alike place, Shares alike key → (beside alike place).Agree Eq action action

variable {key : RunKey} {setting : Setting} {node : Node}
  {alike : Table RunKey RunState → Table RunKey RunState → Prop} {place : Place}

theorem Context.value_withStates (context : Context σ) (states : Table RunKey RunState)
    (operand : Operand) : (context.withStates states).value operand = context.value operand := by
  cases operand <;> rfl

theorem Context.freshValue_withStates (context : Context σ) (states : Table RunKey RunState)
    (freshness : Freshness) (now : Duration) (operand : Operand) :
    (context.withStates states).freshValue freshness now operand =
      context.freshValue freshness now operand := by
  cases operand <;> rfl

theorem Context.bindParameters_withStates (context : Context σ) (states : Table RunKey RunState)
    (parameters : List Parameter) (arguments : List Argument) :
    bindParameters parameters arguments (context.withStates states) =
      bindParameters parameters arguments context := by
  have bind : ∀ parameter : Parameter,
      parameter.bind arguments (context.withStates states) = parameter.bind arguments context := by
    intro parameter
    simp only [Parameter.bind, value_withStates]
  simp only [bindParameters, bind]

theorem Context.effectiveConfiguration_withStates (context : Context σ)
    (states : Table RunKey RunState) (node : Node) :
    node.effectiveConfiguration (context.withStates states) =
      node.effectiveConfiguration context := by
  have fill : Override.fill node.kind (context.withStates states) =
      Override.fill node.kind context := by
    funext fields change
    simp only [Override.fill, value_withStates]
  unfold Node.effectiveConfiguration
  rw [fill]

theorem agree_beside_get : (beside alike place).Agree (beside alike place).states
    (get : Attempt σ (Context σ)) get := fun _ _ states => .done ⟨states, states⟩

theorem agree_beside_set {older newer : Context σ}
    (states : (beside alike place).states older newer) :
    (beside alike place).Agree Eq (set older : Attempt σ PUnit) (set newer) :=
  fun _ _ _ => .done ⟨rfl, states⟩

theorem agree_beside_bound (result : Except BindingError α) :
    (beside alike place).Agree Eq (bound result : Attempt σ α) (bound result) := by
  cases result with
  | ok value => exact Likeness.agree_pure rfl
  | error cause => exact Likeness.agree_throw _

theorem agree_beside_accessed (result : Except BlackboardError α) :
    (beside alike place).Agree Eq (accessed result : Attempt σ α) (accessed result) := by
  cases result with
  | ok value => exact Likeness.agree_pure rfl
  | error cause => exact Likeness.agree_throw _

namespace Own

theorem pure (value : α) : Own key (pure value : Attempt σ α) :=
  fun _ _ _ => Likeness.agree_pure rfl

theorem throw (fault : Fault) : Own key (throw fault : Attempt σ α) :=
  fun _ _ _ => Likeness.agree_throw fault

theorem bind {first : Attempt σ α} {next : α → Attempt σ β} (begins : Own key first)
    (goesOn : ∀ result, Own key (next result)) : Own key (first >>= next) :=
  fun alike place shares => (begins alike place shares).andThen fun result =>
    goesOn result alike place shares

theorem forM (items : List α) {body : α → Attempt σ PUnit} (each : ∀ item, Own key (body item)) :
    Own key (items.forM body) := fun alike place shares =>
  Likeness.agree_forM items fun item _ => each item alike place shares

theorem bound (result : Except BindingError α) : Own key (bound result : Attempt σ α) :=
  fun _ _ _ => agree_beside_bound result

theorem accessed (result : Except BlackboardError α) :
    Own key (accessed result : Attempt σ α) := fun _ _ _ => agree_beside_accessed result

/-- An action goes on with what it reads off a context, which does not concern run states. -/
theorem look (read : Context σ → α) (next : α → Attempt σ β)
    (same : ∀ context states, read (context.withStates states) = read context)
    (goesOn : ∀ value, Own key (next value)) :
    Own key (get >>= fun context => next (read context)) := by
  intro alike place shares
  refine agree_beside_get.bind ?_
  rintro older newer ⟨-, states, rfl, -⟩
  rw [same]
  exact goesOn _ alike place shares

theorem runStateOf : Own key (runStateOf key : Attempt σ (Option RunState)) := by
  rintro alike place shares older newer ⟨here, states, rfl, kin⟩
  exact .done ⟨shares.get? kin, here, states, rfl, kin⟩

theorem remember (state : RunState) : Own key (remember key state : Attempt σ Unit) := by
  rintro alike place shares older newer ⟨here, states, rfl, kin⟩
  exact .done ⟨rfl, here, _, rfl, shares.insert state kin⟩

theorem writeVariable (name : String) (value : Value) :
    Own key (writeVariable setting key.node name value : Attempt σ Unit) := by
  intro alike place shares
  unfold BehaviorTree.writeVariable
  refine agree_beside_get.bind ?_
  rintro older newer ⟨here, states, rfl, kin⟩
  refine (agree_beside_accessed _).andThen fun blackboard => ?_
  exact agree_beside_set ⟨here, states, rfl, kin⟩

theorem writeOutput (port : String) (value : Value) :
    Own key (writeOutput setting key.node port value : Attempt σ Unit) := by
  intro alike place shares
  unfold BehaviorTree.writeOutput
  split
  · exact Likeness.agree_pure rfl
  · refine agree_beside_get.bind ?_
    rintro older newer ⟨here, states, rfl, kin⟩
    refine (agree_beside_accessed _).andThen fun blackboard => ?_
    exact agree_beside_set ⟨here, states, rfl, kin⟩

theorem inScope {action : Attempt σ α} (own : Own key action) (scope : ScopeId) :
    Own key (inScope scope action) := by
  rintro alike place shares older newer ⟨here, states, rfl, kin⟩
  rw [outcome_inScope, outcome_inScope]
  refine (own alike place shares { older with scope := scope } _
    ⟨here, states, rfl, kin⟩).leave (fun inner => { inner with scope := older.scope })
    (fun inner => { inner with scope := older.scope }) ?_
  rintro inner _ ⟨here, states, rfl, kin⟩
  exact ⟨here, states, rfl, kin⟩

end Own

theorem own_counted : Own key (counted key : Attempt σ (Option Int64)) := by
  refine .bind .runStateOf fun state => ?_
  rcases state with _ | state
  · exact .pure _
  · cases state <;> exact .pure _

theorem own_startsOf : Own key (startsOf setting key : Attempt σ Int64) := by
  refine .bind own_counted fun count => ?_
  rcases count with _ | starts
  · exact .bind (.writeOutput _ _) fun _ => .pure _
  · exact .pure _

theorem own_later (now duration : Duration) :
    Own key (later now duration : Attempt σ Duration) := by
  unfold later
  split
  · exact .pure _
  · exact .throw _

theorem own_deadlineOf (duration : Duration) :
    Own key (deadlineOf setting key duration : Attempt σ (Duration × Bool)) := by
  have starts : Own key (do return (← later setting.now duration, false) :
      Attempt σ (Duration × Bool)) := .bind (own_later _ _) fun _ => .pure _
  refine .bind .runStateOf fun state => ?_
  rcases state with _ | state
  · exact starts
  · cases state with
    | forDuration deadline timedOut => exact .pure _
    | _ => exact starts

theorem own_wakeUpTime (duration : Duration) :
    Own key (wakeUpTime setting key duration : Attempt σ Duration) := by
  have starts : Own key (do
      let deadline ← later setting.now duration
      remember key (.sleep deadline)
      return deadline : Attempt σ Duration) :=
    .bind (own_later _ _) fun _ => .bind (.remember _) fun _ => .pure _
  refine .bind .runStateOf fun state => ?_
  rcases state with _ | state
  · exact starts
  · cases state with
    | sleep deadline => exact .pure _
    | _ => exact starts

theorem own_tickCondition (condition : ConditionConfiguration) :
    Own key (tickCondition setting condition : Attempt σ Status) := by
  have reads : ∀ operand, Own key
      (do bound ((← get).freshValue condition.freshness setting.now operand) :
        Attempt σ Lookup) := by
    intro operand
    exact .look (·.freshValue condition.freshness setting.now operand) BehaviorTree.bound
      (fun context states => context.freshValue_withStates states _ _ operand) .bound
  refine .bind (reads _) fun left => ?_
  split
  · refine .bind (reads _) fun right => ?_
    split
    · split
      · exact .pure _
      · exact .pure _
      · exact .throw _
    · exact .pure _
  · exact .pure _

theorem own_defineAll (assignments : List Assignment) :
    Own key (defineAll setting key.node assignments : Attempt σ Unit) := by
  induction assignments with
  | nil => exact .pure _
  | cons assignment rest ih =>
    intro alike place shares
    unfold defineAll
    refine agree_beside_get.bind ?_
    rintro older newer ⟨here, states, rfl, kin⟩
    rw [older.value_withStates]
    refine (agree_beside_bound _).andThen fun value => ?_
    refine (agree_beside_accessed _).andThen fun blackboard => ?_
    refine (agree_beside_set ?_).andThen fun _ => ih alike place shares
    exact ⟨here, states, rfl, kin⟩

theorem own_openScope : Own key (openScope setting key node : Attempt σ ScopeId) := by
  intro alike place shares
  unfold openScope
  refine agree_beside_get.bind ?_
  rintro older newer ⟨here, states, rfl, kin⟩
  refine (agree_beside_accessed _).andThen fun (scope, blackboard) => ?_
  refine (agree_beside_set ?_).andThen fun _ => ?_
  · exact ⟨here, states, rfl, kin⟩
  · refine Own.bind (.remember _) (fun _ => ?_) alike place shares
    exact .bind (.inScope (own_defineAll _) _) fun _ => .pure _

theorem own_scopeOf : Own key (scopeOf setting key node : Attempt σ ScopeId) := by
  refine .bind .runStateOf fun state => ?_
  rcases state with _ | state
  · exact own_openScope
  · cases state with
    | scope id =>
      refine .look (·.blackboard.isAlive id)
        (fun isAlive => if isAlive then pure id else openScope setting key node)
        (fun _ _ => rfl) fun isAlive => ?_
      split
      · exact .pure _
      · exact own_openScope
    | _ => exact own_openScope

theorem own_tickSet : Own key (tickSet setting key node : Attempt σ Status) := by
  intro alike place shares
  unfold tickSet
  refine agree_beside_get.bind ?_
  rintro older newer ⟨here, states, rfl, kin⟩
  simp only [older.value_withStates]
  refine (agree_beside_bound _).andThen fun values => ?_
  refine Own.bind (.forM _ ?_) (fun _ => .bind (.forM _ ?_) fun _ => .pure _) alike place shares
  · rintro ⟨name, value⟩
    dsimp only
    split
    · exact .pure _
    · exact .throw _
  · rintro ⟨name, value⟩
    exact .writeVariable _ _

/-- What is alike while a remote node deals with its service, with one or the other run states. -/
def besideRemotely (alike : Table RunKey RunState → Table RunKey RunState → Prop)
    (place : Place) : Likeness Fault (RemoteRun × Context σ) where
  states older newer := older.1 = newer.1 ∧ (beside alike place).states older.2 newer.2
  exhausted _ := False

/-- A step of a remote node concerns no run state but its own. -/
def OwnStep (key : RunKey) (action : RemoteStep σ α) : Prop :=
  ∀ alike place, Shares alike key →
    (besideRemotely alike place).Agree Eq action.paired action.paired

namespace OwnStep

theorem pure (value : α) : OwnStep key (pure value : RemoteStep σ α) :=
  fun _ _ _ => Likeness.agree_pure rfl

theorem throw (fault : Fault) : OwnStep key (throw fault : RemoteStep σ α) :=
  fun _ _ _ => Likeness.agree_throw fault

theorem bind {first : RemoteStep σ α} {next : α → RemoteStep σ β} (begins : OwnStep key first)
    (goesOn : ∀ result, OwnStep key (next result)) : OwnStep key (first >>= next) := by
  intro alike place shares
  rw [RemoteStep.paired_bind]
  exact (begins alike place shares).andThen fun result => goesOn result alike place shares

theorem get : OwnStep key (get : RemoteStep σ RemoteRun) :=
  fun _ _ _ _ _ states => .done ⟨states.1, states⟩

theorem update (change : RemoteRun → RemoteRun) :
    OwnStep key (RemoteStep.update change : RemoteStep σ Unit) :=
  fun _ _ _ _ _ states => .done ⟨rfl, congrArg change states.1, states.2⟩

theorem useClient (operation : Client σ → α × Client σ) :
    OwnStep key (RemoteStep.useClient operation) := by
  rintro alike place - ⟨run, older⟩ ⟨_, newer⟩ ⟨rfl, here, states, rfl, kin⟩
  exact .done ⟨rfl, rfl, here, states, rfl, kin⟩

theorem ofAttempt {attempt : Attempt σ α} (own : Own key attempt) :
    OwnStep key (RemoteStep.ofAttempt attempt) := by
  rintro alike place shares ⟨run, older⟩ ⟨_, newer⟩ ⟨rfl, states⟩
  have outcomes := own alike place shares older newer states
  have lifted : ∀ context : Context σ,
      outcome (RemoteStep.ofAttempt attempt).paired (run, context) =
        ((outcome attempt context).1, (run, (outcome attempt context).2)) := fun _ => rfl
  rw [lifted, lifted]
  revert outcomes
  generalize outcome attempt older = one
  generalize outcome attempt newer = other
  intro outcomes
  cases outcomes with
  | done holds => exact .done ⟨holds.1, rfl, holds.2⟩
  | failed alike => exact .failed ⟨rfl, alike⟩
  | exhausted out => exact out.elim

end OwnStep

theorem ownStep_retryOr (error : RemoteError) (attempts : Nat) (limit : UInt32) :
    OwnStep key (RemoteStep.retryOr error attempts limit : RemoteStep σ Status) := by
  unfold RemoteStep.retryOr
  split
  · exact .pure _
  · exact .throw _

theorem ownStep_settle (remote : RemoteConfiguration)
    (reply : Except (Failure RemoteError) CallStatus) :
    OwnStep key (RemoteStep.settle setting key remote reply : RemoteStep σ Status) := by
  unfold RemoteStep.settle
  split
  · refine .bind (.update _) fun _ => ?_
    split
    · exact .bind (.ofAttempt (.writeOutput _ _)) fun _ => .pure _
    · exact .pure _
  · refine .bind (.update _) fun _ => ?_
    exact .bind (.ofAttempt (.writeOutput _ _)) fun _ => .pure _
  · exact .bind (.update _) fun _ => .throw _
  · exact .throw _
  · exact .bind (.update _) fun _ => .bind .get fun _ => ownStep_retryOr _ _ _
  · exact .bind (.update _) fun _ => .bind .get fun _ => ownStep_retryOr _ _ _

variable [RemoteService σ]

theorem ownStep_openSession (remote : RemoteConfiguration) :
    OwnStep key (RemoteStep.openSession remote : RemoteStep σ Unit) := by
  refine .bind .get fun run => ?_
  split
  · exact .pure _
  · refine .bind (.useClient _) fun opened => ?_
    cases opened with
    | ok done => exact .update _
    | error error => exact .throw _

theorem ownStep_currentCall (remote : RemoteConfiguration) :
    OwnStep key (RemoteStep.currentCall setting node remote :
      RemoteStep σ (Except (Failure RemoteError) CallHandle)) := by
  refine .bind .get fun run => ?_
  cases run.call with
  | some call => exact .pure _
  | none =>
    refine .bind (.update _) fun _ => .bind (.useClient _) fun started => ?_
    cases started with
    | ok call => exact .bind (.update _) fun _ => .pure _
    | error error => exact .pure _

theorem ownStep_advance (remote : RemoteConfiguration) :
    OwnStep key (RemoteStep.advance setting key node remote : RemoteStep σ Status) := by
  refine .bind (ownStep_openSession remote) fun _ => ?_
  refine .bind (ownStep_currentCall remote) fun made => ?_
  rcases made with (error | cause) | call
  · exact .bind .get fun _ => ownStep_retryOr _ _ _
  · exact .throw _
  · exact .bind (.useClient _) fun reply => ownStep_settle remote reply

/-- A remote node takes its run state with it while it deals with its service. -/
theorem own_tickRemote (remote : RemoteConfiguration) :
    Own key (tickRemote setting key node remote : Attempt σ Status) := by
  rintro alike place shares older newer ⟨here, states, rfl, kin⟩
  have same : (older.withStates states).runs.remoteRun key = older.runs.remoteRun key := by
    simp only [RunStore.remoteRun, RunStore.get?, shares.get? kin, Context.withStates]
  have advances : OwnStep key (RemoteStep.advance setting key node remote : RemoteStep σ Status) :=
    ownStep_advance remote
  have advanced := advances alike place shares
    (older.runs.remoteRun key, { older with runs := older.runs.erase key })
    (older.runs.remoteRun key,
      { older.withStates states with runs := (older.withStates states).runs.erase key })
    ⟨rfl, here, _, rfl, shares.erase kin⟩
  rw [outcome_tickRemote, outcome_tickRemote, same]
  revert advanced
  generalize outcome (RemoteStep.paired _) _ = one
  generalize outcome (RemoteStep.paired _) _ = other
  intro advanced
  have released : ∀ {run : RemoteRun} {one other : Context σ},
      (beside alike place).states one other →
      (beside alike place).states (one.release (.remote run)) (other.release (.remote run)) := by
    rintro run one _ ⟨here, states, rfl, kin⟩
    exact ⟨here, states, rfl, kin⟩
  cases advanced with
  | @done status _ first second holds =>
    rcases first with ⟨run, first⟩
    rcases second with ⟨_, second⟩
    rcases holds with ⟨rfl, rfl, here, states, rfl, kin⟩
    cases status with
    | running => exact .done ⟨rfl, here, _, rfl, shares.insert _ kin⟩
    | success => exact .done ⟨rfl, released ⟨here, states, rfl, kin⟩⟩
    | failure => exact .done ⟨rfl, released ⟨here, states, rfl, kin⟩⟩
  | @failed fault first second alike =>
    rcases first with ⟨run, first⟩
    rcases second with ⟨_, second⟩
    rcases alike with ⟨rfl, states⟩
    exact .failed (released states)
  | exhausted out => exact out.elim

end BehaviorTree
