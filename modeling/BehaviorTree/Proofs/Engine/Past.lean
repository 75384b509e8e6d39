import BehaviorTree.Engine.Tick
import BehaviorTree.Proofs.Blackboard.Reuse
import BehaviorTree.Proofs.Engine.Agreement
import BehaviorTree.Proofs.Engine.Resources
import BehaviorTree.Proofs.Remote.Renumbering

/-!
# Contexts with a past

The engine goes on with what earlier runs left behind: slots of the blackboard that were used, and
handles and pauses that were counted. A context with such a past mirrors one without: what it holds
is the same, but for the handles of scopes and requests and the number of pauses. What every part of
a tick does is shown to agree on the two.
-/

namespace BehaviorTree

/-- What earlier runs leave behind. -/
structure Past where
  /-- The blackboard, on which only the root is left. -/
  ground : Blackboard
  /-- The number of the next request. -/
  offset : UInt64
  pauses : BitVec 64
  journal : List Exchange

namespace Past

variable (past : Past)

def handle (handle : CallHandle) : CallHandle := handle.later past.offset

def remote (run : RemoteRun) : RemoteRun := { run with call := run.call.map past.handle }

/-- The run state that a node has after the past, if it would else have another one. -/
def state : RunState → RunState
  | .scope id => .scope (past.ground.handle id)
  | .remote run => .remote (past.remote run)
  | .epoch pauses => .epoch (pauses + past.pauses)
  | .child current => .child current
  | .counter count => .counter count
  | .forDuration deadline timedOut => .forDuration deadline timedOut
  | .sleep deadline => .sleep deadline

def runs (store : RunStore) : RunStore :=
  { store with states := store.states.mapValues past.state }

def setting (setting : Setting) : Setting :=
  { setting with pauses := setting.pauses + past.pauses }

variable {past}

@[simp]
theorem setting_tree (setting : Setting) : (past.setting setting).tree = setting.tree := rfl

@[simp]
theorem setting_config (setting : Setting) : (past.setting setting).config = setting.config := rfl

@[simp]
theorem setting_now (setting : Setting) : (past.setting setting).now = setting.now := rfl

@[simp]
theorem call_remote (run : RemoteRun) : (past.remote run).call = run.call.map past.handle := rfl

theorem get?_runs (store : RunStore) (key : RunKey) :
    (past.runs store).get? key = (store.get? key).map past.state :=
  Table.get?_mapValues _ _ _

theorem runs_insert (store : RunStore) (key : RunKey) (state : RunState) :
    past.runs (store.insert key state) = (past.runs store).insert key (past.state state) := by
  simp only [runs, RunStore.insert, Table.mapValues_insert]

theorem runs_erase (store : RunStore) (key : RunKey) :
    past.runs (store.erase key) = (past.runs store).erase key := by
  simp only [runs, RunStore.erase, Table.mapValues_erase]

theorem runs_frameFor (store : RunStore) (key : RunKey) :
    (past.runs store).frameFor key =
      ((store.frameFor key).1, past.runs (store.frameFor key).2) := by
  cases framed : store.frames.get? key <;> simp [RunStore.frameFor, framed, runs]

theorem states_frameFor (store : RunStore) (key : RunKey) :
    (store.frameFor key).2.states = store.states := by
  unfold RunStore.frameFor
  split <;> rfl

theorem remoteRun_runs (store : RunStore) (key : RunKey) :
    (past.runs store).remoteRun key = past.remote (store.remoteRun key) := by
  unfold RunStore.remoteRun
  rw [get?_runs]
  cases store.get? key with
  | none => rfl
  | some state => cases state <;> rfl

theorem call?_state (state : RunState) :
    (past.state state).call? = state.call?.map past.handle := by
  cases state <;> rfl

theorem scope?_state (state : RunState) :
    (past.state state).scope? = state.scope?.map past.ground.handle := by
  cases state <;> rfl

theorem detach_state (state : RunState) : (past.state state).detach = past.state state.detach := by
  cases state with
  | remote run => cases held : run.call <;> simp [RunState.detach, Past.state, remote, held]
  | _ => rfl

theorem scopeAt_runs (store : RunStore) (key : RunKey) :
    (past.runs store).scopeAt key = (store.scopeAt key).map past.ground.handle := by
  unfold RunStore.scopeAt
  rw [get?_runs]
  cases store.get? key with
  | none => rfl
  | some state => exact scope?_state state

theorem fst_detachCalls (store : RunStore) :
    (past.runs store).detachCalls.1 = store.detachCalls.1.map past.handle := by
  simp only [RunStore.detachCalls, runs, Table.mapValues, Table.values, List.map_map,
    List.filterMap_map, List.map_filterMap]
  apply List.filterMap_congr
  intro entry _
  exact call?_state entry.2

theorem snd_detachCalls (store : RunStore) :
    (past.runs store).detachCalls.2 = past.runs store.detachCalls.2 := by
  simp only [RunStore.detachCalls, runs, Table.mapValues, List.map_map]
  simp only [Function.comp_def, detach_state]

end Past

variable {σ α β : Type}

/-- A context with a past holds what one without a past holds. -/
structure Context.Mirrors (past : Past) (older newer : Context σ) : Prop where
  blackboard : past.ground.Mirrors older.blackboard newer.blackboard
  runs : older.runs = past.runs newer.runs
  client : Client.Mirrors past.offset past.journal older.client newer.client
  reports : older.reports = newer.reports
  scope : older.scope = past.ground.handle newer.scope
  frame : older.frame = newer.frame
  parameters : older.parameters = newer.parameters
  innermost : older.innermost = newer.innermost
  visits : older.visits = newer.visits

namespace Past

variable (past : Past)

/-- What is alike when parts of ticks with and without a past agree. -/
def ticks : Likeness (Failure EngineError) (Context σ) where
  states older newer := older.Mirrors past newer ∧ newer.client.Backs newer.runs.callAt
  exhausted failure := failure = .crash .handleOverflow

/-- What is alike when attempts with and without a past agree, while something else is known of the
requests. -/
def attemptsWith (known : Client σ → RunStore → Prop) : Likeness Fault (Context σ) where
  states older newer := older.Mirrors past newer ∧ known newer.client newer.runs
  exhausted fault := fault = .abort (.crash .handleOverflow)

/-- What is alike when attempts with and without a past agree. -/
abbrev attempts : Likeness Fault (Context σ) :=
  past.attemptsWith fun client runs => client.Backs runs.callAt

end Past

variable {past : Past} {older newer : Context σ} {related : α → β → Prop}
  {known : Client σ → RunStore → Prop}

namespace Context.Mirrors

theorem value (mirrors : older.Mirrors past newer) (operand : Operand) :
    older.value operand = newer.value operand := by
  cases operand with
  | constant value => rfl
  | parameter name => simp only [Context.value, Context.parameter, mirrors.parameters]
  | path path => simp only [Context.value, mirrors.scope, mirrors.blackboard.resolveValue_eq]

theorem freshValue (mirrors : older.Mirrors past newer) (freshness : Freshness) (now : Duration)
    (operand : Operand) :
    older.freshValue freshness now operand = newer.freshValue freshness now operand := by
  cases operand with
  | path path => simp only [Context.freshValue, mirrors.scope, mirrors.blackboard.resolve_eq]
  | _ => simp only [Context.freshValue, mirrors.value]

theorem effectiveConfiguration (mirrors : older.Mirrors past newer) (node : Node) :
    node.effectiveConfiguration older = node.effectiveConfiguration newer := by
  have fill : Override.fill node.kind older = Override.fill node.kind newer := by
    funext fields change
    simp only [Override.fill, mirrors.value]
  unfold Node.effectiveConfiguration
  rw [fill]

theorem bindParameters (mirrors : older.Mirrors past newer) (parameters : List Parameter)
    (arguments : List Argument) :
    BehaviorTree.bindParameters parameters arguments older =
      BehaviorTree.bindParameters parameters arguments newer := by
  have bind : ∀ parameter : Parameter,
      parameter.bind arguments older = parameter.bind arguments newer := by
    intro parameter
    simp only [Parameter.bind, mirrors.value]
  simp only [BehaviorTree.bindParameters, bind]

theorem setRun (mirrors : older.Mirrors past newer) (key : RunKey) (state : RunState) :
    (older.setRun key (past.state state)).Mirrors past (newer.setRun key state) :=
  { mirrors with runs := by simp only [Context.setRun, mirrors.runs, Past.runs_insert] }

end Context.Mirrors

namespace Past

variable {key : RunKey}

theorem agree_get : (past.attemptsWith known).Agree (past.attemptsWith known).states
    (get : Attempt σ (Context σ)) get := fun _ _ alike => .done ⟨alike, alike⟩

theorem agree_set (mirrors : older.Mirrors past newer)
    (holds : known newer.client newer.runs) :
    (past.attemptsWith known).Agree Eq (set older : Attempt σ PUnit) (set newer) :=
  fun _ _ _ => .done ⟨rfl, mirrors, holds⟩

theorem agree_modify {change other : Context σ → Context σ}
    (alike : ∀ older newer, (past.attemptsWith known).states older newer →
      (past.attemptsWith known).states (change older) (other newer)) :
    (past.attemptsWith known).Agree Eq (modify change : Attempt σ PUnit) (modify other) :=
  fun older newer states => .done ⟨rfl, alike older newer states⟩

theorem agree_failNode (cause : TickError) :
    (past.attemptsWith known).Agree related (failNode cause : Attempt σ α) (failNode cause) :=
  Likeness.agree_throw _

theorem agree_bound (result : Except BindingError α) :
    (past.attemptsWith known).Agree Eq (bound result : Attempt σ α) (bound result) := by
  cases result with
  | ok value => exact Likeness.agree_pure rfl
  | error cause => exact agree_failNode _

theorem agree_accessed {one : Except BlackboardError α} {other : Except BlackboardError β}
    (fit : Matches related one other) :
    (past.attemptsWith known).Agree related (accessed one : Attempt σ α) (accessed other) := by
  cases fit with
  | ok values => exact Likeness.agree_pure values
  | error cause => exact agree_failNode _

/-- Parts of ticks that agree do so as parts of attempts. -/
theorem agree_attempt {first : Tick σ α} {second : Tick σ β}
    (agree : past.ticks.Agree related first second) :
    past.attempts.Agree related (Tick.attempt first) (Tick.attempt second) := by
  intro older newer alike
  have outcomes := agree older newer alike
  rw [outcome_attempt, outcome_attempt]
  revert outcomes
  generalize outcome first older = one
  generalize outcome second newer = other
  intro outcomes
  cases outcomes with
  | done holds => exact .done holds
  | failed alike => exact .failed alike
  | exhausted out => exact .exhausted (congrArg Fault.abort out) _ _

theorem agree_inScope {first : Attempt σ α} {second : Attempt σ β}
    (agree : past.attempts.Agree related first second) (scope : ScopeId) :
    past.attempts.Agree related (inScope (past.ground.handle scope) first)
      (inScope scope second) := by
  rintro older newer ⟨mirrors, backs⟩
  have outcomes := agree { older with scope := past.ground.handle scope }
    { newer with scope := scope } ⟨{ mirrors with scope := rfl }, backs⟩
  rw [outcome_inScope, outcome_inScope]
  exact outcomes.leave (fun inner => { inner with scope := older.scope })
    (fun inner => { inner with scope := newer.scope })
    fun _ _ alike => ⟨{ alike.1 with scope := mirrors.scope }, alike.2⟩

theorem agree_inFrame {first : Attempt σ α} {second : Attempt σ β}
    (agree : past.attempts.Agree related first second) (frame : FrameId)
    (parameters : Table String Value) :
    past.attempts.Agree related (inFrame frame parameters first)
      (inFrame frame parameters second) := by
  rintro older newer ⟨mirrors, backs⟩
  have outcomes := agree
    { older with frame := frame, parameters := parameters :: older.parameters }
    { newer with frame := frame, parameters := parameters :: newer.parameters }
    ⟨{ mirrors with frame := rfl, parameters := by rw [mirrors.parameters] }, backs⟩
  rw [outcome_inFrame, outcome_inFrame]
  exact outcomes.leave
    (fun inner => { inner with frame := older.frame, parameters := inner.parameters.tail })
    (fun inner => { inner with frame := newer.frame, parameters := inner.parameters.tail })
    fun _ _ alike =>
      ⟨{ alike.1 with
          frame := mirrors.frame
          parameters := congrArg List.tail alike.1.parameters }, alike.2⟩

/-- What a node remembers is the same, but for the past. -/
theorem agree_runStateOf : past.attempts.Agree (fun one other => one = other.map past.state)
    (runStateOf key : Attempt σ (Option RunState)) (runStateOf key) := by
  refine agree_get.bind fun older newer alike => Likeness.agree_pure ?_
  rw [alike.1.runs]
  exact get?_runs _ _

theorem agree_remember (state : RunState) (noCall : state.call? = none) :
    past.attempts.Agree Eq (remember key (past.state state) : Attempt σ Unit)
      (remember key state) := by
  refine agree_modify fun older newer alike => ⟨alike.1.setRun key state, ?_⟩
  refine alike.2.forget fun holder handle held => ?_
  rw [callAt_setRun] at held
  split at held
  · rw [noCall] at held
    cases held
  · exact held

/-- Attempts agree that change the blackboard alike. -/
theorem agree_setBlackboard (alike : (past.attemptsWith known).states older newer)
    {one other : Blackboard} (mirrors : past.ground.Mirrors one other) :
    (past.attemptsWith known).Agree Eq (set { older with blackboard := one } : Attempt σ PUnit)
      (set { newer with blackboard := other }) :=
  agree_set { alike.1 with blackboard := mirrors } alike.2

/-- Attempts agree that leave what nodes remember as it is. -/
theorem agree_setRuns (alike : past.attempts.states older newer) {store : RunStore}
    (same : store.states = newer.runs.states) :
    past.attempts.Agree Eq (set { older with runs := past.runs store } : Attempt σ PUnit)
      (set { newer with runs := store }) := by
  refine agree_set { alike.1 with runs := rfl } (alike.2.forget fun holder handle held => ?_)
  simpa only [RunStore.callAt, RunStore.get?, same] using held

theorem agree_writeVariable (setting : Setting) (node : NodeIndex) (name : String) (value : Value) :
    (past.attemptsWith known).Agree Eq
      (writeVariable (past.setting setting) node name value : Attempt σ Unit)
      (writeVariable setting node name value) := by
  refine agree_get.bind fun older newer alike => ?_
  have written := alike.1.blackboard.write newer.scope name ⟨value, setting.now, some node⟩
  rw [← alike.1.scope] at written
  exact (agree_accessed written).bind fun one other => agree_setBlackboard alike

theorem agree_writeOutput (setting : Setting) (node : NodeIndex) (port : String) (value : Value) :
    (past.attemptsWith known).Agree Eq
      (writeOutput (past.setting setting) node port value : Attempt σ Unit)
      (writeOutput setting node port value) := by
  unfold writeOutput
  simp only [setting_tree, setting_now]
  split
  · exact Likeness.agree_pure rfl
  · rename_i name _
    refine agree_get.bind fun older newer alike => ?_
    have written := alike.1.blackboard.outputTo newer.scope name ⟨value, setting.now, some node⟩
    rw [← alike.1.scope] at written
    exact (agree_accessed written).bind fun one other => agree_setBlackboard alike

end Past

variable [RemoteService σ] {key : RunKey}

theorem Context.Mirrors.release (mirrors : older.Mirrors past newer) (state : RunState) :
    (older.release (past.state state)).Mirrors past (newer.release state) := by
  cases state with
  | scope id =>
    exact { mirrors with blackboard := mirrors.blackboard.destroyScope id }
  | remote run =>
    cases held : run.call with
    | none =>
      simp only [Context.release, RunState.release, Past.state, RunState.call?, Past.remote, held,
        Option.map_none]
      exact mirrors
    | some handle =>
      simp only [Context.release, RunState.release, Past.state, RunState.call?, Past.remote, held,
        Option.map_some]
      exact { mirrors with client := mirrors.client.cancel handle }
  | _ => exact mirrors

/-- What a run state held is forgotten with it. -/
theorem backs_release {context : Context σ} {held : RunKey → Option CallHandle} {state : RunState}
    (backs : context.client.Backs held) (remembered : held key = state.call?) :
    (context.release state).client.Backs (Function.update held key none) := by
  have forgotten := backs.forgetAt key
  cases state with
  | remote run =>
    cases call : run.call with
    | none => simpa only [Context.release, RunState.release, RunState.call?, call] using forgotten
    | some handle =>
      rw [RunState.call?, call] at remembered
      have retired := backs.retired remembered (Client.retires_cancel _ handle)
      simpa only [Context.release, RunState.release, RunState.call?, call] using retired
  | _ => exact forgotten

theorem Context.Mirrors.discarded (mirrors : older.Mirrors past newer) (key : RunKey) :
    (older.discarded key).Mirrors past (newer.discarded key) := by
  have same : (past.runs newer.runs).get? key = (newer.runs.get? key).map past.state :=
    Past.get?_runs _ _
  rw [← mirrors.runs] at same
  unfold Context.discarded
  rw [same]
  cases newer.runs.get? key with
  | none => exact mirrors
  | some state =>
    have erased : Context.Mirrors past { older with runs := older.runs.erase key }
        { newer with runs := newer.runs.erase key } :=
      { mirrors with runs := by simp only [mirrors.runs, Past.runs_erase] }
    exact erased.release state

theorem backs_discarded {context : Context σ} (backs : context.client.Backs context.runs.callAt)
    (key : RunKey) :
    (context.discarded key).client.Backs (context.discarded key).runs.callAt := by
  have forgets : (context.discarded key).runs.callAt =
      Function.update context.runs.callAt key none := by
    funext other
    rw [callAt_discarded, Function.update_apply]
  rw [forgets]
  unfold Context.discarded
  split
  · rename_i state remembered
    have held : context.runs.callAt key = state.call? := by
      simp [RunStore.callAt, remembered]
    exact backs_release backs held
  · exact backs.forgetAt key

namespace Past

theorem agree_discard (key : RunKey) :
    past.ticks.Agree Eq (discard key : Tick σ Unit) (discard key) :=
  Likeness.agree_modify fun _ _ alike => ⟨alike.1.discarded key, backs_discarded alike.2 key⟩

theorem agree_haltWithin (tree : Tree) (depth : Nat) (key : RunKey) :
    past.ticks.Agree Eq (haltWithin tree depth key : Tick σ Unit) (haltWithin tree depth key) := by
  induction depth generalizing key with
  | zero => exact Likeness.agree_throw _
  | succ depth ih =>
    unfold haltWithin
    split
    · refine (agree_discard key).andThen fun _ => ?_
      split
      · refine Likeness.agree_get.bind fun older newer alike => ?_
        have framed : older.runs.frame? key = newer.runs.frame? key := by
          rw [alike.1.runs]
          rfl
        rw [framed]
        split
        · exact Likeness.agree_pure rfl
        · split
          · exact ih _
          · exact Likeness.agree_throw _
      · exact Likeness.agree_forM _ fun child _ => ih _
    · exact Likeness.agree_throw _

theorem agree_halt (tree : Tree) (key : RunKey) :
    past.ticks.Agree Eq (halt tree key : Tick σ Unit) (halt tree key) :=
  agree_haltWithin tree _ key

end Past

end BehaviorTree
