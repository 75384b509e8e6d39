import BehaviorTree.Proofs.Engine.PastRemote

/-!
# Ticks with a past

The kinds of nodes are gone through once: what a node does agrees with and without a past if the
ticks of other nodes do. So whole ticks agree, whatever the tree is.
-/

namespace BehaviorTree

namespace Past

variable {σ : Type} [RemoteService σ] {past : Past} {setting : Setting}
  {run other : NodeIndex → Tick σ Status} {key : RunKey} {node : Node}

omit [RemoteService σ] in
theorem agree_childAt (position : Nat) :
    past.attempts.Agree Eq (childAt node key position : Attempt σ NodeIndex)
      (childAt node key position) := by
  unfold childAt
  split
  · exact Likeness.agree_pure rfl
  · exact Likeness.agree_throw _

theorem agree_haltSibling (tree : Tree) (child : NodeIndex) :
    past.attempts.Agree Eq (haltSibling tree key child : Attempt σ Unit)
      (haltSibling tree key child) :=
  agree_attempt (agree_halt tree _)

theorem agree_abandon (tree : Tree) (children : List NodeIndex) (first last : Nat) :
    past.attempts.Agree Eq (abandon tree key children first last : Attempt σ Unit)
      (abandon tree key children first last) := by
  unfold abandon
  split
  · exact Likeness.agree_forM _ fun child _ => agree_haltSibling tree child
  · exact Likeness.agree_throw _

theorem agree_handOver (tree : Tree) (children : List NodeIndex) (previous : Option Nat)
    (position : Nat) :
    past.attempts.Agree Eq (handOver tree key children previous position : Attempt σ Unit)
      (handOver tree key children previous position) := by
  unfold handOver
  split
  · split
    · exact agree_abandon tree _ _ _
    · exact Likeness.agree_pure rfl
  · exact Likeness.agree_pure rfl

variable (agrees : ∀ index, past.ticks.Agree Eq (run index) (other index))
include agrees

omit [RemoteService σ] in
theorem agree_run (index : NodeIndex) :
    past.attempts.Agree Eq (liftM (run index) : Attempt σ Status) (liftM (other index)) :=
  agree_attempt (agrees index)

theorem agree_tickFrom (tree : Tree) (children : List NodeIndex) (previous : Option Nat)
    (stopOn otherwise : Status) (position : Nat) (rest : List NodeIndex) :
    past.attempts.Agree Eq (tickFrom tree run key children previous stopOn otherwise position rest)
      (tickFrom tree other key children previous stopOn otherwise position rest) := by
  induction rest generalizing position with
  | nil => exact Likeness.agree_pure rfl
  | cons child rest ih =>
    unfold tickFrom
    refine (agree_run agrees child).andThen fun status => ?_
    split
    · refine (agree_handOver tree _ _ _).andThen fun _ => ?_
      exact (agree_remember (.child position) rfl).andThen fun _ =>
        Likeness.agree_pure rfl
    · split
      · exact Likeness.agree_pure rfl
      · exact ih _

theorem agree_tickChildren (tree : Tree) (children : List NodeIndex) (always : Bool)
    (stopOn otherwise : Status) :
    past.attempts.Agree Eq (tickChildren tree run key children always stopOn otherwise)
      (tickChildren tree other key children always stopOn otherwise) := by
  unfold tickChildren
  refine agree_runStateOf.bind ?_
  rintro _ state rfl
  rcases state with _ | state
  · exact agree_tickFrom agrees tree _ _ _ _ _ _
  · cases state <;> exact agree_tickFrom agrees tree _ _ _ _ _ _

omit [RemoteService σ] agrees in
theorem agree_counted :
    past.attempts.Agree Eq (counted key : Attempt σ (Option Int64)) (counted key) := by
  unfold counted
  refine agree_runStateOf.bind ?_
  rintro _ state rfl
  rcases state with _ | state
  · exact Likeness.agree_pure rfl
  · cases state <;> exact Likeness.agree_pure rfl

omit [RemoteService σ] agrees in
theorem agree_startsOf :
    past.attempts.Agree Eq (startsOf (past.setting setting) key : Attempt σ Int64)
      (startsOf setting key) := by
  unfold startsOf
  refine agree_counted.andThen fun count => ?_
  split
  · exact Likeness.agree_pure rfl
  · exact (agree_writeOutput _ _ _ _).andThen fun _ => Likeness.agree_pure rfl

omit [RemoteService σ] in
theorem agree_tickRepeater (child : NodeIndex) (maxStarts : Int64) :
    past.attempts.Agree Eq (tickRepeater (past.setting setting) run key child maxStarts)
      (tickRepeater setting other key child maxStarts) := by
  unfold tickRepeater
  split
  · exact Likeness.agree_pure rfl
  · refine agree_startsOf.andThen fun starts => ?_
    refine (agree_run agrees child).andThen fun status => ?_
    cases status with
    | success =>
      dsimp only
      split
      · exact Likeness.agree_pure rfl
      · refine (agree_writeOutput _ _ _ _).andThen fun _ => ?_
        exact (agree_remember (.counter _) rfl).andThen fun _ => Likeness.agree_pure rfl
    | running => exact (agree_remember (.counter _) rfl).andThen fun _ => Likeness.agree_pure rfl
    | failure => exact Likeness.agree_pure rfl

omit [RemoteService σ] in
theorem agree_tickRetrier (child : NodeIndex) (maxAttempts : Int64) :
    past.attempts.Agree Eq (tickRetrier (past.setting setting) run key child maxAttempts)
      (tickRetrier setting other key child maxAttempts) := by
  unfold tickRetrier
  refine agree_counted.andThen fun failures => ?_
  refine (agree_run agrees child).andThen fun status => ?_
  cases status with
  | failure =>
    dsimp only
    split
    · exact Likeness.agree_pure rfl
    · refine (agree_writeOutput _ _ _ _).andThen fun _ => ?_
      exact (agree_remember (.counter _) rfl).andThen fun _ => Likeness.agree_pure rfl
  | running => exact (agree_remember (.counter _) rfl).andThen fun _ => Likeness.agree_pure rfl
  | success => exact Likeness.agree_pure rfl

omit [RemoteService σ] agrees in
theorem agree_later (now duration : Duration) :
    past.attempts.Agree Eq (later now duration : Attempt σ Duration) (later now duration) := by
  unfold later
  split
  · exact Likeness.agree_pure rfl
  · exact Likeness.agree_throw _

omit [RemoteService σ] agrees in
theorem agree_deadlineOf (duration : Duration) :
    past.attempts.Agree Eq
      (deadlineOf (past.setting setting) key duration : Attempt σ (Duration × Bool))
      (deadlineOf setting key duration) := by
  have starts : past.attempts.Agree Eq
      (do return (← later setting.now duration, false) : Attempt σ (Duration × Bool))
      (do return (← later setting.now duration, false)) :=
    (agree_later _ _).andThen fun _ => Likeness.agree_pure rfl
  unfold deadlineOf
  refine agree_runStateOf.bind ?_
  rintro _ state rfl
  rcases state with _ | state
  · exact starts
  · cases state with
    | forDuration deadline timedOut => exact Likeness.agree_pure rfl
    | _ => exact starts

omit agrees in
theorem agree_timeOut (child : NodeIndex) (timedOut : Bool) :
    past.attempts.Agree Eq (timeOut (past.setting setting) key child timedOut : Attempt σ Unit)
      (timeOut setting key child timedOut) := by
  unfold timeOut
  split
  · exact Likeness.agree_pure rfl
  · exact (agree_haltSibling _ _).andThen fun _ => agree_writeOutput _ _ _ _

theorem agree_tickForDuration (duration : Duration) :
    past.attempts.Agree Eq (tickForDuration (past.setting setting) run key node duration)
      (tickForDuration setting other key node duration) := by
  unfold tickForDuration
  refine (agree_deadlineOf _).andThen fun (deadline, timedOut) => ?_
  refine (agree_childAt 0).andThen fun child => ?_
  dsimp only
  split
  · rename_i inTime
    have same : (!timedOut && decide (setting.now < deadline)) = true := inTime
    rw [if_pos same]
    refine (agree_writeOutput _ _ _ _).andThen fun _ => ?_
    exact (agree_remember (.forDuration _ _) rfl).andThen fun _ => agree_run agrees child
  · rename_i late
    have same : ¬ (!timedOut && decide (setting.now < deadline)) = true := late
    rw [if_neg same]
    refine (agree_timeOut child timedOut).andThen fun _ => ?_
    split
    · exact Likeness.agree_pure rfl
    · exact (agree_remember (.forDuration _ _) rfl).andThen fun _ => agree_run agrees _

omit [RemoteService σ] agrees in
theorem agree_wakeUpTime (duration : Duration) :
    past.attempts.Agree Eq (wakeUpTime (past.setting setting) key duration : Attempt σ Duration)
      (wakeUpTime setting key duration) := by
  have starts : past.attempts.Agree Eq
      (do
        let deadline ← later setting.now duration
        remember key (.sleep deadline)
        return deadline : Attempt σ Duration)
      (do
        let deadline ← later setting.now duration
        remember key (.sleep deadline)
        return deadline) := by
    refine (agree_later _ _).andThen fun deadline => ?_
    exact (agree_remember (.sleep deadline) rfl).andThen fun _ => Likeness.agree_pure rfl
  unfold wakeUpTime
  refine agree_runStateOf.bind ?_
  rintro _ state rfl
  rcases state with _ | state
  · exact starts
  · cases state with
    | sleep deadline => exact Likeness.agree_pure rfl
    | _ => exact starts

omit [RemoteService σ] in
theorem agree_tickParallel :
    past.attempts.Agree Eq (tickParallel run key node) (tickParallel other key node) := by
  unfold tickParallel
  refine (agree_childAt 0).andThen fun first => ?_
  refine (agree_run agrees first).andThen fun status => ?_
  refine agree_get.bind fun older newer alike => ?_
  rw [alike.1.innermost]
  refine (agree_childAt 1).andThen fun second => ?_
  refine (agree_run agrees second).andThen fun _ => ?_
  split
  · refine Likeness.Agree.andThen (agree_modify ?_) fun _ => Likeness.agree_pure rfl
    exact fun _ _ alike => ⟨{ alike.1 with innermost := rfl }, alike.2⟩
  · exact Likeness.agree_pure rfl

omit agrees in
theorem agree_haltAfterPause (child : NodeIndex) :
    past.attempts.Agree Eq (haltAfterPause (past.setting setting) key child : Attempt σ Unit)
      (haltAfterPause setting key child) := by
  unfold haltAfterPause
  refine agree_runStateOf.bind ?_
  rintro _ state rfl
  rcases state with _ | state
  · exact Likeness.agree_pure rfl
  · cases state with
    | epoch pauses =>
      have later : pauses + past.pauses ≠ (past.setting setting).pauses ↔
          pauses ≠ setting.pauses := by
        simp [Past.setting]
      simp only [Option.map_some, Past.state, later]
      split
      · exact agree_haltSibling _ _
      · exact Likeness.agree_pure rfl
    | _ => exact Likeness.agree_pure rfl

theorem agree_tickRestartWhenPaused :
    past.attempts.Agree Eq (tickRestartWhenPaused (past.setting setting) run key node)
      (tickRestartWhenPaused setting other key node) := by
  unfold tickRestartWhenPaused
  refine (agree_childAt 0).andThen fun child => ?_
  refine (agree_haltAfterPause child).andThen fun _ => ?_
  exact (agree_remember (.epoch setting.pauses) rfl).andThen fun _ => agree_run agrees child

omit [RemoteService σ] agrees in
theorem agree_defineAll (node : NodeIndex) (assignments : List Assignment) :
    past.attempts.Agree Eq (defineAll (past.setting setting) node assignments : Attempt σ Unit)
      (defineAll setting node assignments) := by
  induction assignments with
  | nil => exact Likeness.agree_pure rfl
  | cons assignment rest ih =>
    unfold defineAll
    refine agree_get.bind fun older newer alike => ?_
    rw [alike.1.value]
    refine (agree_bound _).andThen fun value => ?_
    have defined := alike.1.blackboard.define newer.scope assignment.name
      ⟨value, setting.now, some node⟩
    rw [← alike.1.scope] at defined
    refine (agree_accessed defined).bind fun one other mirrors => ?_
    exact (agree_setBlackboard alike mirrors).andThen fun _ => ih

omit [RemoteService σ] agrees in
theorem agree_openScope :
    past.attempts.Agree (fun one other => one = past.ground.handle other)
      (openScope (past.setting setting) key node : Attempt σ ScopeId)
      (openScope setting key node) := by
  unfold openScope
  refine agree_get.bind fun older newer alike => ?_
  have created := alike.1.blackboard.createScope newer.scope
  rw [← alike.1.scope] at created
  refine (agree_accessed created).bind ?_
  rintro ⟨_, one⟩ ⟨scope, other⟩ ⟨rfl, mirrors⟩
  refine (agree_setBlackboard alike mirrors).andThen fun _ => ?_
  refine (agree_remember (.scope scope) rfl).andThen fun _ => ?_
  exact (agree_inScope (agree_defineAll _ _) scope).andThen fun _ => Likeness.agree_pure rfl

omit [RemoteService σ] agrees in
theorem agree_scopeOf :
    past.attempts.Agree (fun one other => one = past.ground.handle other)
      (scopeOf (past.setting setting) key node : Attempt σ ScopeId) (scopeOf setting key node) := by
  unfold scopeOf
  refine agree_runStateOf.bind ?_
  rintro _ state rfl
  rcases state with _ | state
  · exact agree_openScope
  · cases state with
    | scope scope =>
      refine agree_get.bind fun older newer alike => ?_
      rw [alike.1.blackboard.isAlive_eq]
      split
      · exact Likeness.agree_pure rfl
      · exact agree_openScope
    | _ => exact agree_openScope

omit [RemoteService σ] in
theorem agree_tickDefine :
    past.attempts.Agree Eq (tickDefine (past.setting setting) run key node)
      (tickDefine setting other key node) := by
  unfold tickDefine
  refine (agree_childAt 0).andThen fun child => ?_
  refine agree_scopeOf.bind ?_
  rintro _ scope rfl
  exact agree_inScope (agree_run agrees child) scope

omit [RemoteService σ] agrees in
theorem agree_tickSet :
    past.attempts.Agree Eq (tickSet (past.setting setting) key node : Attempt σ Status)
      (tickSet setting key node) := by
  unfold tickSet
  refine agree_get.bind fun older newer alike => ?_
  simp only [alike.1.value, alike.1.scope, alike.1.blackboard.entry_eq]
  refine (agree_bound _).andThen fun values => ?_
  refine Likeness.Agree.andThen (Likeness.agree_forM _ ?_) fun _ => ?_
  · rintro ⟨name, value⟩ -
    dsimp only
    split
    · exact Likeness.agree_pure rfl
    · exact agree_failNode _
  · refine Likeness.Agree.andThen (Likeness.agree_forM _ ?_) fun _ => Likeness.agree_pure rfl
    rintro ⟨name, value⟩ -
    exact agree_writeVariable _ _ _ _

omit [RemoteService σ] in
theorem agree_tickReference (target : String) :
    past.attempts.Agree Eq (tickReference (past.setting setting) run key node target)
      (tickReference setting other key node target) := by
  unfold tickReference
  simp only [setting_tree]
  split
  · rename_i root _
    split
    · refine agree_get.bind fun older newer alike => ?_
      rw [alike.1.bindParameters]
      refine (agree_bound _).andThen fun parameters => ?_
      rw [alike.1.runs, runs_frameFor]
      exact (agree_setRuns alike (states_frameFor _ _)).andThen fun _ =>
        agree_inFrame (agree_run agrees root) _ _
    · exact Likeness.agree_throw _
  · exact Likeness.agree_throw _

omit [RemoteService σ] agrees in
theorem agree_tickCondition (condition : ConditionConfiguration) :
    past.attempts.Agree Eq (tickCondition (past.setting setting) condition : Attempt σ Status)
      (tickCondition setting condition) := by
  unfold tickCondition
  have reads : ∀ operand, past.attempts.Agree Eq
      (do bound ((← get).freshValue condition.freshness setting.now operand) : Attempt σ Lookup)
      (do bound ((← get).freshValue condition.freshness setting.now operand)) := by
    intro operand
    refine agree_get.bind fun older newer alike => ?_
    rw [alike.1.freshValue]
    exact agree_bound _
  refine (reads _).andThen fun left => ?_
  split
  · refine (reads _).andThen fun right => ?_
    split
    · split
      · exact Likeness.agree_pure rfl
      · exact Likeness.agree_pure rfl
      · exact agree_failNode _
    · exact Likeness.agree_pure rfl
  · exact Likeness.agree_pure rfl

theorem agree_tickConfigured (configuration : Configuration) :
    past.attempts.Agree Eq (tickConfigured (past.setting setting) run key node configuration)
      (tickConfigured setting other key node configuration) := by
  cases configuration with
  | sequence always => exact agree_tickChildren agrees _ _ _ _ _
  | selector always => exact agree_tickChildren agrees _ _ _ _ _
  | repeater maxStarts =>
    exact (agree_childAt 0).andThen fun child => agree_tickRepeater agrees child maxStarts
  | retrier maxAttempts =>
    exact (agree_childAt 0).andThen fun child => agree_tickRetrier agrees child maxAttempts
  | forDuration duration => exact agree_tickForDuration agrees duration
  | simpleParallel => exact agree_tickParallel agrees
  | condition condition => exact agree_tickCondition condition
  | restartWhenPaused => exact agree_tickRestartWhenPaused agrees
  | defineBlackboard => exact agree_tickDefine agrees
  | setBlackboard => exact agree_tickSet
  | formatBlackboard name format =>
    refine agree_get.bind fun older newer alike => ?_
    rw [alike.1.scope, alike.1.blackboard.format_eq]
    refine Likeness.Agree.andThen ?_ fun text =>
      (agree_writeVariable _ _ _ _).andThen fun _ => Likeness.agree_pure rfl
    cases newer.blackboard.format newer.scope format with
    | ok text => exact Likeness.agree_pure rfl
    | error cause => exact agree_failNode _
  | dateToBlackboard name format =>
    exact (agree_bound _).andThen fun text =>
      (agree_writeVariable _ _ _ _).andThen fun _ => Likeness.agree_pure rfl
  | sleep duration =>
    exact (agree_wakeUpTime duration).andThen fun deadline => Likeness.agree_pure rfl
  | constantResult status => exact Likeness.agree_pure rfl
  | reference target => exact agree_tickReference agrees target
  | remote remote => exact agree_tickRemote setting key node remote

theorem agree_attemptNode :
    past.attempts.Agree Eq (attemptNode (past.setting setting) run key node)
      (attemptNode setting other key node) := by
  unfold attemptNode
  refine agree_get.bind fun older newer alike => ?_
  rw [alike.1.effectiveConfiguration]
  split
  · exact agree_tickConfigured agrees _
  · exact agree_failNode _
  · exact Likeness.agree_throw _

omit [RemoteService σ] agrees in
theorem agree_settleAttempt {first second : Attempt σ Status}
    (agree : past.attempts.Agree Eq first second) :
    past.ticks.Agree Eq (settleAttempt (past.setting setting) key node first)
      (settleAttempt setting key node second) := by
  have settled : ∀ (setting : Setting) (attempt : Attempt σ Status) (context : Context σ),
      outcome (settleAttempt setting key node attempt) context =
        match outcome attempt context with
        | (.ok status, after) => (.ok status, after.visit ⟨key, status, none⟩)
        | (.error (.abort failure), after) => (.error failure, after)
        | (.error (.node cause), after) =>
          (.ok .failure,
            (after.report setting key.node node cause).visit ⟨key, .failure, some cause⟩) :=
    fun _ _ _ => rfl
  intro older newer alike
  have attempted := agree older newer alike
  rw [settled, settled]
  revert attempted
  generalize outcome first older = one
  generalize outcome second newer = other
  intro attempted
  cases attempted with
  | done holds =>
    rcases holds with ⟨rfl, mirrors, backs⟩
    refine .done ⟨rfl, { mirrors with visits := ?_ }, backs⟩
    simp only [Context.visit, mirrors.visits]
  | @failed fault _ _ states =>
    rcases states with ⟨mirrors, backs⟩
    cases fault with
    | abort failure => exact .failed ⟨mirrors, backs⟩
    | node cause =>
      refine .done ⟨rfl, { mirrors with reports := ?_, visits := ?_ }, backs⟩
      · simp only [Context.visit, Context.report, mirrors.reports, setting_config, setting_now]
      · simp only [Context.visit, Context.report, mirrors.visits]
  | exhausted out =>
    cases out
    exact .exhausted rfl _ _

omit agrees in
theorem agree_concludeNode (status : Status) :
    past.ticks.Agree Eq (concludeNode (past.setting setting) key status : Tick σ Unit)
      (concludeNode setting key status) := by
  unfold concludeNode
  split
  · refine Likeness.agree_modify fun older newer alike =>
      ⟨{ alike.1 with innermost := ?_ }, alike.2⟩
    rw [alike.1.innermost]
  · exact agree_halt _ _

omit agrees in
/-- Ticks with and without a past agree, whatever is ticked. -/
theorem agree_tickWithin (depth : Nat) (index : NodeIndex) :
    past.ticks.Agree Eq (tickWithin (past.setting setting) depth index : Tick σ Status)
      (tickWithin setting depth index) := by
  induction depth generalizing index with
  | zero => exact Likeness.agree_throw _
  | succ depth ih =>
    unfold tickWithin
    simp only [setting_tree]
    split
    · refine Likeness.agree_get.bind fun older newer alike => ?_
      rw [alike.1.frame]
      refine (agree_settleAttempt (agree_attemptNode ih)).andThen fun status => ?_
      exact (agree_concludeNode status).andThen fun _ => Likeness.agree_pure rfl
    · exact Likeness.agree_throw _

end Past

end BehaviorTree
