import BehaviorTree.Proofs.Engine.Turn

/-!
# Remote nodes

A remote node trades requests: at any time it has at most one, and it gives up or replaces no other
one. What it remembers is taken out of the run states while it deals with its service, and it is put
back only if the node is running; else its request is given up.
-/

namespace BehaviorTree

variable {σ α β : Type}

namespace RemoteStep

/-- An action of a remote node has a result for which `after` holds, or an error for which `failed`
holds. Both may depend on what the node remembers. -/
def Ends (action : RemoteStep σ α) (run : RemoteRun) (context : Context σ)
    (after : α → RemoteRun → Context σ → Prop) (failed : Fault → RemoteRun → Context σ → Prop) :
    Prop :=
  match (action.run.run run).run context with
  | ((.ok result, run), next) => after result run next
  | ((.error fault, run), next) => failed fault run next

variable {action : RemoteStep σ α} {next : α → RemoteStep σ β} {run : RemoteRun}
  {context : Context σ} {after weaker : α → RemoteRun → Context σ → Prop}
  {afterNext : β → RemoteRun → Context σ → Prop} {failed : Fault → RemoteRun → Context σ → Prop}

theorem Ends.mono (ends : Ends action run context after failed)
    (ofAfter : ∀ result run next, after result run next → weaker result run next) :
    Ends action run context weaker failed := by
  unfold Ends at ends ⊢
  split at ends
  · exact ofAfter _ _ _ ends
  · exact ends

theorem ends_bind : Ends (action >>= next) run context afterNext failed ↔
    Ends action run context
      (fun result run middle => Ends (next result) run middle afterNext failed) failed := by
  unfold Ends ExceptT.run StateT.run
  simp only [bind, ExceptT.bind, ExceptT.mk, StateT.bind, ExceptT.bindCont]
  cases action run context with
  | mk inner middle =>
    rcases inner with ⟨result, remembered⟩
    cases result <;> rfl

/-- A sequence of actions, of which the first one is known. -/
theorem Ends.bind (ends : Ends action run context after failed)
    (rest : ∀ result run middle, after result run middle →
      Ends (next result) run middle afterNext failed) :
    Ends (action >>= next) run context afterNext failed :=
  ends_bind.2 (ends.mono rest)

theorem ends_get {after : RemoteRun → RemoteRun → Context σ → Prop} :
    Ends (get : RemoteStep σ RemoteRun) run context after failed ↔ after run run context :=
  Iff.rfl

theorem ends_update {change : RemoteRun → RemoteRun}
    {after : Unit → RemoteRun → Context σ → Prop} :
    Ends (update change) run context after failed ↔ after () (change run) context :=
  Iff.rfl

theorem ends_ofAttempt {attempt : Attempt σ α} :
    Ends (ofAttempt attempt) run context after failed ↔
      BehaviorTree.Ends attempt context (fun result => after result run)
        fun fault => failed fault run := by
  unfold Ends BehaviorTree.Ends
  have lifted : ((ofAttempt attempt).run.run run).run context =
      (((outcome attempt context).1, run), (outcome attempt context).2) := rfl
  rw [lifted]
  cases outcome attempt context with
  | mk result next => cases result <;> rfl

theorem ends_useClient {operation : Client σ → α × Client σ} :
    Ends (useClient operation) run context after failed ↔
      after (operation context.client).1 run
        { context with client := (operation context.client).2 } :=
  Iff.rfl

/-- What is known while a node deals with its service: it remembers nothing yet, and instead of the
request that it held before it has another one, or none. -/
structure Serving (now : Duration) (key : RunKey) (origin : Context σ) (kept : Option CallHandle)
    (context : Context σ) : Prop where
  place : origin.SamePlace context
  runs : context.runs = origin.runs.erase key
  writes : origin.blackboard.Writes now context.blackboard
  trades : origin.client.Numbered →
    (∀ handle, origin.runs.callAt key = some handle → origin.client.Holds handle) →
    origin.client.Trades (origin.runs.callAt key) kept context.client

/-- A remote node fails for a cause of its own or because a number does not fit. -/
def Failing (now : Duration) (key : RunKey) (origin : Context σ) (fault : Fault) (run : RemoteRun)
    (context : Context σ) : Prop :=
  match fault with
  | .node cause => Serving now key origin run.call context ∧
    (origin.blackboard.Rooted origin.scope → ¬ cause.IsScopeGone)
  | .abort (.crash cause) => cause = .durationOverflow ∨ cause = .handleOverflow
  | .abort (.error _) => False

variable {now : Duration} {key : RunKey} {origin : Context σ} {kept : Option CallHandle}
  {setting : Setting} {node : Node} {remote : RemoteConfiguration}

theorem Serving.withClient (serving : Serving now key origin kept context)
    {other : Option CallHandle} {client : Client σ}
    (trades : ∀ {before : Client σ} {held : Option CallHandle},
      before.Trades held kept context.client → before.Trades held other client) :
    Serving now key origin other { context with client := client } :=
  ⟨⟨serving.place.frames, serving.place.scope, serving.place.frame, serving.place.parameters,
    serving.place.visits⟩, serving.runs, serving.writes,
    fun numbered holds => trades (serving.trades numbered holds)⟩

theorem ends_retryOr {error : RemoteError} {attempts : Nat} {limit : UInt32}
    (serving : Serving now key origin run.call context) :
    Ends (retryOr error attempts limit) run context
      (fun _ run after => Serving now key origin run.call after) (Failing now key origin) := by
  unfold retryOr
  split
  · exact serving
  · exact ⟨serving, fun _ => id⟩

theorem ends_writeOutput {port : String} {value : Value}
    (serving : Serving setting.now key origin run.call context) :
    Ends (ofAttempt (writeOutput setting key.node port value)) run context
      (fun _ run after => Serving setting.now key origin run.call after)
      (Failing setting.now key origin) := by
  rw [ends_ofAttempt]
  unfold writeOutput
  split
  · exact serving
  · simp only [BehaviorTree.ends_bind, Attempt.ends_get, ends_accessed, Attempt.ends_set]
    split
    · rename_i written
      exact ⟨⟨serving.place.frames, serving.place.scope, serving.place.frame,
        serving.place.parameters, serving.place.visits⟩, serving.runs,
        serving.writes.trans (Blackboard.writes_outputTo written), serving.trades⟩
    · rename_i cause unwritten
      refine ⟨serving, fun rooted => ?_⟩
      rw [isScopeGone_blackboard]
      rintro rfl
      have rootedHere := rooted.of_sameScopes serving.writes.toSameScopes
      rw [← serving.place.scope] at rootedHere
      exact Blackboard.outputTo_ne_scopeGone rootedHere _ unwritten

variable [RemoteService σ]

theorem ends_openSession (serving : Serving now key origin run.call context) :
    Ends (openSession remote) run context
      (fun _ run after => Serving now key origin run.call after) (Failing now key origin) := by
  unfold openSession
  rw [ends_bind, ends_get]
  split
  · exact serving
  · simp only [ends_bind, ends_useClient]
    have asked : Serving now key origin run.call
        { context with client := (context.client.ensureSession remote.service remote.host).2 } :=
      serving.withClient fun trades => trades.unchanged (Client.retires_ensureSession _ _ _)
    split
    · exact asked
    · exact ⟨asked, fun _ => id⟩

/-- A node without a request makes one, or it still has none. -/
theorem ends_startCall (serving : Serving setting.now key origin run.call context)
    (idle : run.call = none) :
    Ends (startCall setting node remote) run context
      (fun result run after => match result with
        | .ok call => run.call = some call ∧ Serving setting.now key origin run.call after
        | .error (.error _) => Serving setting.now key origin run.call after
        | .error (.crash cause) => cause = .handleOverflow)
      (Failing setting.now key origin) := by
  rw [idle] at serving
  unfold startCall
  dsimp only
  simp only [ends_bind, ends_update, ends_useClient]
  have started := Client.started_start context.client
    ⟨remote.operation, remote.service, remote.host, node.label, remote.request⟩
    (remote.timeout.or setting.config.defaultTimeout) setting.now
  revert started
  generalize context.client.start _ _ _ = answer
  rcases answer with ⟨(cause | cause) | call, client⟩ <;> intro started
  · have unchanged : Serving setting.now key origin run.call { context with client := client } := by
      rw [idle]
      exact serving.withClient fun trades => trades.unchanged started
    exact unchanged
  · exact started
  · exact ⟨rfl, serving.withClient fun trades => trades.issued started⟩

omit [RemoteService σ] in
/-- What becomes of a node by the reply to a poll, which may be the end of its request. -/
theorem ends_settle {reply : Except (Failure RemoteError) CallStatus} {call : CallHandle}
    (holds : run.call = some call)
    (crashes : ∀ cause, reply = .error (.crash cause) → cause = .durationOverflow)
    (serving : (∀ cause, reply ≠ .error (.crash cause)) →
      Serving setting.now key origin (if Client.isFinalReply reply then none else some call)
        context) :
    Ends (settle setting key remote reply) run context
      (fun _ run after => Serving setting.now key origin run.call after)
      (Failing setting.now key origin) := by
  have ongoing : (∀ cause, reply ≠ .error (.crash cause)) → Client.isFinalReply reply = false →
      Serving setting.now key origin run.call context := by
    intro calm notFinal
    simpa [notFinal, holds] using serving calm
  have ended : (∀ cause, reply ≠ .error (.crash cause)) → Client.isFinalReply reply = true →
      Serving setting.now key origin none context := by
    intro calm final
    simpa [final] using serving calm
  unfold settle
  split
  · have here := ongoing (by simp) rfl
    rw [ends_bind, ends_update]
    split
    · refine Ends.bind (ends_writeOutput here) ?_
      exact fun _ _ _ written => written
    · exact here
  · have here := ended (by simp) rfl
    rw [ends_bind, ends_update]
    refine Ends.bind (ends_writeOutput here) ?_
    exact fun _ _ _ written => written
  · have here := ended (by simp) rfl
    rw [ends_bind, ends_update]
    exact ⟨here, fun _ => id⟩
  · exact Or.inl (crashes _ rfl)
  · have here := ended (by simp) rfl
    rw [ends_bind, ends_update, ends_bind, ends_get]
    exact ends_retryOr here
  · rename_i error notTimeout
    have notFinal : Client.isFinalReply (.error (.error error)) = false := by
      cases error with
      | timeout service after => exact absurd rfl (notTimeout service after)
      | _ => rfl
    have here := ongoing (by simp) notFinal
    rw [ends_bind, ends_update, ends_bind, ends_get]
    exact ends_retryOr here

/-- The node has a request from before, or it makes one. -/
theorem ends_currentCall (serving : Serving setting.now key origin run.call context) :
    Ends (currentCall setting node remote) run context
      (fun result run after => match result with
        | .ok call => run.call = some call ∧ Serving setting.now key origin run.call after
        | .error (.error _) => Serving setting.now key origin run.call after
        | .error (.crash cause) => cause = .handleOverflow)
      (Failing setting.now key origin) := by
  unfold currentCall
  rw [ends_bind, ends_get]
  split
  · rename_i call holds
    exact ⟨holds, serving⟩
  · rename_i idle
    exact ends_startCall serving idle

theorem ends_advance (serving : Serving setting.now key origin run.call context) :
    Ends (advance setting key node remote) run context
      (fun _ run after => Serving setting.now key origin run.call after)
      (Failing setting.now key origin) := by
  unfold advance
  refine Ends.bind (ends_openSession serving) ?_
  intro _ run context opened
  refine Ends.bind (ends_currentCall opened) ?_
  intro result run context called
  split
  · exact Or.inr called
  · rw [ends_bind, ends_get]
    exact ends_retryOr called
  · rename_i call
    rcases called with ⟨holds, current⟩
    rw [holds] at current
    rw [ends_bind, ends_useClient]
    have polled := Client.polled_poll context.client call setting.now
    revert polled
    generalize context.client.poll call setting.now = answer
    rcases answer with ⟨reply, client⟩
    intro polled
    refine ends_settle holds ?_ ?_
    · rintro cause rfl
      exact polled
    · intro calm
      apply current.withClient
      intro before held trades
      have retires : context.client.Retires
          (fun other => Client.isFinalReply reply ∧ other = call) client := by
        rcases reply with (cause | cause) | status
        · exact polled
        · exact absurd rfl (calm cause)
        · exact polled
      cases final : Client.isFinalReply reply with
      | true => exact trades.retired (retires.congr (by simp [final]))
      | false => exact trades.unchanged (retires.congr (by simp [final]))

end RemoteStep

variable [RemoteService σ] {setting : Setting} {now : Duration} {run : NodeIndex → Tick σ Status}
  {key : RunKey} {node : Node} {start : Context σ}

/-- The request that a remote node remembers is the one that its run state holds. -/
theorem RunStore.call_remoteRun (runs : RunStore) (key : RunKey) :
    (runs.remoteRun key).call = runs.callAt key := by
  unfold remoteRun callAt
  split
  · rename_i remembered
    simp [remembered, RunState.call?]
  · rename_i other
    cases remembered : runs.get? key with
    | none => rfl
    | some state =>
      cases state with
      | remote run => exact absurd remembered (other run)
      | _ => rfl

omit [RemoteService σ] in
theorem serving_start (now : Duration) (key : RunKey) (context : Context σ) :
    RemoteStep.Serving now key context (context.runs.remoteRun key).call
      { context with runs := context.runs.erase key } := by
  refine ⟨⟨rfl, rfl, rfl, rfl, rfl⟩, rfl, .refl now _, ?_⟩
  intro numbered holds
  rw [RunStore.call_remoteRun]
  exact .refl numbered holds

omit [RemoteService σ] in
theorem RemoteStep.Serving.serves_setRun {origin context : Context σ} {remote : RemoteRun}
    (serving : Serving now key origin remote.call context) :
    origin.Serves now key (context.setRun key (.remote remote)) := by
  have elsewhere : ∀ other, other ≠ key →
      (context.setRun key (.remote remote)).runs.get? other = origin.runs.get? other := by
    intro other different
    rw [Context.get?_setRun, if_neg different, serving.runs]
    exact Table.get?_erase_of_ne different
  refine ⟨serving.place.trans Context.samePlace_setRun, elsewhere, ?_, serving.writes, ?_⟩
  · intro state remembered
    rw [Context.get?_setRun, if_pos rfl] at remembered
    cases remembered
    exact ⟨remote, rfl⟩
  · intro numbered holds
    have kept : (context.setRun key (.remote remote)).runs.callAt key = remote.call := by
      simp [RunStore.callAt, Context.get?_setRun, RunState.call?]
    rw [kept]
    exact serving.trades numbered holds

/-- The request of a node that is not running is given up. -/
theorem RemoteStep.Serving.serves_release {origin context : Context σ} {remote : RemoteRun}
    (serving : Serving now key origin remote.call context) :
    origin.Serves now key (context.release (.remote remote)) := by
  have forgotten : (context.release (.remote remote)).runs = origin.runs.erase key := serving.runs
  have nothing : (context.release (.remote remote)).runs.get? key = none := by
    rw [forgotten]
    exact Table.get?_erase_self _ _
  refine ⟨serving.place.trans ⟨rfl, rfl, rfl, rfl, rfl⟩, ?_, ?_, ?_, ?_⟩
  · intro other different
    rw [forgotten]
    exact Table.get?_erase_of_ne different
  · intro state remembered
    rw [nothing] at remembered
    cases remembered
  · cases held : remote.call <;> simpa [Context.release, RunState.release, RunState.call?, held]
      using serving.writes
  · intro numbered holds
    have kept : (context.release (.remote remote)).runs.callAt key = none := by
      simp [RunStore.callAt, nothing]
    have trades := serving.trades numbered holds
    rw [kept]
    cases held : remote.call with
    | none => simpa [Context.release, RunState.release, RunState.call?, held] using trades
    | some call =>
      rw [held] at trades
      have given := trades.retired (Client.retires_cancel context.client call)
      simpa [Context.release, RunState.release, RunState.call?, held] using given

theorem Turn.ends_tickRemote (turn : Turn setting run key node start) {operation : RemoteOperation}
    (kind : node.kind = .remote operation) (remote : RemoteConfiguration) :
    Ends (tickRemote setting key node remote) start
      (setting.Finishes run key node start)
      (setting.Fails run key node start) := by
  have finishes : ∀ {after : Context σ} (status : Status), start.Serves setting.now key after →
      setting.Finishes run key node start status after := by
    intro after status serves
    exact turn.finishes_of_childless (.served .start kind serves) (by rw [kind]; rfl)
      (by rw [kind]; exact fun impossible => by cases impossible) status
  have fails : ∀ {after : Context σ} (cause : TickError), start.Serves setting.now key after →
      (start.blackboard.Rooted start.scope → ¬ cause.IsScopeGone) →
      setting.Fails run key node start (.node cause) after := by
    intro after cause serves harmless
    refine ⟨?_, fun _ _ => ⟨_, _, .served .start kind serves⟩⟩
    by_cases rooted : start.blackboard.Rooted start.scope
    · exact .failed (harmless rooted)
    · exact .unrooted .start (Or.inl rfl) rooted
  have advanced : RemoteStep.Ends (RemoteStep.advance setting key node remote)
      (start.runs.remoteRun key) { start with runs := start.runs.erase key }
      (fun _ run after => RemoteStep.Serving setting.now key start run.call after)
      (RemoteStep.Failing setting.now key start) :=
    RemoteStep.ends_advance (serving_start setting.now key start)
  unfold RemoteStep.Ends at advanced
  unfold Ends outcome tickRemote
  simp only [ExceptT.run, StateT.run] at advanced ⊢
  revert advanced
  rcases RemoteStep.advance setting key node remote (start.runs.remoteRun key)
    { start with runs := start.runs.erase key } with ⟨⟨fault | status, remembered⟩, after⟩
  · intro advanced
    cases fault with
    | node cause => exact fails cause advanced.1.serves_release advanced.2
    | abort failure =>
      cases failure with
      | crash cause => exact fails_of_overflow advanced
      | error error => exact advanced.elim
  · intro advanced
    cases status with
    | running => exact finishes .running advanced.serves_setRun
    | success => exact finishes .success advanced.serves_release
    | failure => exact finishes .failure advanced.serves_release

end BehaviorTree
