import BehaviorTree.Proofs.Engine.Past
import BehaviorTree.Proofs.Engine.RemoteNode

/-!
# Remote nodes with a past

While a remote node deals with its service, what it remembers is not among the run states. With and
without a past it uses its service in the same way, as long as there are numbers for its requests:
a request is only polled by the node that remembers it, so that no reply depends on its handle.
-/

namespace BehaviorTree

variable {σ α β γ δ : Type}

namespace RemoteStep

/-- The outcome of a step, with what the node remembers and the context as one state. -/
def paired (action : RemoteStep σ α) : ExceptT Fault (StateM (RemoteRun × Context σ)) α :=
  fun state =>
    let ((result, run), context) := (action.run.run state.1).run state.2
    (result, (run, context))

theorem paired_bind (action : RemoteStep σ α) (next : α → RemoteStep σ β) :
    paired (action >>= next) = paired action >>= fun result => paired (next result) := by
  funext state
  unfold paired ExceptT.run StateT.run
  simp only [bind, ExceptT.bind, ExceptT.mk, StateT.bind, ExceptT.bindCont]
  rcases action state.1 state.2 with ⟨⟨result, run⟩, context⟩
  cases result <;> rfl

theorem outcome_update (change : RemoteRun → RemoteRun) (run : RemoteRun) (context : Context σ) :
    outcome (paired (update change)) (run, context) = (.ok (), (change run, context)) := rfl

theorem outcome_useClient (operation : Client σ → α × Client σ) (run : RemoteRun)
    (context : Context σ) :
    outcome (paired (useClient operation)) (run, context) =
      (.ok (operation context.client).1,
        (run, { context with client := (operation context.client).2 })) := rfl

theorem outcome_get (run : RemoteRun) (context : Context σ) :
    outcome (paired (get : RemoteStep σ RemoteRun)) (run, context) = (.ok run, (run, context)) :=
  rfl

end RemoteStep

namespace Past

variable (past : Past) (key : RunKey)

/-- The request that a node has while it deals with its service, and those of all others. -/
def requests (run : RemoteRun) (runs : RunStore) : RunKey → Option CallHandle :=
  Function.update runs.callAt key run.call

/-- A remote node deals with its service, with and without a past. -/
structure Dealing (older newer : RemoteRun × Context σ) : Prop where
  run : older.1 = past.remote newer.1
  mirrors : older.2.Mirrors past newer.2
  vacant : newer.2.runs.callAt key = none
  backs : newer.2.client.Backs (requests key newer.1 newer.2.runs)

/-- What is alike while a remote node deals with its service, with and without a past. -/
def remoteSteps : Likeness Fault (RemoteRun × Context σ) where
  states := past.Dealing key
  exhausted fault := fault = .abort (.crash .handleOverflow)

/-- Steps of a remote node agree with and without a past. -/
def AgreeRemotely (related : α → β → Prop) (first : RemoteStep σ α) (second : RemoteStep σ β) :
    Prop :=
  (past.remoteSteps key).Agree related first.paired second.paired

end Past

variable {past : Past} {key : RunKey} {related : α → β → Prop} {relatedNext : γ → δ → Prop}

namespace Past.AgreeRemotely

theorem bind {first : RemoteStep σ α} {second : RemoteStep σ β} {firstNext : α → RemoteStep σ γ}
    {secondNext : β → RemoteStep σ δ} (agree : past.AgreeRemotely key related first second)
    (rest : ∀ one other, related one other →
      past.AgreeRemotely key relatedNext (firstNext one) (secondNext other)) :
    past.AgreeRemotely key relatedNext (first >>= firstNext) (second >>= secondNext) := by
  unfold AgreeRemotely
  rw [RemoteStep.paired_bind, RemoteStep.paired_bind]
  exact Likeness.Agree.bind agree rest

theorem andThen {first second : RemoteStep σ α} {firstNext : α → RemoteStep σ γ}
    {secondNext : α → RemoteStep σ δ} (agree : past.AgreeRemotely key Eq first second)
    (rest : ∀ result, past.AgreeRemotely key relatedNext (firstNext result) (secondNext result)) :
    past.AgreeRemotely key relatedNext (first >>= firstNext) (second >>= secondNext) :=
  agree.bind fun one _ same => same ▸ rest one

end Past.AgreeRemotely

namespace Past

variable {older newer : RemoteRun × Context σ}

theorem agree_remote_pure {one : α} {other : β} (holds : related one other) :
    past.AgreeRemotely key related (pure one : RemoteStep σ α) (pure other) :=
  Likeness.agree_pure holds

theorem agree_remote_throw (fault : Fault) :
    past.AgreeRemotely key related (throw fault : RemoteStep σ α) (throw fault) :=
  Likeness.agree_throw fault

theorem agree_remote_get :
    past.AgreeRemotely key (fun one other => one = past.remote other)
      (get : RemoteStep σ RemoteRun) get := fun _ _ alike => .done ⟨alike.1, alike⟩

/-- Changes of what a node remembers agree if they leave the request alone. -/
theorem agree_update {change : RemoteRun → RemoteRun}
    (same : ∀ run, change (past.remote run) = past.remote (change run))
    (kept : ∀ run, (change run).call = run.call) :
    past.AgreeRemotely key Eq (RemoteStep.update change : RemoteStep σ Unit)
      (RemoteStep.update change) := by
  rintro ⟨_, one⟩ ⟨run, other⟩ ⟨rfl, mirrors, vacant, backs⟩
  refine .done ⟨rfl, same run, mirrors, vacant, ?_⟩
  unfold requests
  rw [kept]
  exact backs

theorem agree_retryOr (error : RemoteError) (attempts : Nat) (limit : UInt32) :
    past.AgreeRemotely key Eq (RemoteStep.retryOr error attempts limit : RemoteStep σ Status)
      (RemoteStep.retryOr error attempts limit) := by
  unfold RemoteStep.retryOr
  split
  · exact agree_remote_pure rfl
  · exact agree_remote_throw _

/-- The number of attempts is read off what the node remembers. -/
theorem agree_retryAfter {error : RemoteError} {limit : UInt32} (count : RemoteRun → Nat)
    (same : ∀ run, count (past.remote run) = count run) :
    past.AgreeRemotely key Eq
      (get >>= fun run => RemoteStep.retryOr error (count run) limit : RemoteStep σ Status)
      (get >>= fun run => RemoteStep.retryOr error (count run) limit) := by
  refine agree_remote_get.bind ?_
  rintro _ run rfl
  rw [same]
  exact agree_retryOr _ _ _

theorem agree_remote_writeOutput (setting : Setting) (node : NodeIndex) (port : String)
    (value : Value) :
    past.AgreeRemotely key Eq
      (RemoteStep.ofAttempt (writeOutput (past.setting setting) node port value))
      (RemoteStep.ofAttempt (writeOutput setting node port value) : RemoteStep σ Unit) := by
  rintro ⟨_, one⟩ ⟨run, other⟩ ⟨rfl, mirrors, vacant, backs⟩
  let known (client : Client σ) (runs : RunStore) : Prop :=
    client = other.client ∧ runs = other.runs
  have agree : (past.attemptsWith known).Agree Eq
      (writeOutput (past.setting setting) node port value) (writeOutput setting node port value) :=
    agree_writeOutput setting node port value
  have written := agree one other ⟨mirrors, rfl, rfl⟩
  have lifted : ∀ (attempt : Attempt σ Unit) (run : RemoteRun) (context : Context σ),
      outcome (RemoteStep.ofAttempt attempt).paired (run, context) =
        ((outcome attempt context).1, (run, (outcome attempt context).2)) := fun _ _ _ => rfl
  rw [lifted, lifted]
  revert written
  generalize outcome (writeOutput (past.setting setting) node port value) one = first
  generalize outcome (writeOutput setting node port value) other = second
  intro written
  have kept : ∀ {older newer : Context σ}, older.Mirrors past newer ∧ newer.client = other.client ∧
      newer.runs = other.runs →
      (past.remoteSteps key).states (past.remote run, older) (run, newer) := by
    rintro older newer ⟨mirrors, client, runs⟩
    refine ⟨rfl, mirrors, ?_, ?_⟩
    · rw [runs]
      exact vacant
    · rw [client, runs]
      exact backs
  cases written with
  | done holds => exact .done ⟨holds.1, kept holds.2⟩
  | failed alike => exact .failed (kept alike)
  | exhausted out =>
    refine .exhausted ?_ _ _
    exact out

variable [RemoteService σ]

theorem agree_openSession (remote : RemoteConfiguration) :
    past.AgreeRemotely key Eq (RemoteStep.openSession remote : RemoteStep σ Unit)
      (RemoteStep.openSession remote) := by
  have asked : past.AgreeRemotely key Eq
      (RemoteStep.useClient fun client : Client σ =>
        client.ensureSession remote.service remote.host)
      (RemoteStep.useClient fun client => client.ensureSession remote.service remote.host) := by
    rintro ⟨_, one⟩ ⟨run, other⟩ ⟨rfl, mirrors, vacant, backs⟩
    rcases mirrors.client.ensureSession remote.service remote.host with ⟨same, mirrored⟩
    exact .done ⟨same, rfl, { mirrors with client := mirrored }, vacant,
      backs.unchanged (Client.retires_ensureSession _ _ _)⟩
  unfold RemoteStep.openSession
  refine agree_remote_get.bind ?_
  rintro _ run rfl
  change past.AgreeRemotely key Eq (if run.session = true then _ else _) _
  split
  · exact agree_remote_pure rfl
  · refine asked.andThen fun result => ?_
    split
    · exact agree_update (fun _ => rfl) fun _ => rfl
    · exact agree_remote_throw _

/-- The request that a node has is the same but for its handle, or there was no number for it. -/
def SameCall (past : Past) (key : RunKey) (first second : Except (Failure RemoteError) CallHandle)
    (older newer : RemoteRun × Context σ) : Prop :=
  first = .error (.crash .handleOverflow) ∨
    first = second.map past.handle ∧ (past.remoteSteps key).states older newer ∧
      ∀ call, second = .ok call → newer.1.call = some call

theorem outcomes_startCall (setting : Setting) (node : Node) (remote : RemoteConfiguration)
    (alike : (past.remoteSteps key).states older newer) :
    (past.remoteSteps key).Outcomes (SameCall past key)
      (outcome (RemoteStep.startCall (past.setting setting) node remote).paired older)
      (outcome (RemoteStep.startCall setting node remote).paired newer) := by
  rcases older with ⟨_, one⟩
  rcases newer with ⟨run, other⟩
  rcases alike with ⟨rfl, mirrors, vacant, backs⟩
  let request : RemoteRequest :=
    ⟨remote.operation, remote.service, remote.host, node.label, remote.request⟩
  let timeout := remote.timeout.or setting.config.defaultTimeout
  have started := mirrors.client.start request timeout setting.now
  have issues := Client.started_start other.client request timeout setting.now
  unfold RemoteStep.startCall
  simp only [RemoteStep.paired_bind, outcome_bind, RemoteStep.outcome_update,
    RemoteStep.outcome_useClient, setting_config, setting_now]
  revert started issues
  generalize one.client.start request timeout setting.now = first
  generalize other.client.start request timeout setting.now = second
  rcases first with ⟨first, older⟩
  rcases second with ⟨(cause | cause) | call, newer⟩
  · rintro (rfl | ⟨rfl, mirrored⟩) issues
    · exact .done (Or.inl rfl)
    · refine .done (Or.inr ⟨rfl, ⟨rfl, { mirrors with client := mirrored }, vacant, ?_⟩, ?_⟩)
      · exact backs.unchanged issues
      · exact fun _ impossible => by cases impossible
  · rintro (rfl | ⟨rfl, mirrored⟩) issues
    · exact .done (Or.inl rfl)
    · cases issues
      exact .done (Or.inl rfl)
  · rintro (rfl | ⟨rfl, mirrored⟩) issues
    · exact .done (Or.inl rfl)
    · refine .done (Or.inr ⟨rfl, ⟨rfl, { mirrors with client := mirrored }, vacant, ?_⟩, ?_⟩)
      · have issued : newer.Backs (Function.update _ key (some call)) := backs.issued issues
        simpa only [requests, Function.update_idem] using issued
      · rintro _ ⟨⟩
        rfl

theorem outcomes_currentCall (setting : Setting) (node : Node) (remote : RemoteConfiguration)
    (alike : (past.remoteSteps key).states older newer) :
    (past.remoteSteps key).Outcomes (SameCall past key)
      (outcome (RemoteStep.currentCall (past.setting setting) node remote).paired older)
      (outcome (RemoteStep.currentCall setting node remote).paired newer) := by
  have started := outcomes_startCall setting node remote alike
  rcases older with ⟨_, one⟩
  rcases newer with ⟨run, other⟩
  rcases alike with ⟨rfl, mirrors, vacant, backs⟩
  unfold RemoteStep.currentCall
  simp only [RemoteStep.paired_bind, outcome_bind, RemoteStep.outcome_get,
    Past.call_remote]
  cases held : run.call with
  | none =>
    simp only [Option.map_none]
    exact started
  | some call =>
    simp only [Option.map_some]
    refine .done (Or.inr ⟨rfl, ⟨rfl, mirrors, vacant, backs⟩, ?_⟩)
    rintro _ ⟨⟩
    exact held

omit [RemoteService σ] in
/-- After a change of what a node remembers, steps have to agree on what is remembered then. -/
theorem outcomes_updated {change : RemoteRun → RemoteRun} {first : Unit → RemoteStep σ α}
    {second : Unit → RemoteStep σ β} (agree : past.AgreeRemotely key related (first ()) (second ()))
    (alike : (past.remoteSteps key).states (change older.1, older.2) (change newer.1, newer.2)) :
    (past.remoteSteps key).Outcomes
      (fun one other older newer => related one other ∧ (past.remoteSteps key).states older newer)
      (outcome (RemoteStep.update change >>= first).paired older)
      (outcome (RemoteStep.update change >>= second).paired newer) := by
  rcases older with ⟨_, one⟩
  rcases newer with ⟨run, other⟩
  rw [RemoteStep.paired_bind, RemoteStep.paired_bind, outcome_bind, outcome_bind]
  exact agree _ _ alike

omit [RemoteService σ] in
/-- What becomes of a node by a reply is the same, if its request is known to go on or to be
over. -/
theorem outcomes_settle (setting : Setting) (remote : RemoteConfiguration)
    (reply : Except (Failure RemoteError) CallStatus) {one other : Context σ} {run : RemoteRun}
    (mirrors : one.Mirrors past other) (vacant : other.runs.callAt key = none)
    (backs : other.client.Backs (if Client.isFinalReply reply then
      Function.update other.runs.callAt key none else requests key run other.runs)) :
    (past.remoteSteps key).Outcomes
      (fun first second older newer => first = second ∧ (past.remoteSteps key).states older newer)
      (outcome (RemoteStep.settle (past.setting setting) key remote reply).paired
        (past.remote run, one))
      (outcome (RemoteStep.settle setting key remote reply).paired (run, other)) := by
  unfold RemoteStep.settle
  split
  · refine outcomes_updated ?_ ⟨rfl, mirrors, vacant, backs⟩
    split
    · exact (agree_remote_writeOutput _ _ _ _).andThen fun _ => agree_remote_pure rfl
    · exact agree_remote_pure rfl
  · refine outcomes_updated ?_ ⟨rfl, mirrors, vacant, backs⟩
    exact (agree_remote_writeOutput _ _ _ _).andThen fun _ => agree_remote_pure rfl
  · exact outcomes_updated (agree_remote_throw _) ⟨rfl, mirrors, vacant, backs⟩
  · exact agree_remote_throw _ _ _ ⟨rfl, mirrors, vacant, backs⟩
  · exact outcomes_updated (agree_retryAfter RemoteRun.starts fun _ => rfl)
      ⟨rfl, mirrors, vacant, backs⟩
  · rename_i error notTimeout
    have ongoing : Client.isFinalReply (.error (.error error)) = false := by
      cases error with
      | timeout service after => exact absurd rfl (notTimeout service after)
      | _ => rfl
    rw [ongoing] at backs
    exact outcomes_updated (agree_retryAfter RemoteRun.pollFailures fun _ => rfl)
      ⟨rfl, mirrors, vacant, backs⟩

/-- The request of a node is known to be over, or to go on, by the reply to a poll. -/
theorem backs_poll {other : Context σ} {run : RemoteRun} {call : CallHandle} (now : Duration)
    (backs : other.client.Backs (requests key run other.runs)) (held : run.call = some call) :
    (other.client.poll call now).2.Backs
      (if Client.isFinalReply (other.client.poll call now).1 then
        Function.update other.runs.callAt key none else requests key run other.runs) := by
  have polled := Client.polled_poll other.client call now
  have crash : ∀ cause, (other.client.poll call now).1 = .error (.crash cause) →
      (other.client.poll call now).2 = other.client := fun _ crashed => Client.poll_crash crashed
  revert polled crash
  rcases other.client.poll call now with ⟨reply, client⟩
  intro polled crash
  have retires : (∀ cause, reply ≠ .error (.crash cause)) →
      other.client.Retires (fun other => Client.isFinalReply reply ∧ other = call) client := by
    intro calm
    rcases reply with (cause | cause) | status
    · exact polled
    · exact absurd rfl (calm cause)
    · exact polled
  cases final : Client.isFinalReply reply with
  | true =>
    have remembered : requests key run other.runs key = some call := by
      rw [requests, Function.update_self, held]
    have ended : ∀ cause, reply ≠ .error (.crash cause) := by
      rintro cause rfl
      cases final
    have retired := backs.retired remembered ((retires ended).congr (by simp [final]))
    simpa only [requests, Function.update_idem, ↓reduceIte] using retired
  | false =>
    by_cases crashed : ∃ cause, reply = .error (.crash cause)
    · rcases crashed with ⟨cause, rfl⟩
      have same : client = other.client := crash cause rfl
      rw [same]
      exact backs
    · rw [not_exists] at crashed
      exact backs.unchanged ((retires crashed).congr (by simp [final]))

theorem agree_advance (setting : Setting) (node : Node) (remote : RemoteConfiguration) :
    past.AgreeRemotely key Eq
      (RemoteStep.advance (past.setting setting) key node remote : RemoteStep σ Status)
      (RemoteStep.advance setting key node remote) := by
  refine (agree_openSession remote).andThen fun _ => ?_
  intro older newer alike
  rw [RemoteStep.paired_bind, RemoteStep.paired_bind]
  refine (outcomes_currentCall setting node remote alike).bind ?_
  rintro first second ⟨_, one⟩ ⟨run, other⟩ (rfl | ⟨rfl, ⟨rfl, mirrors, vacant, backs⟩, held⟩)
  · exact .exhausted rfl _ _
  · rcases second with (cause | cause) | call
    · exact agree_retryAfter RemoteRun.starts (fun _ => rfl) _ _ ⟨rfl, mirrors, vacant, backs⟩
    · exact agree_remote_throw _ _ _ ⟨rfl, mirrors, vacant, backs⟩
    · have remembered : run.call = some call := held call rfl
      have holds : other.client.Holds call :=
        backs.holds key call (by rw [requests, Function.update_self, remembered])
      rcases mirrors.client.poll holds setting.now with ⟨same, mirrored⟩
      simp only [Except.map, RemoteStep.paired_bind, outcome_bind, RemoteStep.outcome_useClient,
        setting_now, Past.handle, same]
      exact outcomes_settle setting remote _ { mirrors with client := mirrored } vacant
        (backs_poll setting.now backs remembered)

end Past

variable [RemoteService σ]

theorem outcome_tickRemote (setting : Setting) (key : RunKey) (node : Node)
    (remote : RemoteConfiguration) (context : Context σ) :
    outcome (tickRemote setting key node remote) context =
      match outcome (RemoteStep.advance setting key node remote).paired
        (context.runs.remoteRun key, { context with runs := context.runs.erase key }) with
      | (.ok .running, (run, after)) => (.ok .running, after.setRun key (.remote run))
      | (result, (run, after)) => (result, after.release (.remote run)) := by
  unfold outcome tickRemote RemoteStep.paired
  simp only [ExceptT.run, StateT.run]
  rcases RemoteStep.advance setting key node remote (context.runs.remoteRun key)
    { context with runs := context.runs.erase key } with ⟨⟨fault | status, run⟩, after⟩
  · rfl
  · cases status <;> rfl

namespace Past

omit [RemoteService σ] in
/-- A remote node that is ticked deals with its service by what it remembers. -/
theorem dealing_remoteRun {older newer : Context σ} (alike : past.attempts.states older newer)
    (key : RunKey) :
    past.Dealing key (older.runs.remoteRun key, { older with runs := older.runs.erase key })
      (newer.runs.remoteRun key, { newer with runs := newer.runs.erase key }) := by
  rcases alike with ⟨mirrors, backs⟩
  refine ⟨?_, { mirrors with runs := ?_ }, ?_, ?_⟩
  · rw [mirrors.runs, remoteRun_runs]
  · rw [mirrors.runs, runs_erase]
  · simp [RunStore.callAt, RunStore.get?, RunStore.erase]
  · refine backs.forget fun holder handle held => ?_
    rw [requests, Function.update_apply, RunStore.call_remoteRun] at held
    split at held
    · rename_i here
      rw [here, held]
    · rename_i different
      simpa [RunStore.callAt, RunStore.get?, RunStore.erase, Table.get?_erase_of_ne different]
        using held

/-- A remote node that is over gives up its request with what it remembers. -/
theorem Dealing.released {older newer : RemoteRun × Context σ}
    (dealing : past.Dealing key older newer) :
    past.attempts.states (older.2.release (.remote older.1))
      (newer.2.release (.remote newer.1)) := by
  rcases older with ⟨_, one⟩
  rcases newer with ⟨run, other⟩
  rcases dealing with ⟨rfl, mirrors, vacant, backs⟩
  refine ⟨mirrors.release (.remote run), ?_⟩
  have own : requests key run other.runs key = (RunState.remote run).call? :=
    Function.update_self _ _ _
  have given := backs_release backs own
  refine given.forget fun holder handle held => ?_
  have elsewhere : holder ≠ key := by
    rintro rfl
    cases held.symm.trans vacant
  rw [Function.update_of_ne elsewhere, requests, Function.update_of_ne elsewhere]
  exact held

omit [RemoteService σ] in
/-- A remote node that goes on remembers its request. -/
theorem Dealing.remembered {older newer : RemoteRun × Context σ}
    (dealing : past.Dealing key older newer) :
    past.attempts.states (older.2.setRun key (.remote older.1))
      (newer.2.setRun key (.remote newer.1)) := by
  rcases older with ⟨_, one⟩
  rcases newer with ⟨run, other⟩
  rcases dealing with ⟨rfl, mirrors, -, backs⟩
  refine ⟨mirrors.setRun key (.remote run), backs.forget fun holder handle held => ?_⟩
  rw [callAt_setRun] at held
  rw [requests, Function.update_apply]
  exact held

theorem agree_tickRemote (setting : Setting) (key : RunKey) (node : Node)
    (remote : RemoteConfiguration) :
    past.attempts.Agree Eq (tickRemote (past.setting setting) key node remote : Attempt σ Status)
      (tickRemote setting key node remote) := by
  intro older newer alike
  have advanced := agree_advance setting node remote _ _ (dealing_remoteRun alike key)
  rw [outcome_tickRemote, outcome_tickRemote]
  revert advanced
  generalize outcome (RemoteStep.paired _) _ = first
  generalize outcome (RemoteStep.paired _) _ = second
  intro advanced
  cases advanced with
  | @done status _ _ _ holds =>
    rcases holds with ⟨rfl, dealing⟩
    cases status with
    | running => exact .done ⟨rfl, dealing.remembered⟩
    | success => exact .done ⟨rfl, dealing.released⟩
    | failure => exact .done ⟨rfl, dealing.released⟩
  | failed dealing => exact .failed (Dealing.released dealing)
  | exhausted out =>
    refine .exhausted ?_ _ _
    exact out

end Past

end BehaviorTree
