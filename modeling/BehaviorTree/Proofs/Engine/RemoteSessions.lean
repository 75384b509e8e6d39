import BehaviorTree.Proofs.Engine.ServiceUse
import BehaviorTree.Proofs.Remote.Sessions

/-!
# Sessions of remote nodes

A remote node makes its first request only after it has asked for a session, and later ones without
asking again. If its service and host stay the same, they are made with that session, unless the
sessions of the client were reset. As a tick does not reset them, it keeps that every node which
remembers to have a session still has one.
-/

namespace BehaviorTree

variable {σ : Type}

/-- The service and the host of a node do not depend on the blackboard. -/
def Node.HasFixedTarget (node : Node) : Prop :=
  ∀ change ∈ node.overrides, change.field ≠ "service" ∧ change.field ≠ "host"

/-- All remote nodes of a tree have fixed targets. -/
def Tree.HasFixedTargets (tree : Tree) : Prop :=
  ∀ index node operation, tree.node? index = some node → node.kind = .remote operation →
    node.HasFixedTarget

/-- The service and the host for which a configuration asks. -/
def RemoteConfiguration.target (remote : RemoteConfiguration) : String × String :=
  (remote.service, remote.host)

section Targets

variable {fields other : FieldTable} {operation : RemoteOperation} {node : Node}
  {before after : Context σ} {remote again : RemoteConfiguration}

theorem FieldTable.text?_congr {name : String} (same : other.get? name = fields.get? name) :
    other.text? name = fields.text? name := by
  simp only [text?, constant?, same]

theorem configureRemote_target (configured : configureRemote operation fields = .ok remote) :
    ∃ service host, fields.text? "service" = .ok service ∧ fields.text? "host" = .ok host ∧
      remote.target = (service.getD operation.defaultService, host.getD "") := by
  simp only [configureRemote, bind_eq_ok, mapError_eq_ok] at configured
  rcases configured with ⟨service, named, configured⟩
  split at configured
  · cases configured
  · simp only [bind_eq_ok, mapError_eq_ok] at configured
    rcases configured with ⟨_, -, _, -, host, placed, _, -, done⟩
    cases done
    exact ⟨service, host, named, placed, rfl⟩

/-- The target depends on two fields only. -/
theorem configureRemote_target_congr (service : other.get? "service" = fields.get? "service")
    (host : other.get? "host" = fields.get? "host")
    (first : configureRemote operation fields = .ok remote)
    (second : configureRemote operation other = .ok again) : again.target = remote.target := by
  rcases configureRemote_target first with ⟨name, place, named, placed, target⟩
  rcases configureRemote_target second with ⟨_, _, sameName, samePlace, sameTarget⟩
  rw [FieldTable.text?_congr service, named, Except.ok.injEq] at sameName
  rw [FieldTable.text?_congr host, placed, Except.ok.injEq] at samePlace
  rw [sameTarget, target, sameName, samePlace]

theorem Override.fill_eq_ok {kind : NodeKind} {context : Context σ} {change : Override}
    (filled : change.fill kind context fields = .ok other) :
    ∃ value, other = fields.insert change.field (.constant value) := by
  simp only [fill, bind_eq_ok] at filled
  rcases filled with ⟨value, -, filled⟩
  split at filled
  · simp only [bind_eq_ok] at filled
    rcases filled with ⟨coerced, -, done⟩
    cases done
    exact ⟨coerced, rfl⟩
  · cases filled
    exact ⟨value, rfl⟩

/-- Overrides of other fields leave a field as it is. -/
theorem get?_of_foldlM_fill {kind : NodeKind} {context : Context σ} {overrides : List Override}
    {name : String} (spared : ∀ change ∈ overrides, change.field ≠ name)
    (filled : overrides.foldlM (Override.fill kind context) fields = .ok other) :
    other.get? name = fields.get? name := by
  induction overrides generalizing fields with
  | nil =>
    cases filled
    rfl
  | cons first rest ih =>
    simp only [List.foldlM_cons, bind_eq_ok] at filled
    rcases filled with ⟨middle, change, filled⟩
    rcases Override.fill_eq_ok change with ⟨value, rfl⟩
    rw [ih (fun change listed => spared change (List.mem_cons_of_mem _ listed)) filled]
    exact Table.get?_insert_of_ne (spared first List.mem_cons_self).symm

/-- A node runs as it was configured, or as its fields say after its overrides are filled in. -/
theorem Node.effectiveConfiguration_eq_ok {configuration : Configuration}
    (effective : node.effectiveConfiguration before = .ok configuration) :
    (node.overrides = [] ∧ node.configuration = some configuration) ∨
      (node.overrides = [] → node.configuration = none) ∧
      ∃ fields, node.overrides.foldlM (Override.fill node.kind before) node.fields = .ok fields ∧
        node.kind.configure fields = .ok configuration := by
  simp only [effectiveConfiguration] at effective
  split at effective
  · rename_i listed configured
    cases effective
    exact Or.inl ⟨listed, configured⟩
  · rename_i others
    simp only [bind_eq_ok, mapError_eq_ok] at effective
    refine Or.inr ⟨fun listed => ?_, effective⟩
    rw [Option.eq_none_iff_forall_ne_some]
    exact fun configuration configured => others configuration listed configured

/-- A node with a fixed target has the same one in every context. -/
theorem Node.HasFixedTarget.target_eq (fixed : node.HasFixedTarget)
    (kind : node.kind = .remote operation)
    (first : node.effectiveConfiguration before = .ok (.remote remote))
    (second : node.effectiveConfiguration after = .ok (.remote again)) :
    again.target = remote.target := by
  rcases effectiveConfiguration_eq_ok first with
    ⟨listed, configured⟩ | ⟨unconfigured, fields, filled, configured⟩ <;>
  rcases effectiveConfiguration_eq_ok second with
    ⟨alsoListed, same⟩ | ⟨alsoUnconfigured, others, refilled, reconfigured⟩
  · rw [configured, Option.some.injEq, Configuration.remote.injEq] at same
    rw [same]
  · rw [alsoUnconfigured listed] at configured
    cases configured
  · rw [unconfigured alsoListed] at same
    cases same
  · simp only [kind, NodeKind.configure, map_eq_ok, Configuration.remote.injEq, exists_eq_right]
      at configured reconfigured
    have service := fun change listed => (fixed change listed).1
    have host := fun change listed => (fixed change listed).2
    refine configureRemote_target_congr ?_ ?_ configured reconfigured
    · rw [get?_of_foldlM_fill service refilled, get?_of_foldlM_fill service filled]
    · rw [get?_of_foldlM_fill host refilled, get?_of_foldlM_fill host filled]

end Targets

namespace RemoteStep

/-- What is known while a node deals with its service: its session is open if it remembers to have
one, and no other session was closed. -/
structure Asking (bound : Prop) (origin : List Exchange) (target : String × String)
    (start : Context σ) (key : RunKey) (run : RemoteRun) (context : Context σ) : Prop where
  logged : context.client.Logged bound origin
  grows : ∀ session ∈ start.client.sessions, session ∈ context.client.sessions
  aimed : bound → run.session = true → target ∈ context.client.sessions
  runs : context.runs = start.runs.erase key

variable {α : Type} {bound : Prop} {origin : List Exchange} {start context : Context σ}
  {target : String × String} {key : RunKey} {run : RemoteRun} {setting : Setting} {node : Node}
  {remote : RemoteConfiguration}

/-- An action keeps what is known. A crash of the program does not have to keep it. -/
def Asks (action : RemoteStep σ α) (bound : Prop) (origin : List Exchange)
    (target : String × String) (start : Context σ) (key : RunKey) (run : RemoteRun)
    (context : Context σ) : Prop :=
  Ends action run context (fun _ run after => Asking bound origin target start key run after)
    fun fault run after => ∀ cause, fault = .node cause →
      Asking bound origin target start key run after

theorem Asking.withClient (asking : Asking bound origin target start key run context)
    {client : Client σ} (keeps : context.client.Keeps client) :
    Asking bound origin target start key run { context with client := client } := by
  refine ⟨keeps.logged asking.logged, ?_, ?_, asking.runs⟩
  · intro session listed
    rw [keeps.sessions]
    exact asking.grows session listed
  · intro isBound session
    rw [keeps.sessions]
    exact asking.aimed isBound session

theorem Asking.withRun (asking : Asking bound origin target start key run context)
    (other : RemoteRun) (session : other.session = run.session) :
    Asking bound origin target start key other context :=
  ⟨asking.logged, asking.grows, fun isBound opened => asking.aimed isBound (session ▸ opened),
    asking.runs⟩

theorem asks_retryOr {error : RemoteError} {attempts : Nat} {limit : UInt32}
    (asking : Asking bound origin target start key run context) :
    Asks (retryOr error attempts limit) bound origin target start key run context := by
  simp only [Asks, retryOr]
  split
  · exact asking
  · rintro _ ⟨⟩
    exact asking

theorem asks_writeOutput {port : String} {value : Value} {status : Status}
    (asking : Asking bound origin target start key run context) :
    Asks (do ofAttempt (writeOutput setting key.node port value); return status) bound origin target
      start key run context := by
  simp only [Asks, ends_bind, ends_ofAttempt, writeOutput]
  split
  · exact asking
  · simp only [BehaviorTree.ends_bind, Attempt.ends_get, ends_accessed, Attempt.ends_set]
    split
    · exact ⟨asking.logged, asking.grows, asking.aimed, asking.runs⟩
    · exact fun _ _ => asking

/-- Whatever the reply to a poll, the session of the node stays as it is. -/
theorem asks_settle {reply : Except (Failure RemoteError) CallStatus}
    (asking : Asking bound origin target start key run context) :
    Asks (settle setting key remote reply) bound origin target start key run context := by
  simp only [settle]
  split
  · rename_i feedback
    have polled := asking.withRun { run with pollFailures := 0 } rfl
    cases feedback with
    | none => exact polled
    | some feedback => exact asks_writeOutput polled
  · exact asks_writeOutput (asking.withRun { run with call := none } rfl)
  · rintro _ ⟨⟩
    exact asking.withRun _ rfl
  · rintro _ ⟨⟩
  · exact asks_retryOr (asking.withRun _ rfl)
  · exact asks_retryOr (asking.withRun _ rfl)

variable [RemoteService σ]

/-- A node asks for a session, unless it remembers to have one. -/
theorem ends_openSession_asking
    (asking : Asking bound origin remote.target start key run context) :
    Ends (openSession remote) run context
      (fun _ run after => Asking bound origin remote.target start key run after ∧
        (bound → remote.target ∈ after.client.sessions))
      fun fault run after => ∀ cause, fault = .node cause →
        Asking bound origin remote.target start key run after := by
  simp only [openSession, ends_bind, ends_get]
  split
  · rename_i opened
    exact ⟨asking, fun isBound => asking.aimed isBound opened⟩
  · rename_i unopened
    rcases Client.logged_ensureSession asking.logged remote.service remote.host with
      ⟨logged, grows, opens⟩
    have asked : Asking bound origin remote.target start key run
        { context with client := (context.client.ensureSession remote.service remote.host).2 } :=
      ⟨logged, fun session listed => grows session (asking.grows session listed),
        fun _ opened => absurd opened unopened, asking.runs⟩
    simp only [ends_bind, ends_useClient]
    split
    · rename_i granted
      exact ⟨⟨asked.logged, asked.grows, fun _ _ => opens granted, asked.runs⟩,
        fun _ => opens granted⟩
    · rintro _ ⟨⟩
      exact asked

/-- A node that has its session makes its request with it. -/
theorem ends_currentCall_asking
    (asking : Asking bound origin remote.target start key run context)
    (opened : bound → remote.target ∈ context.client.sessions) :
    Ends (currentCall setting node remote) run context
      (fun _ run after => Asking bound origin remote.target start key run after)
      fun fault run after => ∀ cause, fault = .node cause →
        Asking bound origin remote.target start key run after := by
  simp only [currentCall, ends_bind, ends_get]
  split
  · exact asking
  · have made := Client.logged_start asking.logged
      ⟨remote.operation, remote.service, remote.host, node.label, remote.request⟩
      (remote.timeout.or setting.config.defaultTimeout) setting.now opened
    simp only [startCall, ends_bind, ends_update, ends_useClient]
    revert made
    generalize context.client.start _ _ _ = answer
    rcases answer with ⟨failure | call, client⟩ <;> rintro ⟨logged, sessions⟩
    · refine ⟨logged, ?_, ?_, asking.runs⟩
      · exact fun session listed => sessions ▸ asking.grows session listed
      · exact fun isBound _ => sessions ▸ opened isBound
    · refine ⟨logged, ?_, ?_, asking.runs⟩
      · exact fun session listed => sessions ▸ asking.grows session listed
      · exact fun isBound _ => sessions ▸ opened isBound

theorem asks_advance (asking : Asking bound origin remote.target start key run context) :
    Asks (advance setting key node remote) bound origin remote.target start key run context := by
  simp only [Asks, advance, ends_bind]
  refine (ends_openSession_asking asking).mono ?_
  rintro _ run context ⟨asking, opened⟩
  refine (ends_currentCall_asking asking opened).mono ?_
  intro result run context asking
  split
  · rintro _ ⟨⟩
  · simp only [ends_bind, ends_get]
    exact asks_retryOr asking
  · rename_i call
    simp only [ends_bind, ends_useClient]
    exact asks_settle (asking.withClient (Client.keeps_poll _ _ _))

end RemoteStep

/-- Every node that remembers to have a session has one, and the client keeps its log. -/
structure Context.Sessioned (tree : Tree) (bound : Prop) (origin : List Exchange)
    (context : Context σ) : Prop where
  logged : context.client.Logged bound origin
  aimed : bound → ∀ key node operation (other : Context σ) remote,
    (context.runs.remoteRun key).session = true → tree.node? key.node = some node →
    node.kind = .remote operation → node.effectiveConfiguration other = .ok (.remote remote) →
    remote.target ∈ context.client.sessions

variable [RemoteService σ] {tree : Tree} {bound : Prop} {origin : List Exchange}
  {start context after : Context σ} {key : RunKey} {node : Node} {operation : RemoteOperation}
  {remote : RemoteConfiguration} {setting : Setting} {result : Except Fault Status}

omit [RemoteService σ] in
/-- What a remote node remembers when others keep their run states. -/
theorem Context.Sessioned.served (sessioned : start.Sessioned tree bound origin) (key : RunKey)
    (logged : after.client.Logged bound origin)
    (grows : ∀ session ∈ start.client.sessions, session ∈ after.client.sessions)
    (elsewhere : ∀ other, other ≠ key → after.runs.remoteRun other = start.runs.remoteRun other)
    (here : bound → (after.runs.remoteRun key).session = true → ∀ node operation other remote,
      tree.node? key.node = some node → node.kind = .remote operation →
      node.effectiveConfiguration (σ := σ) other = .ok (.remote remote) →
      remote.target ∈ after.client.sessions) :
    after.Sessioned tree bound origin := by
  refine ⟨logged, ?_⟩
  intro isBound other node operation context remote opened found kind effective
  by_cases same : other = key
  · subst same
    exact here isBound opened node operation context remote found kind effective
  · rw [elsewhere other same] at opened
    exact grows _ (sessioned.aimed isBound other node operation context remote opened found kind
      effective)

theorem RunState.keeps_release (state : RunState) (blackboard : Blackboard) (client : Client σ) :
    client.Keeps (state.release blackboard client).2 := by
  simp only [release]
  split
  · exact .refl client
  · split
    · exact client.keeps_cancel _
    · exact .refl client

/-- A node that is not running forgets its session, and one that is running has it. -/
theorem RemoteStep.Asking.sessioned {run : RemoteRun}
    (asking : RemoteStep.Asking bound origin remote.target start key run context)
    (sessioned : start.Sessioned tree bound origin) (fixed : bound → tree.HasFixedTargets)
    (found : tree.node? key.node = some node) (kind : node.kind = .remote operation)
    (effective : node.effectiveConfiguration start = .ok (.remote remote)) :
    (context.setRun key (.remote run)).Sessioned tree bound origin ∧
      (context.release (.remote run)).Sessioned tree bound origin := by
  have elsewhere : ∀ other, other ≠ key →
      context.runs.remoteRun other = start.runs.remoteRun other := by
    intro other different
    simp only [RunStore.remoteRun, asking.runs, RunStore.get?, RunStore.erase,
      Table.get?_erase_of_ne different]
  constructor
  · refine sessioned.served key asking.logged asking.grows ?_ ?_
    · intro other different
      rw [← elsewhere other different]
      simp only [RunStore.remoteRun, Context.get?_setRun, different, ↓reduceIte]
    · intro isBound opened other operation' elsewhereContext again found' kind' effective'
      have opened : run.session = true := by
        simpa only [RunStore.remoteRun, Context.get?_setRun, ↓reduceIte] using opened
      rw [found, Option.some.injEq] at found'
      subst found'
      have fixedHere := fixed isBound _ _ _ found kind
      rw [fixedHere.target_eq kind effective effective']
      exact asking.aimed isBound opened
  · have keeps : context.client.Keeps (context.release (.remote run)).client :=
      (RunState.remote run).keeps_release context.blackboard context.client
    refine sessioned.served key (keeps.logged asking.logged) ?_ elsewhere ?_
    · intro session listed
      rw [keeps.sessions]
      exact asking.grows session listed
    · intro isBound opened
      have forgotten : (context.release (.remote run)).runs.remoteRun key = .initial := by
        change context.runs.remoteRun key = .initial
        simp only [RunStore.remoteRun, asking.runs, RunStore.get?, RunStore.erase,
          Table.get?_erase_self]
      rw [forgotten] at opened
      cases opened

/-- The turn of a remote node keeps that nodes have the sessions that they remember. -/
theorem Context.Sessioned.ticked (sessioned : start.Sessioned setting.tree bound origin)
    (fixed : bound → setting.tree.HasFixedTargets)
    (found : setting.tree.node? key.node = some node) (kind : node.kind = .remote operation)
    (effective : node.effectiveConfiguration start = .ok (.remote remote))
    (ran : outcome (tickRemote setting key node remote) start = (result, after))
    (calm : ∀ failure, result ≠ .error (.abort failure)) :
    after.Sessioned setting.tree bound origin := by
  have asking : RemoteStep.Asking bound origin remote.target start key (start.runs.remoteRun key)
      { start with runs := start.runs.erase key } := by
    refine ⟨sessioned.logged, fun _ listed => listed, ?_, rfl⟩
    intro isBound opened
    exact sessioned.aimed isBound key node operation start remote opened found kind effective
  have advanced : RemoteStep.Asks (RemoteStep.advance setting key node remote) bound origin
      remote.target start key (start.runs.remoteRun key)
      { start with runs := start.runs.erase key } := RemoteStep.asks_advance asking
  simp only [RemoteStep.Asks, RemoteStep.Ends, ExceptT.run, StateT.run] at advanced
  simp only [outcome, tickRemote, ExceptT.run, StateT.run] at ran
  revert advanced ran
  rcases RemoteStep.advance setting key node remote (start.runs.remoteRun key)
    { start with runs := start.runs.erase key } with ⟨⟨fault | status, remembered⟩, context⟩
  · intro ran advanced
    cases ran
    cases fault with
    | node cause =>
      exact ((advanced cause rfl).sessioned sessioned fixed found kind effective).2
    | abort failure => exact absurd rfl (calm failure)
  · intro ran advanced
    have both := advanced.sessioned sessioned fixed found kind effective
    cases status <;> cases ran
    · exact both.2
    · exact both.2
    · exact both.1

theorem Context.keeps_discardedAll (context : Context σ) (keys : List RunKey) :
    context.client.Keeps (context.discardedAll keys).client := by
  induction keys generalizing context with
  | nil => exact .refl _
  | cons first rest ih =>
    refine Client.Keeps.trans ?_ (ih (context.discarded first))
    simp only [discarded]
    split
    · exact RunState.keeps_release _ _ _
    · exact .refl _

/-- A tick keeps that nodes have the sessions that they remember. -/
theorem Context.Deals.sessioned (deals : start.Deals setting context)
    (sessioned : start.Sessioned setting.tree bound origin)
    (fixed : bound → setting.tree.HasFixedTargets) :
    context.Sessioned setting.tree bound origin := by
  induction deals with
  | nothing => exact sessioned
  | elsewhere _ client runs ih =>
    refine ⟨by rw [client]; exact ih.logged, ?_⟩
    intro isBound key node operation other remote opened
    rw [runs] at opened
    rw [client]
    exact ih.aimed isBound key node operation other remote opened
  | @halted context _ keys ih =>
    have keeps := context.keeps_discardedAll keys
    refine ⟨keeps.logged ih.logged, ?_⟩
    intro isBound key node operation other remote opened
    rw [keeps.sessions]
    refine ih.aimed isBound key node operation other remote ?_
    simp only [RunStore.remoteRun, get?_discardedAll] at opened
    split at opened
    · rename_i run remembered
      split at remembered
      · cases remembered
      · simpa only [RunStore.remoteRun, remembered] using opened
    · cases opened
  | turned _ found kind effective ran calm ih =>
    exact ih.ticked fixed found kind effective ran calm

end BehaviorTree
