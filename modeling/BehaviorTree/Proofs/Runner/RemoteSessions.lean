import BehaviorTree.Proofs.Engine.RemoteSessions
import BehaviorTree.Proofs.Runner.Retries

/-!
# Sessions of runners

Besides what a runner is told to do, its client may be told to reset its sessions. Between two
resets no session is opened twice. A remote node opens a session before its first request, and it
takes for granted that it has the session from then on. So every request is made after a session was
opened for it, provided that remote nodes do not change their services and hosts, and that sessions
are not reset while a node takes one for granted. Else there are requests without a session.
-/

namespace BehaviorTree

variable {σ π : Type}

theorem RunStore.session_remoteRun_detachCalls (runs : RunStore) (key : RunKey) :
    (runs.detachCalls.2.remoteRun key).session = (runs.remoteRun key).session := by
  have detached := runs.remoteRun_detachCalls key
  cases held : (runs.remoteRun key).call with
  | none =>
    simp only [RunState.detach, held, RunState.remote.injEq] at detached
    rw [← detached]
  | some call =>
    simp only [RunState.detach, held, RunState.remote.injEq] at detached
    rw [← detached]

namespace Runner

/-- The client keeps its log, and nodes that take a session for granted have one. -/
structure Sessioned (bound : Prop) (origin : List Exchange) (runner : Runner σ) : Prop where
  logged : runner.client.Logged bound origin
  fixed : bound → ∀ tree, runner.tree = some tree → tree.HasFixedTargets
  taken : ∀ tree, runner.tree = some tree → runner.context.Sessioned tree bound origin

/-- No request is made and no session is opened or taken for granted. -/
structure KeepsSessions (before after : Runner σ) : Prop where
  tree : after.tree = before.tree
  client : before.client.Keeps after.client
  taken : ∀ key, (after.runs.remoteRun key).session = true →
    (before.runs.remoteRun key).session = true

variable {bound : Prop} {origin : List Exchange} {runner middle after : Runner σ}
  {provider later : π} {now : Duration} {wallClock : WallClock}

theorem KeepsSessions.refl (runner : Runner σ) : runner.KeepsSessions runner :=
  ⟨rfl, .refl _, fun _ taken => taken⟩

theorem KeepsSessions.trans (first : runner.KeepsSessions middle)
    (second : middle.KeepsSessions after) : runner.KeepsSessions after :=
  ⟨second.tree.trans first.tree, first.client.trans second.client,
    fun key taken => first.taken key (second.taken key taken)⟩

theorem keepsSessions_of_eq (tree : after.tree = runner.tree)
    (client : after.client = runner.client)
    (runs : after.runs = runner.runs) : runner.KeepsSessions after :=
  ⟨tree, client ▸ .refl _, fun _ taken => runs ▸ taken⟩

theorem Sessioned.kept (sessioned : runner.Sessioned bound origin)
    (keeps : runner.KeepsSessions after) : after.Sessioned bound origin := by
  refine ⟨keeps.client.logged sessioned.logged, ?_, ?_⟩
  · intro isBound tree loaded
    exact sessioned.fixed isBound tree (keeps.tree.symm.trans loaded)
  · intro tree loaded
    have before := sessioned.taken tree (keeps.tree.symm.trans loaded)
    refine ⟨keeps.client.logged before.logged, ?_⟩
    intro isBound key node operation other remote taken found kind effective
    have session := before.aimed isBound key node operation other remote (keeps.taken key taken)
      found kind effective
    rw [show after.context.client.sessions = runner.client.sessions from keeps.client.sessions]
    exact session

theorem sessioned_create (config : MissionConfig) :
    (create config (.empty : Client σ)).Sessioned bound [] := by
  refine ⟨⟨[], rfl, rfl, List.nodup_nil, fun _ => sessionsFirst_nil⟩, ?_, ?_⟩
  · rintro - tree ⟨⟩
  · rintro tree ⟨⟩

variable [RemoteService σ]

theorem keepsSessions_reset (runner : Runner σ) : runner.KeepsSessions runner.reset := by
  have released : ∀ (states : List RunState) (runner : Runner σ),
      runner.client.Keeps (states.foldl release runner).client := by
    intro states
    induction states with
    | nil => exact fun runner => .refl runner.client
    | cons state rest ih =>
      intro runner
      have first : runner.client.Keeps (runner.release state).client :=
        state.keeps_release runner.blackboard runner.client
      exact first.trans (ih (runner.release state))
  refine ⟨(reset_keeps runner).2.1, ?_, ?_⟩
  · rw [reset_eq]
    exact released _ { runner with runs := .empty }
  · intro key taken
    rw [runs_reset] at taken
    cases taken

theorem keepsSessions_dropCalls (runner : Runner σ) : runner.KeepsSessions runner.dropCalls := by
  refine ⟨rfl, ?_, ?_⟩
  · exact (Client.keeps_foldl_cancel _ _).trans (Client.keeps_cancelAll _)
  · intro key taken
    exact (RunStore.session_remoteRun_detachCalls _ _).symm.trans taken

theorem keepsSessions_restart (runner : Runner σ) (now : Duration) :
    runner.KeepsSessions (runner.restart now) := by
  have reset := runner.keepsSessions_reset
  simp only [restart]
  split
  · exact reset.trans (keepsSessions_of_eq rfl rfl rfl)
  · exact reset.trans (keepsSessions_of_eq rfl rfl rfl)
  · exact reset

theorem keepsSessions_prepare (runner : Runner σ) : runner.KeepsSessions runner.prepare := by
  have resumed : runner.KeepsSessions { runner with pauses := runner.pauses + 1 } :=
    keepsSessions_of_eq rfl rfl rfl
  simp only [prepare]
  split
  · exact runner.keepsSessions_reset
  · split
    · exact resumed.trans (keepsSessions_reset _)
    · exact resumed
  · split
    · exact resumed.trans (keepsSessions_reset _)
    · exact resumed
  · exact .refl runner
  · exact .refl runner

variable [LeaseProvider π]

theorem keepsSessions_stop (runner : Runner σ) (provider : π) :
    runner.KeepsSessions (runner.stop provider).1 := by
  have dropped := runner.keepsSessions_dropCalls
  simp only [stop]
  split <;> exact dropped.trans (keepsSessions_of_eq rfl rfl rfl)

theorem keepsSessions_play (played : runner.play now provider = (.ok after, later)) :
    runner.KeepsSessions after := by
  cases played_of_play played with
  | already => exact .refl runner
  | @started tree leases =>
    have leased : runner.KeepsSessions { runner with leases := leases } :=
      keepsSessions_of_eq rfl rfl rfl
    exact (leased.trans (keepsSessions_prepare _)).trans (keepsSessions_of_eq rfl rfl rfl)

/-- To load a tree is to begin a new log. -/
theorem sessioned_load {tree : Tree} (fixed : bound → tree.HasFixedTargets) :
    (runner.load provider tree).1.Sessioned bound (runner.load provider tree).1.client.journal := by
  have logged : (runner.load provider tree).1.client.Logged bound
      (runner.load provider tree).1.client.journal :=
    Client.logged_resetSessions (runner.stop provider).1.reset.client
  refine ⟨logged, ?_, ?_⟩
  · rintro isBound _ ⟨⟩
    exact fixed isBound
  · rintro _ ⟨⟩
    refine ⟨logged, ?_⟩
    intro isBound key node operation other remote taken
    have blank : (runner.load provider tree).1.runs = .empty := load_runs.1
    rw [show (runner.load provider tree).1.context.runs = .empty from blank] at taken
    cases taken

omit [LeaseProvider π] in
/-- A tick keeps that nodes have the sessions that they take for granted. -/
theorem Sessioned.ticked {result : Except (Failure MissionError) Status}
    (sessioned : runner.Sessioned bound origin) (orderly : runner.Orderly)
    (ticked : runner.Ticked now wallClock result after)
    (calm : ∀ cause, result ≠ .error (.crash cause)) : after.Sessioned bound origin := by
  cases ticked with
  | refused leases cause => exact sessioned.kept (keepsSessions_of_eq rfl rfl rfl)
  | crashed loaded overflow => exact absurd rfl (calm _)
  | @ran tree _ context _ leases loaded ticked advances active goesOn =>
    have governs := orderly.loaded tree loaded
    have dealing : Ends (BehaviorTree.tick (runner.setting tree now wallClock) tree.main)
        runner.context
        (fun _ after => runner.context.Deals (runner.setting tree now wallClock) after)
        fun _ _ => True :=
      ends_tick_deals governs.wellFormed ⟨0, tree.main⟩ governs.wellFormed.rooted rfl governs.fits
    have taken := (dealing.of_eq_ok ticked).sessioned (sessioned.taken tree loaded)
      fun isBound => sessioned.fixed isBound tree loaded
    refine ⟨taken.logged, sessioned.fixed, ?_⟩
    intro other isTree
    rw [show runner.tree = some other from isTree, Option.some.injEq] at loaded
    subst loaded
    exact ⟨taken.logged, taken.aimed⟩

end Runner

/-- Whatever a runner is told to do but to load a tree, it keeps its log. -/
theorem Site.sessioned_perform [RemoteService σ] [LeaseProvider π] {site after : Site σ π}
    {bound : Prop} {origin : List Exchange} {now : Duration} {operation : Operation σ π}
    (orderly : site.runner.Orderly) (sessioned : site.runner.Sessioned bound origin)
    (performed : site.perform now operation = .ok after)
    (goesOn : ∀ accepted, operation ≠ .load accepted) :
    after.runner.Sessioned bound origin := by
  cases operation with
  | register name service =>
    cases performed
    refine sessioned.kept ⟨rfl, ?_, fun _ taken => taken⟩
    exact Client.keeps_of_eq rfl rfl
  | load accepted => exact absurd rfl (goesOn accepted)
  | define name value =>
    rcases perform_define_eq_ok performed with ⟨blackboard, rfl⟩
    exact sessioned.kept (Runner.keepsSessions_of_eq rfl rfl rfl)
  | write name value =>
    rcases perform_write_eq_ok performed with ⟨blackboard, rfl⟩
    exact sessioned.kept (Runner.keepsSessions_of_eq rfl rfl rfl)
  | play =>
    simp only [perform] at performed
    split at performed
    · rename_i played
      cases performed
      exact sessioned.kept (Runner.keepsSessions_play played)
    · cases performed
      exact sessioned
  | pause =>
    cases performed
    refine sessioned.kept ?_
    simp only [Runner.pause]
    split <;> exact Runner.keepsSessions_of_eq rfl rfl rfl
  | stop =>
    cases performed
    exact sessioned.kept (Runner.keepsSessions_stop _ _)
  | restart =>
    cases performed
    exact sessioned.kept (Runner.keepsSessions_restart _ _)
  | tick wallClock =>
    rcases perform_tick_eq_ok performed with ⟨same, calm⟩
    rw [same]
    exact sessioned.ticked orderly (orderly.ticked now wallClock site.provider) calm
  | compete change =>
    cases performed
    exact sessioned

/-- What happens to a runner, apart from what it is told to do. -/
inductive Deed (σ π : Type) where
  | perform (now : Duration) (operation : Operation σ π)
  | resetSessions

/-- A site with the journal that the client had when its sessions were reset last. -/
structure SessionLog (σ π : Type) where
  site : Site σ π
  origin : List Exchange

namespace SessionLog

def start (config : MissionConfig) (provider : π) : SessionLog σ π := ⟨.start config provider, []⟩

variable [RemoteService σ] [LeaseProvider π]

/-- The log after a deed. To load a tree resets the sessions, too. -/
def step (log : SessionLog σ π) : Deed σ π → Except Crash (SessionLog σ π)
  | .perform now operation => (log.site.perform now operation).map fun after =>
      match operation with
      | .load _ => ⟨after, after.runner.client.journal⟩
      | _ => ⟨after, log.origin⟩
  | .resetSessions =>
    let client := log.site.runner.client
    .ok ⟨{ log.site with runner := { log.site.runner with client := client.resetSessions } },
      client.journal⟩

def follow (log : SessionLog σ π) (deeds : List (Deed σ π)) : Except Crash (SessionLog σ π) :=
  deeds.foldlM step log

/-- A deed leaves remote nodes the sessions that they take for granted: in a tree that is loaded no
blackboard changes a service or a host, and sessions are reset when no node takes one for
granted. -/
def Spares (log : SessionLog σ π) : Deed σ π → Prop
  | .perform _ (.load accepted) => accepted.tree.HasFixedTargets
  | .perform _ _ => True
  | .resetSessions => ∀ key, (log.site.runner.runs.remoteRun key).session = false

/-- All of a list of deeds leave remote nodes the sessions that they take for granted. -/
def SparesAll : SessionLog σ π → List (Deed σ π) → Prop
  | _, [] => True
  | log, deed :: rest =>
    log.Spares deed ∧ ∀ next, log.step deed = .ok next → next.SparesAll rest

variable {log after : SessionLog σ π} {deed : Deed σ π} {bound : Prop}

theorem orderly_step (orderly : log.site.runner.Orderly) (stepped : log.step deed = .ok after) :
    after.site.runner.Orderly := by
  cases deed with
  | perform now operation =>
    simp only [step, map_eq_ok] at stepped
    rcases stepped with ⟨site, performed, same⟩
    have kept := Site.orderly_perform orderly now operation
    rw [performed] at kept
    cases operation <;> cases same <;> exact kept
  | resetSessions =>
    cases stepped
    exact orderly.congr (.refl _) rfl (.of_calls rfl rfl) rfl

theorem sessioned_step (orderly : log.site.runner.Orderly)
    (sessioned : log.site.runner.Sessioned bound log.origin)
    (stepped : log.step deed = .ok after) (spares : bound → log.Spares deed) :
    after.site.runner.Sessioned bound after.origin := by
  cases deed with
  | perform now operation =>
    simp only [step, map_eq_ok] at stepped
    rcases stepped with ⟨site, performed, same⟩
    by_cases loads : ∃ accepted, operation = .load accepted
    · rcases loads with ⟨accepted, rfl⟩
      cases same
      cases performed
      exact Runner.sessioned_load spares
    · rw [not_exists] at loads
      have kept := Site.sessioned_perform orderly sessioned performed loads
      split at same
      · exact absurd rfl (loads _)
      · cases same
        exact kept
  | resetSessions =>
    cases stepped
    have logged :
        log.site.runner.client.resetSessions.Logged bound log.site.runner.client.journal :=
      Client.logged_resetSessions _
    refine ⟨logged, sessioned.fixed, fun tree loaded => ⟨logged, ?_⟩⟩
    intro isBound key node operation other remote taken
    have untaken := spares isBound key
    rw [show (log.site.runner.runs.remoteRun key).session = true from taken] at untaken
    cases untaken

/-- Nodes take the sessions that they have for granted at the end of every list of deeds that leave
them their sessions. -/
theorem sessioned_follow {deeds : List (Deed σ π)} (orderly : log.site.runner.Orderly)
    (sessioned : log.site.runner.Sessioned bound log.origin)
    (followed : log.follow deeds = .ok after) (spares : bound → log.SparesAll deeds) :
    after.site.runner.Sessioned bound after.origin := by
  induction deeds generalizing log with
  | nil =>
    cases followed
    exact sessioned
  | cons deed rest ih =>
    simp only [follow, List.foldlM_cons, bind_eq_ok] at followed
    rcases followed with ⟨middle, stepped, followed⟩
    refine ih (orderly_step orderly stepped) ?_ followed fun isBound =>
      (spares isBound).2 middle stepped
    exact sessioned_step orderly sessioned stepped fun isBound => (spares isBound).1

/-- Since the sessions were reset last, none was opened twice for a service and a host. If nodes
were left the sessions that they take for granted, every request to a service was made after a
session with this service was opened on the host of the request. -/
theorem session_precedes_request (config : MissionConfig) (provider : π)
    (deeds : List (Deed σ π)) :
    match (start config provider : SessionLog σ π).follow deeds with
    | .error _ => True
    | .ok log => ∃ recent, log.site.runner.client.journal = recent ++ log.origin ∧
      (∀ newer older service host, recent = newer ++ .opened service host true :: older →
        .opened service host true ∉ older) ∧
      ((start config provider : SessionLog σ π).SparesAll deeds →
        ∀ newer older service call request,
          recent = newer ++ .started service call request :: older →
            .opened service request.host true ∈ older) := by
  cases followed : (start config provider : SessionLog σ π).follow deeds with
  | error cause => trivial
  | ok log =>
    have sessioned := sessioned_follow (Runner.orderly_create config)
      (Runner.sessioned_create config) followed id
    rcases sessioned.logged with ⟨recent, logs⟩
    have once := logs.once
    rw [logs.sessions] at once
    exact ⟨recent, logs.journal, fun _ _ _ _ => not_mem_older_of_nodup once, logs.first⟩

/-- An arm is asked for, on the robot that a variable names. -/
def errand : MissionSource :=
  ⟨[⟨"main", [], .node "RemoteGrpc" none
    [⟨.input, "service", .constant (.string "arm")⟩, ⟨.input, "host", .path "robot"⟩] []⟩]⟩

set_option maxRecDepth 100000 in
def errandTree : AcceptedTree where
  source := errand
  tree := (Tree.ofSource errand).toOption.getD default
  accepted := by cbv

/-- After a request to one robot is refused, another robot is named. -/
def detour : List (Deed ScriptedService LeaseRegistry) :=
  [.perform .zero (.load errandTree),
    .perform .zero (.register "arm" (.ofScript ⟨[], [some "busy"], [], []⟩)),
    .perform .zero (.define "robot" (.string "north")), .perform .zero .play,
    .perform .zero (.tick default), .perform .zero (.write "robot" (.string "south")),
    .perform .zero (.tick default)]

def afterDetour : SessionLog ScriptedService LeaseRegistry :=
  ((start .standard .empty).follow detour).toOption.getD (start .standard .empty)

/-- The sessions are reset after a request was refused. -/
def setback : List (Deed ScriptedService LeaseRegistry) :=
  [.perform .zero (.load Site.journeyTree),
    .perform .zero (.register "graph-nav" (.ofScript ⟨[], [some "busy"], [], []⟩)),
    .perform .zero .play, .perform .zero (.tick default), .resetSessions,
    .perform .zero (.tick default)]

def afterSetback : SessionLog ScriptedService LeaseRegistry :=
  ((start .standard .empty).follow setback).toOption.getD (start .standard .empty)

set_option maxRecDepth 100000 in
theorem follow_detour : (start .standard .empty).follow detour = .ok afterDetour := by cbv

set_option maxRecDepth 100000 in
theorem follow_setback : (start .standard .empty).follow setback = .ok afterSetback := by cbv

set_option maxRecDepth 100000 in
theorem journal_afterDetour : afterDetour.origin = [] ∧
    afterDetour.site.runner.client.journal =
      [.polled "arm" 1, .started "arm" (some 1) ⟨.grpc, "arm", "south", "RemoteGrpc", .ofMembers []⟩,
        .started "arm" none ⟨.grpc, "arm", "north", "RemoteGrpc", .ofMembers []⟩,
        .opened "arm" "north" true] := ⟨by cbv, by cbv⟩

set_option maxRecDepth 100000 in
theorem journal_afterSetback : ∃ request, request.host = "" ∧
    afterSetback.site.runner.client.journal =
      [.polled "graph-nav" 1, .started "graph-nav" (some 1) request] ++ afterSetback.origin :=
  ⟨⟨.navigateRoute, "graph-nav", "", "NavigateRoute",
    .ofMembers [("waypoint_ids", .string "hall,dock")]⟩, rfl, by cbv⟩

/-- A request is made without a session for its host, when a node that was refused is sent to another
host, and when the sessions are reset before it tries again. -/
theorem requests_without_session :
    ((start .standard .empty).follow detour = .ok afterDetour ∧
      ∃ newer older call request, request.host = "south" ∧
        afterDetour.site.runner.client.journal =
          (newer ++ .started "arm" call request :: older) ++ afterDetour.origin ∧
        .opened "arm" request.host true ∉ older) ∧
    (start .standard .empty).follow setback = .ok afterSetback ∧
      ∃ newer older call request, afterSetback.site.runner.client.journal =
          (newer ++ .started "graph-nav" call request :: older) ++ afterSetback.origin ∧
        .opened "graph-nav" request.host true ∉ older := by
  refine ⟨⟨follow_detour, [.polled "arm" 1],
    [.started "arm" none ⟨.grpc, "arm", "north", "RemoteGrpc", .ofMembers []⟩,
      .opened "arm" "north" true], some 1,
    ⟨.grpc, "arm", "south", "RemoteGrpc", .ofMembers []⟩, rfl, ?_, by simp⟩, follow_setback, ?_⟩
  · rw [journal_afterDetour.1, journal_afterDetour.2, List.append_nil]
    rfl
  · rcases journal_afterSetback with ⟨request, -, journal⟩
    exact ⟨[.polled "graph-nav" 1], [], some 1, request, journal, by simp⟩

/-- A request is refused, and the mission is stopped before it is made again. -/
def delivery : List (Deed ScriptedService LeaseRegistry) :=
  [.perform .zero (.load Site.journeyTree),
    .perform .zero (.register "graph-nav" (.ofScript ⟨[], [some "busy"], [], []⟩)),
    .perform .zero .play, .perform .zero (.tick default), .perform .zero .stop,
    .perform .zero .play, .perform .zero (.tick default)]

def afterDelivery : SessionLog ScriptedService LeaseRegistry :=
  ((start .standard .empty).follow delivery).toOption.getD (start .standard .empty)

set_option maxRecDepth 100000 in
theorem follow_delivery : (start .standard .empty).follow delivery = .ok afterDelivery := by cbv

set_option maxRecDepth 100000 in
theorem hasFixedTargets_journeyTree : Site.journeyTree.tree.HasFixedTargets := by
  have plain : Site.journeyTree.tree.nodes.all (fun node => node.overrides.isEmpty) = true := by cbv
  intro index node operation found kind change listed
  rw [Array.all_eq_true'] at plain
  have none := plain node (Array.mem_of_getElem? found)
  rw [List.isEmpty_iff] at none
  rw [none] at listed
  cases listed

/-- Both requests of the delivery are made after a session was opened for them. -/
theorem delivery_with_session :
    (start .standard .empty : SessionLog ScriptedService LeaseRegistry).SparesAll delivery ∧
      ∃ recent, afterDelivery.site.runner.client.journal = recent ++ afterDelivery.origin ∧
        ∀ newer older service call request,
          recent = newer ++ .started service call request :: older →
            .opened service request.host true ∈ older := by
  have spares : (start .standard .empty : SessionLog ScriptedService LeaseRegistry).SparesAll
      delivery :=
    ⟨hasFixedTargets_journeyTree, fun _ _ => ⟨trivial, fun _ _ => ⟨trivial, fun _ _ => ⟨trivial,
      fun _ _ => ⟨trivial, fun _ _ => ⟨trivial, fun _ _ => ⟨trivial, fun _ _ => trivial⟩⟩⟩⟩⟩⟩⟩
  have precedes := session_precedes_request MissionConfig.standard LeaseRegistry.empty delivery
  rw [follow_delivery] at precedes
  rcases precedes with ⟨recent, journal, -, sessions⟩
  exact ⟨spares, recent, journal, sessions spares⟩

end SessionLog

end BehaviorTree
