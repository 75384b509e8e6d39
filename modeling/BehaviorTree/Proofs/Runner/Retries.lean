import BehaviorTree.Proofs.Engine.RemoteHistory
import BehaviorTree.Proofs.Runner.LeasedTicks

/-!
# Retries of remote nodes

A node that waits for a remote service may be stopped and played on, or paused and played on, any
number of times between its turns. Stopping gives its request up, which then counts neither as a
failure nor as a request, and pausing changes nothing. So a node gives up exactly when the failures
of its activation are as many as the settings allow.
-/

namespace BehaviorTree

variable {σ π : Type}

namespace RunStore

variable {runs : RunStore} {key : RunKey}

/-- What a remote node remembers is detached with its run state. -/
theorem remoteRun_detachCalls (runs : RunStore) (key : RunKey) :
    (RunState.remote (runs.remoteRun key)).detach = .remote (runs.detachCalls.2.remoteRun key) := by
  simp only [remoteRun, get?_detachCalls]
  cases runs.get? key with
  | none => rfl
  | some state =>
    cases state with
    | remote run => cases held : run.call <;> simp [RunState.detach, held]
    | _ => rfl

end RunStore

namespace Runner

variable [RemoteService σ] {runner after : Runner σ} {provider later : π} {now : Duration}

theorem config_reset (runner : Runner σ) : runner.reset.config = runner.config := by rw [reset_eq]

theorem runs_reset (runner : Runner σ) : runner.reset.runs = .empty := by rw [reset_eq]

variable [LeaseProvider π]

theorem stop_runs : (runner.stop provider).1.runs = runner.runs.detachCalls.2 ∧
    (runner.stop provider).1.config = runner.config := by
  simp only [stop]
  split <;> exact ⟨rfl, rfl⟩

omit [LeaseProvider π] in
theorem restart_runs : (runner.restart now).runs = .empty ∧
    (runner.restart now).config = runner.config := by
  simp only [restart]
  split <;> exact ⟨runs_reset runner, config_reset runner⟩

theorem load_runs {tree : Tree} : (runner.load provider tree).1.runs = .empty ∧
    (runner.load provider tree).1.config = runner.config :=
  ⟨runs_reset (runner.stop provider).1, (config_reset _).trans stop_runs.2⟩

omit [LeaseProvider π] in
/-- A mission is played on with all run states, but one that is finished is started over. -/
theorem prepare_runs (resumes : runner.config.restartOnPlay = false) :
    runner.prepare.runs = (if runner.state = .finished then .empty else runner.runs) ∧
      runner.prepare.config = runner.config := by
  simp only [prepare]
  split
  · rename_i finished
    simp [finished, runs_reset, config_reset]
  · rename_i paused
    simp [resumes, paused]
  · rename_i stopped
    simp [resumes, stopped]
  · rename_i idle
    simp [idle]
  · rename_i playing
    simp [playing]

theorem play_runs (resumes : runner.config.restartOnPlay = false)
    (played : runner.play now provider = (.ok after, later)) :
    after.runs = (if runner.state = .finished then .empty else runner.runs) ∧
      after.config = runner.config := by
  cases played_of_play played with
  | already playing => simp [playing]
  | @started tree leases =>
    have leased : { runner with leases := leases }.config.restartOnPlay = false := resumes
    exact prepare_runs leased

omit [RemoteService σ] [LeaseProvider π] in
theorem define_runs {name : String} {value : Value}
    (defined : runner.define now name value = .ok after) :
    after.runs = runner.runs ∧ after.config = runner.config := by
  simp only [define, map_eq_ok] at defined
  rcases defined with ⟨blackboard, -, rfl⟩
  exact ⟨rfl, rfl⟩

omit [RemoteService σ] [LeaseProvider π] in
theorem write_runs {name : String} {value : Value}
    (written : runner.write now name value = .ok after) :
    after.runs = runner.runs ∧ after.config = runner.config := by
  simp only [write, map_eq_ok] at written
  rcases written with ⟨blackboard, -, rfl⟩
  exact ⟨rfl, rfl⟩

omit [RemoteService σ] [LeaseProvider π] in
theorem pause_runs : runner.pause.runs = runner.runs ∧ runner.pause.config = runner.config := by
  simp only [pause]
  split <;> exact ⟨rfl, rfl⟩

variable {wallClock : WallClock} {status : Status}
  {result : Except (Failure MissionError) Status}

omit [LeaseProvider π] in
/-- A tick that has a status leaves the run states that the engine leaves. -/
theorem Ticked.runs_of_ok (ticked : runner.Ticked now wallClock result after)
    (ran : result = .ok status) :
    ∃ tree, runner.tree = some tree ∧ (runner.engineTick tree now wallClock).1 = .ok status ∧
      after.runs = (runner.engineTick tree now wallClock).2.runs ∧ after.runs.Fits tree ∧
      after.config = runner.config := by
  cases ticked with
  | refused leases cause => cases ran
  | crashed loaded overflow => cases ran
  | @ran tree _ _ _ leases loaded ticked advances active goesOn =>
    cases ran
    exact ⟨tree, loaded, ticked ▸ rfl, ticked ▸ rfl, advances.sound.fits, rfl⟩

omit [LeaseProvider π] in
theorem Ticked.runs_of_error {error : MissionError}
    (ticked : runner.Ticked now wallClock result after) (refused : result = .error (.error error)) :
    after.runs = runner.runs ∧ after.config = runner.config := by
  cases ticked with
  | refused leases cause => exact ⟨rfl, rfl⟩
  | crashed loaded overflow => cases refused
  | ran leases isTree ticked advances active goesOn => cases refused

end Runner

namespace Site

variable [RemoteService σ] [LeaseProvider π]

/-- What an operation brings to the node `key`, if it is a remote node. Neither stopping nor pausing
ends its activation, and neither does playing on. -/
inductive Brings (key : RunKey) (site : Site σ π) (now : Duration) :
    Operation σ π → RemoteLog → Prop where
  | registered {name : String} {service : σ} : Brings key site now (.register name service) []
  | defined {name : String} {value : Value} : Brings key site now (.define name value) []
  | wrote {name : String} {value : Value} : Brings key site now (.write name value) []
  | paused : Brings key site now .pause []
  | competed {change : π → π} : Brings key site now (.compete change) []
  | stopped : Brings key site now .stop [.stopped]
  | loaded {accepted : AcceptedTree} : Brings key site now (.load accepted) [.ended]
  | restarted : Brings key site now .restart [.ended]
  | playedOn {after : Runner σ} {later : π} (goesOn : site.runner.state ≠ .finished)
      (played : site.runner.play now site.provider = (.ok after, later)) :
      Brings key site now .play []
  /-- A finished mission that is played starts over. -/
  | playedAgain {after : Runner σ} {later : π} (finished : site.runner.state = .finished)
      (played : site.runner.play now site.provider = (.ok after, later)) :
      Brings key site now .play [.ended]
  | notPlayed {cause : MissionError} {later : π}
      (refused : site.runner.play now site.provider = (.error cause, later)) :
      Brings key site now .play []
  | ticked {wallClock : WallClock} {tree : Tree} {node : Node} {operation : RemoteOperation}
      {status : Status} {log : RemoteLog}
      (ran : (site.runner.tick now wallClock site.provider).1 = .ok status)
      (loaded : site.runner.tree = some tree) (found : tree.node? key.node = some node)
      (kind : node.kind = .remote operation)
      (undergoes : Undergoes (site.runner.setting tree now wallClock) key node site.runner.context
        log (site.runner.engineTick tree now wallClock).2) :
      Brings key site now (.tick wallClock) log
  /-- The node is not a remote one in the tree that is ticked. -/
  | tickedOther {wallClock : WallClock} {tree : Tree} {status : Status}
      (ran : (site.runner.tick now wallClock site.provider).1 = .ok status)
      (loaded : site.runner.tree = some tree)
      (other : ∀ node operation, tree.node? key.node = some node →
        node.kind ≠ .remote operation) :
      Brings key site now (.tick wallClock) [.ended]
  | notTicked {wallClock : WallClock} {error : MissionError}
      (refused : (site.runner.tick now wallClock site.provider).1 = .error (.error error)) :
      Brings key site now (.tick wallClock) []

/-- What a history brings to the node `key`. -/
inductive Logs (key : RunKey) (site : Site σ π) :
    History σ π → RemoteLog → Site σ π → Prop where
  | nothing : Logs key site [] [] site
  | operated {history : History σ π} {log brought : RemoteLog} {middle after : Site σ π}
      {now : Duration} {operation : Operation σ π} (before : Logs key site history log middle)
      (performed : middle.perform now operation = .ok after)
      (brings : middle.Brings key now operation brought) :
      Logs key site (history ++ [(now, operation)]) (brought ++ log) after

variable {site after : Site σ π} {key : RunKey} {now : Duration} {operation : Operation σ π}
  {log brought : RemoteLog} {history : History σ π}

theorem perform_tick_eq_ok {wallClock : WallClock}
    (performed : site.perform now (.tick wallClock) = .ok after) :
    after.runner = (site.runner.tick now wallClock site.provider).2.1 ∧
      ∀ cause, (site.runner.tick now wallClock site.provider).1 ≠ .error (.crash cause) := by
  dsimp only [perform] at performed
  split at performed
  · cases performed
  · rename_i result runner provider notCrashed outcome
    cases performed
    simp only [outcome, true_and]
    exact notCrashed

/-- The accounts of a node are kept whatever the runner is told to do. -/
theorem accounted_perform (orderly : site.runner.Orderly)
    (resumes : site.runner.config.restartOnPlay = false)
    (performed : site.perform now operation = .ok after)
    (brings : site.Brings key now operation brought)
    (accounted : (site.runner.runs.remoteRun key).Accounted site.runner.config.retry log) :
    (after.runner.runs.remoteRun key).Accounted site.runner.config.retry (brought ++ log) ∧
      after.runner.config = site.runner.config := by
  have kept : ∀ {runner : Runner σ}, runner.runs = site.runner.runs ∧
      runner.config = site.runner.config →
      (runner.runs.remoteRun key).Accounted site.runner.config.retry log ∧
        runner.config = site.runner.config := by
    rintro runner ⟨runs, config⟩
    simp only [runs]
    exact ⟨accounted, config⟩
  have afresh : ∀ {runner : Runner σ}, runner.runs = .empty ∧
      runner.config = site.runner.config →
      (runner.runs.remoteRun key).Accounted site.runner.config.retry (.ended :: log) ∧
        runner.config = site.runner.config := by
    rintro runner ⟨runs, config⟩
    simp only [runs]
    exact ⟨accounted.ended, config⟩
  have cancelled : ∀ {runner : Runner σ}, runner.runs = site.runner.runs.detachCalls.2 ∧
      runner.config = site.runner.config →
      (runner.runs.remoteRun key).Accounted site.runner.config.retry (.stopped :: log) ∧
        runner.config = site.runner.config := by
    rintro runner ⟨runs, config⟩
    simp only [runs]
    exact ⟨accounted.stopped (RunStore.remoteRun_detachCalls _ _), config⟩
  cases brings with
  | registered =>
    cases performed
    exact kept ⟨rfl, rfl⟩
  | defined =>
    dsimp only [perform] at performed
    split at performed
    · rename_i defined
      cases performed
      exact kept (Runner.define_runs defined)
    · cases performed
      exact kept ⟨rfl, rfl⟩
  | wrote =>
    dsimp only [perform] at performed
    split at performed
    · rename_i written
      cases performed
      exact kept (Runner.write_runs written)
    · cases performed
      exact kept ⟨rfl, rfl⟩
  | paused =>
    cases performed
    exact kept Runner.pause_runs
  | competed =>
    cases performed
    exact kept ⟨rfl, rfl⟩
  | stopped =>
    cases performed
    exact cancelled Runner.stop_runs
  | loaded =>
    cases performed
    exact afresh Runner.load_runs
  | restarted =>
    cases performed
    exact afresh Runner.restart_runs
  | playedOn goesOn played =>
    simp only [perform, played, Except.ok.injEq] at performed
    subst performed
    exact kept (by simpa only [goesOn, ↓reduceIte] using Runner.play_runs resumes played)
  | playedAgain finished played =>
    simp only [perform, played, Except.ok.injEq] at performed
    subst performed
    exact afresh (by simpa only [finished, ↓reduceIte] using Runner.play_runs resumes played)
  | notPlayed refused =>
    simp only [perform, refused, Except.ok.injEq] at performed
    subst performed
    exact kept ⟨rfl, rfl⟩
  | ticked ran loaded found kind undergoes =>
    rcases (orderly.ticked now _ site.provider).runs_of_ok ran with
      ⟨tree, isTree, -, runs, -, config⟩
    cases loaded.symm.trans isTree
    simp only [(perform_tick_eq_ok performed).1, runs]
    exact ⟨undergoes.accounted (orderly.loaded _ loaded).wellFormed found kind accounted, config⟩
  | tickedOther ran loaded other =>
    rcases (orderly.ticked now _ site.provider).runs_of_ok ran with
      ⟨tree, isTree, -, -, fits, config⟩
    cases loaded.symm.trans isTree
    simp only [(perform_tick_eq_ok performed).1, RunStore.remoteRun_of_fits fits other]
    exact ⟨accounted.ended, config⟩
  | notTicked refused =>
    simp only [(perform_tick_eq_ok performed).1]
    exact kept ((orderly.ticked now _ site.provider).runs_of_error refused)

/-- Whatever the runner is told to do brings something to the node. -/
theorem exists_brings (orderly : site.runner.Orderly)
    (performed : site.perform now operation = .ok after) (key : RunKey) :
    ∃ brought, site.Brings key now operation brought := by
  cases operation with
  | register name service => exact ⟨[], .registered⟩
  | load accepted => exact ⟨[.ended], .loaded⟩
  | define name value => exact ⟨[], .defined⟩
  | write name value => exact ⟨[], .wrote⟩
  | play =>
    rcases played : site.runner.play now site.provider with ⟨cause | runner, later⟩
    · exact ⟨[], .notPlayed played⟩
    · by_cases finished : site.runner.state = .finished
      · exact ⟨[.ended], .playedAgain finished played⟩
      · exact ⟨[], .playedOn finished played⟩
  | pause => exact ⟨[], .paused⟩
  | stop => exact ⟨[.stopped], .stopped⟩
  | restart => exact ⟨[.ended], .restarted⟩
  | tick wallClock =>
    rcases perform_tick_eq_ok performed with ⟨-, calm⟩
    have ticked := orderly.ticked now wallClock site.provider
    cases ran : (site.runner.tick now wallClock site.provider).1 with
    | error failure =>
      cases failure with
      | error error => exact ⟨[], .notTicked ran⟩
      | crash cause => exact absurd ran (calm cause)
    | ok status =>
      rcases ticked.runs_of_ok ran with ⟨tree, loaded, ended, -⟩
      by_cases remote : ∃ node operation, tree.node? key.node = some node ∧
          node.kind = .remote operation
      · rcases remote with ⟨node, remote, found, kind⟩
        have governs := orderly.loaded tree loaded
        have undergone : Ends
            (BehaviorTree.tick (site.runner.setting tree now wallClock) tree.main)
            site.runner.context
            (fun _ after => ∃ log, Undergoes (site.runner.setting tree now wallClock) key node
              site.runner.context log after) fun _ _ => True :=
          ends_tick_undergoes governs.wellFormed found kind ⟨0, tree.main⟩
            governs.wellFormed.rooted rfl governs.fits
        have same : outcome (BehaviorTree.tick (site.runner.setting tree now wallClock) tree.main)
            site.runner.context =
              (.ok status, (site.runner.engineTick tree now wallClock).2) :=
          Prod.ext ended rfl
        rcases undergone.of_eq_ok same with ⟨log, undergoes⟩
        exact ⟨log, .ticked ran loaded found kind undergoes⟩
      · refine ⟨[.ended], .tickedOther ran loaded ?_⟩
        exact fun node operation found kind => remote ⟨node, operation, found, kind⟩
  | compete change => exact ⟨[], .competed⟩

/-- At the end of a history the accounts of a node are kept. -/
theorem Logs.accounted {config : MissionConfig} (resumes : config.restartOnPlay = false)
    {provider : π} (logs : (start config provider : Site σ π).Logs key history log after) :
    after.runner.Orderly ∧ after.runner.config = config ∧
      (after.runner.runs.remoteRun key).Accounted config.retry log := by
  induction logs with
  | nothing => exact ⟨Runner.orderly_create config, rfl, RemoteRun.accounted_initial _⟩
  | @operated _ _ _ middle _ now operation _ performed brings ih =>
    rcases ih with ⟨orderly, same, accounted⟩
    have orderlyNext := orderly_perform orderly now operation
    simp only [performed] at orderlyNext
    simp only [← same] at resumes accounted ⊢
    rcases accounted_perform orderly resumes performed brings accounted with ⟨kept, config⟩
    exact ⟨orderlyNext, config, kept⟩

/-- Every turn of a remote node in a history is warranted by the activation in which it takes place:
the node gives up because its requests could not be made or took too long exactly when these are as
many as the settings allow, and because it could not poll exactly when as many polls of its request
were lost in a row. Neither depends on how often the mission was stopped, paused and played on. -/
theorem gives_up_exactly {config : MissionConfig} (resumes : config.restartOnPlay = false)
    (provider : π) (history : History σ π) (key : RunKey) :
    (∀ log after, (start config provider : Site σ π).Logs key history log after →
      log.IsExact config.retry) ∧
    ∀ after, (start config provider : Site σ π).follow history = .ok after →
      ∃ log, (start config provider : Site σ π).Logs key history log after := by
  refine ⟨fun log after logs => (logs.accounted resumes).2.2.exact, ?_⟩
  induction history using List.reverseRecOn with
  | nil =>
    rintro after ⟨⟩
    exact ⟨[], .nothing⟩
  | append_singleton history entry ih =>
    intro after followed
    simp only [follow_snoc_eq_ok] at followed
    rcases followed with ⟨middle, followed, performed⟩
    rcases ih middle followed with ⟨log, logs⟩
    rcases exists_brings (logs.accounted resumes).1 performed key with ⟨brought, brings⟩
    exact ⟨_, logs.operated performed brings⟩

/-- Three of five requests are refused, and stopping gives up the other two. -/
def errands : History ScriptedService LeaseRegistry :=
  let busy := some "busy"
  [(.zero, .load journeyTree),
    (.zero, .register "graph-nav" (.ofScript ⟨[], [busy, none, busy, none, busy], [], []⟩)),
    (.zero, .play), (.zero, .tick default), (.zero, .tick default), (.zero, .stop),
    (.zero, .play), (.zero, .tick default), (.zero, .pause), (.zero, .play),
    (.zero, .tick default), (.zero, .stop), (.zero, .play), (.zero, .tick default)]

def afterErrands : Site ScriptedService LeaseRegistry :=
  ((start .standard .empty).follow errands).toOption.getD (start .standard .empty)

set_option maxRecDepth 100000 in
theorem follow_errands : (start .standard .empty).follow errands = .ok afterErrands := by cbv

set_option maxRecDepth 100000 in
theorem reports_afterErrands : afterErrands.runner.reports.map NodeReport.error =
    [.remoteCall (.call "graph-nav" "busy") 3] := by cbv

/-- The node fails on its fifth request, which is the third one that counts. -/
theorem gives_up_after_stops : MissionConfig.standard.restartOnPlay = false ∧
    afterErrands.runner.reports.map NodeReport.error = [.remoteCall (.call "graph-nav" "busy") 3] ∧
    ∃ log, (start .standard .empty).Logs ⟨0, journeyTree.tree.main⟩ errands log afterErrands ∧
      log.IsExact MissionConfig.standard.retry := by
  have resumes : MissionConfig.standard.restartOnPlay = false := rfl
  have gives_up := gives_up_exactly resumes LeaseRegistry.empty errands
    ⟨0, journeyTree.tree.main⟩
  rcases gives_up.2 _ follow_errands with ⟨log, logs⟩
  exact ⟨resumes, reports_afterErrands, log, logs, gives_up.1 log _ logs⟩

end Site

end BehaviorTree
