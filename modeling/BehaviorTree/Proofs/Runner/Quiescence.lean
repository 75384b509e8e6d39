import BehaviorTree.Proofs.Runner.Leases
import BehaviorTree.Proofs.Runner.Retries

/-!
# Quiescence outside of play

A runner that is idle, stopped or finished has nothing outside of itself: no request is waited for
and no lease is held. Before a mission is played and after it is over there is nothing inside either,
that is, no run state, and no scope but the root. Only a mission that is stopped keeps run states
and scopes, because it can be played on.

Run states are looked at first, since they own the requests and the scopes of an orderly runner.
-/

namespace BehaviorTree

variable {σ π : Type}

namespace Runner

variable {runner after : Runner σ}

/-- The mission was not played, was stopped or is over. -/
def AtRest (runner : Runner σ) : Prop :=
  runner.state = .idle ∨ runner.state = .stopped ∨ runner.state = .finished

/-- The mission has not begun or is over. -/
def OutsideMission (runner : Runner σ) : Prop := runner.state = .idle ∨ runner.state = .finished

/-- What the leases and run states of a runner have to be for what it is doing. -/
structure Settled (runner : Runner σ) : Prop where
  leases : runner.AtRest → runner.leases.resources = []
  calls : runner.AtRest → ∀ key, runner.runs.callAt key = none
  blank : runner.OutsideMission → runner.runs.states.entries = []

theorem OutsideMission.atRest (outside : runner.OutsideMission) : runner.AtRest :=
  outside.elim Or.inl fun finished => Or.inr (Or.inr finished)

theorem not_atRest_of_playing (playing : runner.state = .playing) : ¬ runner.AtRest := by
  simp [AtRest, playing]

theorem settled_of_not_atRest (busy : ¬ runner.AtRest) : runner.Settled :=
  ⟨fun rest => absurd rest busy, fun rest => absurd rest busy,
    fun outside => absurd outside.atRest busy⟩

/-- A runner with neither leases nor run states is settled, whatever it is doing. -/
theorem settled_of_empty (leases : runner.leases.resources = [])
    (runs : runner.runs.states.entries = []) : runner.Settled := by
  refine ⟨fun _ => leases, fun _ key => ?_, fun _ => runs⟩
  simp [RunStore.callAt, RunStore.get?, Table.get?, runs]

theorem Settled.congr (settled : runner.Settled) (state : after.state = runner.state)
    (leases : after.leases = runner.leases) (runs : after.runs = runner.runs) : after.Settled := by
  rcases settled with ⟨unleased, silent, blank⟩
  simp only [AtRest, OutsideMission] at unleased silent blank
  constructor <;> simp only [AtRest, OutsideMission, state, leases, runs] <;> assumption

theorem settled_create (config : MissionConfig) :
    (create config (.empty : Client σ)).Settled :=
  settled_of_empty rfl rfl

/-- Run states of which none is active are none at all. -/
theorem entries_eq_nil_of_inactive {runs : RunStore}
    (inactive : ∀ key, runs.isActive key = false) : runs.states.entries = [] := by
  rw [List.eq_nil_iff_forall_not_mem]
  rintro ⟨key, state⟩ listed
  have remembered : runs.get? key = some state := Table.mem_entries_iff.1 listed
  rw [RunStore.isActive_eq_false_iff.1 (inactive key)] at remembered
  cases remembered

variable [RemoteService σ]

theorem Settled.reset (settled : runner.Settled) : runner.reset.Settled := by
  rcases reset_keeps runner with ⟨leases, -, state⟩
  refine ⟨?_, ?_, ?_⟩
  · simp only [AtRest, state, leases]
    exact settled.leases
  · intro _ key
    rw [runs_reset]
    rfl
  · intro _
    rw [runs_reset]
    rfl

omit [RemoteService σ] in
theorem Settled.pause (settled : runner.Settled) : runner.pause.Settled := by
  simp only [Runner.pause]
  split
  · exact settled_of_not_atRest (by simp [AtRest])
  · exact settled

/-- A finished mission that is restarted is stopped, and has no leases that it could keep. -/
theorem Settled.restart (settled : runner.Settled) (now : Duration) :
    (runner.restart now).Settled := by
  have reset := settled.reset
  simp only [Runner.restart]
  split
  · rename_i finished
    exact settled_of_empty (reset.leases (Or.inr (Or.inr finished))) (reset.blank (Or.inr finished))
  · rename_i playing
    exact settled_of_not_atRest (not_atRest_of_playing playing)
  · exact reset

variable [LeaseProvider π] {provider later : π} {now : Duration} {wallClock : WallClock}

theorem resources_stop : (runner.stop provider).1.leases.resources = [] := by
  have released : (runner.stop provider).1.leases = (runner.leases.releaseAll provider).1 :=
    congrArg Prod.fst stop_leases
  rw [released]
  rfl

theorem state_stop : (runner.stop provider).1.state =
    if runner.state = .playing ∨ runner.state = .paused then .stopped else runner.state := by
  cases doing : runner.state <;> simp [stop, dropLeases, dropCalls, doing]

theorem Settled.stop (settled : runner.Settled) : (runner.stop provider).1.Settled := by
  refine ⟨fun _ => resources_stop, fun _ key => ?_, fun outside => ?_⟩
  · rw [stop_runs.1]
    exact RunStore.callAt_detachCalls key
  · have before : runner.OutsideMission := by
      simp only [OutsideMission, state_stop] at outside
      split at outside
      · simp at outside
      · exact outside
    rw [stop_runs.1]
    simp [RunStore.detachCalls, Table.mapValues, settled.blank before]

theorem settled_load {tree : Tree} : (runner.load provider tree).1.Settled := by
  refine settled_of_empty ?_ ?_
  · have kept := (reset_keeps (runner.stop provider).1).1
    change (runner.stop provider).1.reset.leases.resources = []
    rw [kept]
    exact resources_stop
  · rw [load_runs.1]
    rfl

/-- A mission that is played is under way. -/
theorem state_play (played : runner.play now provider = (.ok after, later)) :
    after.state = .playing := by
  cases played_of_play played with
  | already playing => exact playing
  | started => rfl

omit [LeaseProvider π] in
/-- A mission whose tree is not running leaves no run state behind. -/
theorem Orderly.entries_engineTick (orderly : runner.Orderly) {tree : Tree}
    (loaded : runner.tree = some tree) {status : Status} {context : Context σ}
    (ticked : runner.engineTick tree now wallClock = (.ok status, context))
    (isOver : status ≠ .running) : context.runs.states.entries = [] := by
  have wellFormed : (runner.setting tree now wallClock).tree.WellFormed :=
    (orderly.loaded tree loaded).wellFormed
  have ended := (orderly.ends_engineTick loaded now wallClock).and
    (ends_tickWithin_cleared wellFormed tree.depthLimit tree.main runner.context)
  unfold Ends at ended
  rw [show outcome (BehaviorTree.tick (runner.setting tree now wallClock) tree.main)
    runner.context = (.ok status, context) from ticked] at ended
  rcases ended with ⟨⟨-, active⟩, cleared⟩
  refine entries_eq_nil_of_inactive fun key => ?_
  by_contra isActive
  rw [Bool.not_eq_false] at isActive
  have inactive := cleared isOver key (active key isActive).1.reaches
  rw [isActive] at inactive
  cases inactive

/-- A mission that is over has given its leases back, and one that the engine cannot run is
stopped. -/
theorem Settled.tick (settled : runner.Settled) (orderly : runner.Orderly) (now : Duration)
    (wallClock : WallClock) (provider : π) :
    (runner.tick now wallClock provider).2.1.Settled := by
  rcases runner.tick_evaluates_cases now wallClock provider with
    ⟨-, refused⟩ | ⟨playing, -, cause, refused⟩ |
    ⟨tree, leases, later, ⟨playing, loaded, -⟩, evaluated⟩
  · rw [refused]
    exact settled
  · rw [refused]
    exact settled_of_not_atRest (not_atRest_of_playing playing)
  · rw [evaluated]
    rcases ticked : runner.engineTick tree now wallClock with ⟨failure | status, context⟩
    · have absorbed : ({ runner with leases := leases }.absorb context).Settled :=
        settled_of_not_atRest (not_atRest_of_playing playing)
      exact absorbed.stop
    · simp only [conclude]
      split
      · exact settled_of_not_atRest (not_atRest_of_playing playing)
      · rename_i isOver
        exact settled_of_empty rfl (orderly.entries_engineTick loaded ticked isOver)

omit [RemoteService σ] in
theorem Orderly.outstanding_eq_zero (orderly : runner.Orderly)
    (silent : ∀ key, runner.runs.callAt key = none) : runner.client.outstanding = 0 := by
  refine Client.outstanding_eq_zero fun handle holds => ?_
  rcases (orderly.accounted.calls.used_iff handle).1 holds with ⟨key, held⟩
  rw [silent key] at held
  cases held

omit [RemoteService σ] in
/-- Without run states there is no scope but the root. -/
theorem Orderly.isAlive_iff_root (orderly : runner.Orderly)
    (blank : runner.runs.states.entries = []) (id : ScopeId) :
    runner.blackboard.isAlive id = true ↔ id = .root := by
  constructor
  · intro alive
    by_contra nested
    rcases (orderly.accounted.scopes.used_iff id).1 ⟨alive, nested⟩ with ⟨key, held⟩
    simp [RunStore.scopeAt, RunStore.get?, Table.get?, blank] at held
  · rintro rfl
    exact Blackboard.isAlive_iff.2 ⟨none, orderly.accounted.arena.parent?_root⟩

end Runner

namespace Site

variable [RemoteService σ] [LeaseProvider π] {site after : Site σ π} {now : Duration}

theorem settled_perform (orderly : site.runner.Orderly) (settled : site.runner.Settled)
    {operation : Operation σ π} (performed : site.perform now operation = .ok after) :
    after.runner.Settled := by
  cases operation with
  | register name service =>
    cases performed
    exact settled.congr rfl rfl rfl
  | load accepted =>
    cases performed
    exact Runner.settled_load
  | define name value =>
    rcases perform_define_eq_ok performed with ⟨blackboard, rfl⟩
    exact settled.congr rfl rfl rfl
  | write name value =>
    rcases perform_write_eq_ok performed with ⟨blackboard, rfl⟩
    exact settled.congr rfl rfl rfl
  | play =>
    simp only [perform] at performed
    split at performed
    · rename_i played
      cases performed
      exact Runner.settled_of_not_atRest (Runner.not_atRest_of_playing (Runner.state_play played))
    · cases performed
      exact settled
  | pause =>
    cases performed
    exact settled.pause
  | stop =>
    cases performed
    exact settled.stop
  | restart =>
    cases performed
    exact settled.restart now
  | tick wallClock =>
    have ticked := settled.tick orderly now wallClock site.provider
    simp only [perform] at performed
    split at performed
    · cases performed
    · rename_i same
      cases performed
      rw [same] at ticked
      exact ticked
  | compete change =>
    cases performed
    exact settled

/-- A runner that is settled and orderly stays so, as long as no number is too large. -/
theorem settled_follow {history : History σ π} (orderly : site.runner.Orderly)
    (settled : site.runner.Settled) (followed : site.follow history = .ok after) :
    after.runner.Settled ∧ after.runner.Orderly := by
  induction history generalizing site with
  | nil =>
    cases followed
    exact ⟨settled, orderly⟩
  | cons entry rest ih =>
    rcases follow_cons_eq_ok.1 followed with ⟨middle, performed, followed⟩
    have step := orderly_perform orderly entry.1 entry.2
    rw [performed] at step
    exact ih step (settled_perform orderly settled performed) followed

/-- Ticking a mission until it is over is a history. -/
theorem exists_history_tickUntilOver {runner last : Runner σ} {provider later : π}
    {wallClock : WallClock} {limit : Nat} {result : Except (Failure MissionError) Status}
    (calm : ∀ cause, result ≠ .error (.crash cause))
    (ticked : runner.tickUntilOver now wallClock limit provider = (result, last, later)) :
    ∃ history : History σ π, follow ⟨runner, provider⟩ history = .ok ⟨last, later⟩ := by
  induction limit generalizing runner provider with
  | zero =>
    cases ticked
    exact ⟨[], rfl⟩
  | succ limit ih =>
    simp only [Runner.tickUntilOver] at ticked
    split at ticked
    · rename_i middle between step
      rcases ih ticked with ⟨rest, followed⟩
      refine ⟨(now, .tick wallClock) :: rest, follow_cons_eq_ok.2 ⟨⟨middle, between⟩, ?_, followed⟩⟩
      simp [perform, step]
    · refine ⟨[(now, .tick wallClock)], follow_cons_eq_ok.2 ⟨⟨last, later⟩, ?_, rfl⟩⟩
      simp only [perform, ticked]

/-- To run a mission is a history, too, so what holds after every history holds after a run. -/
theorem exists_history_run {runner last : Runner σ} {provider later : π} {wallClock : WallClock}
    {limit : Nat} {result : Except (Failure MissionError) Status}
    (calm : ∀ cause, result ≠ .error (.crash cause))
    (ran : runner.run now wallClock limit provider = (result, last, later)) :
    ∃ history : History σ π, follow ⟨runner, provider⟩ history = .ok ⟨last, later⟩ := by
  simp only [Runner.run] at ran
  split at ran
  · rename_i cause between refused
    cases ran
    refine ⟨[(now, .play)], follow_cons_eq_ok.2 ⟨⟨runner, later⟩, ?_, rfl⟩⟩
    simp [perform, refused]
  · rename_i middle between played
    rcases exists_history_tickUntilOver calm ran with ⟨rest, followed⟩
    refine ⟨(now, .play) :: rest, follow_cons_eq_ok.2 ⟨⟨middle, between⟩, ?_, followed⟩⟩
    simp [perform, played]

/-- A runner that is idle, stopped or finished waits for no request and holds no lease. When it is
idle or finished it also has no run state, and the root is the only scope. A history only ends
early if a number is too large. -/
theorem quiescent_outside_play (config : MissionConfig) (provider : π) (history : History σ π) :
    match (start config provider : Site σ π).follow history with
    | .error cause => cause = .durationOverflow ∨ cause = .handleOverflow
    | .ok site =>
      (site.runner.state = .idle ∨ site.runner.state = .stopped ∨ site.runner.state = .finished →
        site.runner.client.outstanding = 0 ∧ site.runner.leases.resources = []) ∧
      (site.runner.state = .idle ∨ site.runner.state = .finished →
        site.runner.runs.size = 0 ∧
          ∀ id, site.runner.blackboard.isAlive id = true ↔ id = .root) := by
  cases followed : (start config provider : Site σ π).follow history with
  | error cause =>
    have overflow := orderly_history (σ := σ) config provider history
    rw [followed] at overflow
    exact overflow
  | ok site =>
    rcases settled_follow (Runner.orderly_create config) (Runner.settled_create config)
      followed with
      ⟨settled, orderly⟩
    refine ⟨fun atRest => ⟨?_, settled.leases atRest⟩, fun outside => ⟨?_, ?_⟩⟩
    · exact orderly.outstanding_eq_zero (settled.calls atRest)
    · simp [RunStore.size, Table.size, settled.blank outside]
    · exact orderly.isAlive_iff_root (settled.blank outside)

end Site

end BehaviorTree
