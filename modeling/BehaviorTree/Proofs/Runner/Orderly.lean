import BehaviorTree.Proofs.Engine.Activity
import BehaviorTree.Proofs.Engine.Soundness
import BehaviorTree.Runner.Basic

/-!
# Orderly runners

Whatever a runner is told to do, it stays orderly: requests and scopes belong to run states, and the
run states are those that a tick of its tree left behind. Stopping takes the requests out of the run
states, which matters for nothing else, and to reset is to begin with no run states at all.
-/

namespace BehaviorTree

/-- Run states are such as ticks of a tree leave behind. -/
structure Tree.Governs (tree : Tree) (blackboard : Blackboard) (runs : RunStore) : Prop where
  wellFormed : tree.WellFormed
  fits : runs.Fits tree
  nested : Nested tree blackboard runs
  live : ∀ key, runs.isActive key = true → tree.Live runs ⟨0, tree.main⟩ key

variable {tree : Tree} {runs : RunStore} {blackboard : Blackboard}

theorem RunStore.get?_empty (key : RunKey) : RunStore.empty.get? key = none := rfl

/-- Any tree governs run states of which there are none. -/
theorem Tree.WellFormed.governs_empty (wellFormed : tree.WellFormed) (blackboard : Blackboard) :
    tree.Governs blackboard .empty := by
  refine ⟨wellFormed, ?_, ?_, ?_⟩
  · intro key state remembered
    rw [RunStore.get?_empty] at remembered
    cases remembered
  · intro key id outer stored
    rw [RunStore.scopeAt, RunStore.get?_empty] at stored
    cases stored
  · intro key active
    rw [RunStore.isActive_eq_false_iff.2 (RunStore.get?_empty key)] at active
    cases active

section Detached

theorem RunStore.get?_detachCalls (runs : RunStore) (key : RunKey) :
    runs.detachCalls.2.get? key = (runs.get? key).map RunState.detach :=
  Table.get?_mapValues _ _ _

theorem RunState.scope?_detach (state : RunState) : state.detach.scope? = state.scope? := by
  cases state with
  | remote run => cases held : run.call <;> simp [detach, held, scope?]
  | _ => rfl

theorem RunState.call?_detach (state : RunState) : state.detach.call? = none := by
  cases state with
  | remote run => cases held : run.call <;> simp [detach, held, call?]
  | _ => rfl

theorem RunState.fits_detach {state : RunState} {node : Node} (fits : state.Fits node) :
    state.detach.Fits node := by
  cases state with
  | remote run => cases held : run.call <;> simpa [detach, held, Fits] using fits
  | _ => exact fits

theorem RunStore.scopeAt_detachCalls (key : RunKey) :
    runs.detachCalls.2.scopeAt key = runs.scopeAt key := by
  unfold scopeAt
  rw [get?_detachCalls]
  cases runs.get? key with
  | none => rfl
  | some state => exact state.scope?_detach

theorem RunStore.callAt_detachCalls (key : RunKey) : runs.detachCalls.2.callAt key = none := by
  unfold callAt
  rw [get?_detachCalls]
  cases runs.get? key with
  | none => rfl
  | some state => exact state.call?_detach

theorem RunStore.isActive_detachCalls (key : RunKey) :
    runs.detachCalls.2.isActive key = runs.isActive key := by
  change (runs.detachCalls.2.get? key).isSome = (runs.get? key).isSome
  rw [get?_detachCalls, Option.isSome_map]

theorem Node.Current.detach {node : Node} {state : Option RunState} {position : Nat}
    (current : node.Current state position) :
    node.Current (state.map RunState.detach) position := by
  unfold Node.Current at current ⊢
  split at current
  · rw [current]
    rfl
  · rw [current]
    rfl
  · rcases current with ⟨deadline, timedOut, rfl, same⟩
    exact ⟨deadline, timedOut, rfl, same⟩
  · trivial

theorem Tree.Live.detachCalls {upper lower : RunKey} (live : tree.Live runs upper lower) :
    tree.Live runs.detachCalls.2 upper lower := by
  refine Relation.ReflTransGen.mono ?_ upper lower live
  intro upper lower goesOn
  cases goesOn with
  | child found placed current =>
    refine .child found placed ?_
    rw [RunStore.get?_detachCalls]
    exact current.detach
  | target found configured framed known => exact .target found configured framed known

theorem Tree.Governs.detachCalls (governs : tree.Governs blackboard runs) :
    tree.Governs blackboard runs.detachCalls.2 := by
  refine ⟨governs.wellFormed, ?_, ?_, ?_⟩
  · intro key state remembered
    rw [RunStore.get?_detachCalls, Option.map_eq_some_iff] at remembered
    rcases remembered with ⟨before, remembered, rfl⟩
    rcases governs.fits key before remembered with ⟨node, found, fits⟩
    exact ⟨node, found, RunState.fits_detach fits⟩
  · exact governs.nested.of_scopeAt (.of_eq rfl) RunStore.scopeAt_detachCalls
  · intro key active
    rw [RunStore.isActive_detachCalls] at active
    exact (governs.live key active).detachCalls

end Detached

namespace Runner

variable {σ π : Type} {runner after : Runner σ}

/-- A runner in which nothing is leaked and nothing is left of other trees. -/
structure Orderly (runner : Runner σ) : Prop where
  accounted : Accounted runner.blackboard runner.runs runner.client
  loaded : ∀ tree, runner.tree = some tree → tree.Governs runner.blackboard runner.runs
  unloaded : runner.tree = none → runner.runs = .empty

theorem orderly_create (config : MissionConfig) : (create config (.empty : Client σ)).Orderly := by
  refine ⟨⟨Blackboard.empty_arena, ?_, ?_, ?_⟩, ?_, fun _ => rfl⟩
  · exact fun handle held => absurd held Client.not_holds_empty
  · exact .of_none (fun handle => Client.not_holds_empty) fun key => rfl
  · refine .of_none ?_ fun key => rfl
    rintro id ⟨alive, nested⟩
    rcases Blackboard.isAlive_iff.1 alive with ⟨outer, found⟩
    rcases Blackboard.parent?_eq_some_iff.1 found with ⟨bindings, slot⟩
    have inside := (List.getElem?_eq_some_iff.1 slot).1
    have first : id.slot = 0 := by
      have one : (create config (.empty : Client σ)).blackboard.slots.length = 1 := rfl
      omega
    exact nested (Blackboard.empty_arena.eq_root alive first)
  · intro tree loaded
    cases loaded

theorem Orderly.congr (orderly : runner.Orderly)
    (scopes : runner.blackboard.SameScopes after.blackboard) (runs : after.runs = runner.runs)
    (calls : runner.client.Retires (fun _ => False) after.client)
    (tree : after.tree = runner.tree) : after.Orderly := by
  have accounted := orderly.accounted.of_sameScopes scopes
  refine ⟨⟨accounted.arena, calls.numbered accounted.numbered, ?_, ?_⟩, ?_, ?_⟩
  · refine accounted.calls.congr ?_ (by simp [runs])
    intro handle
    simp [calls.holds]
  · exact accounted.scopes.congr (fun _ => Iff.rfl) (by simp [runs])
  · intro loaded isTree
    rw [tree] at isTree
    have governs := orderly.loaded loaded isTree
    rw [runs]
    exact ⟨governs.wellFormed, governs.fits, governs.nested.of_sameScopes scopes, governs.live⟩
  · intro isNone
    rw [tree] at isNone
    rw [runs, orderly.unloaded isNone]

variable [RemoteService σ]

theorem Orderly.dropCalls (orderly : runner.Orderly) : runner.dropCalls.Orderly := by
  refine ⟨⟨orderly.accounted.arena, ?_, ?_, ?_⟩, ?_, ?_⟩
  · apply Client.numbered_cancelAll
    exact (Client.retires_foldl_cancel _).numbered orderly.accounted.numbered
  · exact .of_none (fun handle => Client.not_holds_cancelAll) RunStore.callAt_detachCalls
  · exact orderly.accounted.scopes.congr (fun _ => Iff.rfl) RunStore.scopeAt_detachCalls
  · exact fun tree loaded => (orderly.loaded tree loaded).detachCalls
  · intro isNone
    change runner.runs.detachCalls.2 = .empty
    rw [orderly.unloaded isNone]
    rfl

/-- To release run states concerns the blackboard and the client only. -/
theorem foldl_release_eq (states : List RunState) (runner : Runner σ) :
    states.foldl release runner =
      { runner with
        blackboard := (states.foldl release runner).blackboard
        client := (states.foldl release runner).client } := by
  induction states generalizing runner with
  | nil => rfl
  | cons state rest ih => exact ih (runner.release state)

/-- When run states are released, their requests are given up and the slots stay in order. -/
theorem released (states : List RunState) (runner : Runner σ) (arena : runner.blackboard.Arena)
    (nested : ∀ state ∈ states, ∀ id, state.scope? = some id → id.slot ≠ 0) :
    (states.foldl release runner).blackboard.Arena ∧
      runner.client.Retires (fun handle => ∃ state ∈ states, state.call? = some handle)
        (states.foldl release runner).client := by
  induction states generalizing runner with
  | nil => exact ⟨arena, (Client.Retires.refl _).congr (by simp)⟩
  | cons state rest ih =>
    have step : (runner.release state).blackboard.Arena ∧
        runner.client.Retires (fun handle => state.call? = some handle)
          (runner.release state).client := by
      cases state with
      | scope id =>
        have destroyed := arena.destroyed (nested _ List.mem_cons_self id rfl)
        exact ⟨destroyed.arena, (Client.Retires.refl _).congr (by simp [RunState.call?])⟩
      | remote run =>
        cases held : run.call with
        | none =>
          have same : runner.release (.remote run) = runner := by
            simp [release, RunState.release, RunState.call?, held]
          rw [same]
          exact ⟨arena, (Client.Retires.refl _).congr (by simp [RunState.call?, held])⟩
        | some handle =>
          have same : runner.release (.remote run) =
              { runner with client := runner.client.cancel handle } := by
            simp [release, RunState.release, RunState.call?, held]
          rw [same]
          refine ⟨arena, (Client.retires_cancel _ _).congr ?_⟩
          simp [RunState.call?, held, eq_comm]
      | _ => exact ⟨arena, (Client.Retires.refl _).congr (by simp [RunState.call?])⟩
    rcases ih (runner.release state) step.1
      (fun other listed => nested other (List.mem_cons_of_mem _ listed)) with ⟨kept, retires⟩
    refine ⟨kept, (step.2.trans retires).congr ?_⟩
    simp

/-- What a reset changes, and what it leaves as it is. -/
theorem reset_eq (runner : Runner σ) :
    let released := runner.runs.states.values.foldl release { runner with runs := .empty }
    runner.reset =
      { runner with
        blackboard := released.blackboard.clearNestedScopes
        runs := .empty
        client := released.client
        reports := []
        status := none
        active := none
        startedAt := none
        ticks := 0 } := by
  have released := foldl_release_eq runner.runs.states.values { runner with runs := .empty }
  unfold reset RunStore.drain
  dsimp only
  rw [released]

/-- A runner that is reset has no run states, and neither requests nor nested scopes. -/
theorem Orderly.reset (orderly : runner.Orderly) : runner.reset.Orderly := by
  have nested : ∀ state ∈ runner.runs.states.values, ∀ id, state.scope? = some id →
      id.slot ≠ 0 := by
    intro state listed id held
    rcases Table.mem_values_iff.1 listed with ⟨key, found⟩
    have stored : runner.runs.scopeAt key = some id := by
      have remembered : runner.runs.get? key = some state := found
      simp [RunStore.scopeAt, remembered, held]
    exact orderly.accounted.slot_ne_zero stored
  rcases released runner.runs.states.values { runner with runs := .empty }
    orderly.accounted.arena nested with ⟨arena, retires⟩
  have unheld : ∀ handle, ¬ (runner.runs.states.values.foldl release
      { runner with runs := .empty }).client.Holds handle := by
    intro handle held
    have kept := (retires.holds handle).1 held
    rcases (orderly.accounted.calls.used_iff handle).1 kept.1 with ⟨key, stored⟩
    unfold RunStore.callAt at stored
    rw [Option.bind_eq_some_iff] at stored
    rcases stored with ⟨state, remembered, heldHere⟩
    exact kept.2 ⟨state, Table.mem_values_iff.2 ⟨key, remembered⟩, heldHere⟩
  rw [reset_eq]
  refine ⟨⟨arena.clearNestedScopes, retires.numbered orderly.accounted.numbered, ?_, ?_⟩, ?_, ?_⟩
  · exact .of_none unheld fun _ => rfl
  · refine .of_none ?_ fun _ => rfl
    rintro id ⟨alive, notRoot⟩
    refine notRoot (arena.clearNestedScopes.eq_root alive ?_)
    by_contra inner
    have gone := arena.parent?_clearNestedScopes id
    rw [if_neg inner] at gone
    rw [Blackboard.isAlive_eq_false_iff.2 gone] at alive
    cases alive
  · exact fun tree loaded => (orderly.loaded tree loaded).wellFormed.governs_empty _
  · exact fun _ => rfl

omit [RemoteService σ] in
theorem Orderly.pause (orderly : runner.Orderly) : runner.pause.Orderly := by
  unfold Runner.pause
  split
  · exact ⟨orderly.accounted, orderly.loaded, orderly.unloaded⟩
  · exact orderly

omit [RemoteService σ] in
theorem Orderly.define (orderly : runner.Orderly) {now : Duration} {name : String} {value : Value}
    (defined : runner.define now name value = .ok after) : after.Orderly := by
  unfold Runner.define at defined
  rw [map_eq_ok] at defined
  rcases defined with ⟨blackboard, defined, rfl⟩
  exact orderly.congr (Blackboard.sameScopes_define defined) rfl (.refl _) rfl

omit [RemoteService σ] in
theorem Orderly.write (orderly : runner.Orderly) {now : Duration} {name : String} {value : Value}
    (written : runner.write now name value = .ok after) : after.Orderly := by
  unfold Runner.write at written
  rw [map_eq_ok] at written
  rcases written with ⟨blackboard, written, rfl⟩
  exact orderly.congr (Blackboard.sameScopes_write written) rfl (.refl _) rfl

theorem Orderly.restart (orderly : runner.Orderly) (now : Duration) :
    (runner.restart now).Orderly := by
  have reset := orderly.reset
  unfold Runner.restart
  dsimp only
  split
  · exact ⟨reset.accounted, reset.loaded, reset.unloaded⟩
  · exact ⟨reset.accounted, reset.loaded, reset.unloaded⟩
  · exact reset

theorem Orderly.prepare (orderly : runner.Orderly) : runner.prepare.Orderly := by
  have resumed : Orderly { runner with pauses := runner.pauses + 1 } :=
    ⟨orderly.accounted, orderly.loaded, orderly.unloaded⟩
  have resume : Orderly (if runner.config.restartOnPlay then
      { runner with pauses := runner.pauses + 1 }.reset
      else { runner with pauses := runner.pauses + 1 }) := by
    split
    · exact resumed.reset
    · exact resumed
  unfold Runner.prepare
  split
  · exact orderly.reset
  · exact resume
  · exact resume
  · exact orderly
  · exact orderly

variable [LeaseProvider π] {provider later : π}

omit [RemoteService σ] in
theorem Orderly.dropLeases (orderly : runner.Orderly) :
    (runner.dropLeases provider).1.Orderly :=
  ⟨orderly.accounted, orderly.loaded, orderly.unloaded⟩

theorem Orderly.stop (orderly : runner.Orderly) : (runner.stop provider).1.Orderly := by
  have dropped : (runner.dropCalls.dropLeases provider).1.Orderly := orderly.dropCalls.dropLeases
  unfold Runner.stop
  dsimp only
  split
  · exact ⟨dropped.accounted, dropped.loaded, dropped.unloaded⟩
  · exact ⟨dropped.accounted, dropped.loaded, dropped.unloaded⟩
  · exact dropped

/-- To load a tree is to begin without run states. -/
theorem Orderly.load (orderly : runner.Orderly) {tree : Tree} (wellFormed : tree.WellFormed) :
    (runner.load provider tree).1.Orderly := by
  have reset : (runner.stop provider).1.reset.Orderly := orderly.stop.reset
  have runs : (runner.stop provider).1.reset.runs = .empty := by rw [reset_eq]
  have sessions : (runner.stop provider).1.reset.client.Retires (fun _ => False)
      (runner.stop provider).1.reset.client.resetSessions := .of_calls rfl rfl
  refine ⟨⟨reset.accounted.arena, sessions.numbered reset.accounted.numbered, ?_,
    reset.accounted.scopes⟩, ?_, ?_⟩
  · refine reset.accounted.calls.congr ?_ fun _ => rfl
    exact fun handle => (sessions.holds handle).trans (by simp)
  · rintro _ ⟨⟩
    change tree.Governs _ (runner.stop provider).1.reset.runs
    rw [runs]
    exact wellFormed.governs_empty _
  · intro isNone
    cases isNone

/-- What becomes of a runner that is played: it is playing already, or it is got ready with all the
leases that its tree needs. -/
inductive Played (runner : Runner σ) (now : Duration) (provider : π) : Runner σ → π → Prop where
  | already (playing : runner.state = .playing) : Played runner now provider runner provider
  | started {tree : Tree} {leases : LeaseHolder} {later : π} (waiting : runner.state ≠ .playing)
      (loaded : runner.tree = some tree)
      (granted : runner.leases.acquireAll provider tree.leaseResources = (.ok leases, later)) :
      Played runner now provider
        { { runner with leases := leases }.prepare with
          startedAt := { runner with leases := leases }.prepare.startedAt.or (some now)
          state := .playing } later

theorem played_of_play {now : Duration} (played : runner.play now provider = (.ok after, later)) :
    runner.Played now provider after later := by
  unfold play at played
  split at played
  · cases played
  · rename_i loaded
    split at played
    · rename_i playing
      cases played
      exact .already playing
    · rename_i waiting
      split at played
      · cases played
      · rename_i granted
        cases played
        exact .started waiting loaded granted

theorem Orderly.play (orderly : runner.Orderly) {now : Duration}
    (played : runner.play now provider = (.ok after, later)) : after.Orderly := by
  cases played_of_play played with
  | already => exact orderly
  | @started tree leases =>
    have leased : Orderly { runner with leases := leases } :=
      ⟨orderly.accounted, orderly.loaded, orderly.unloaded⟩
    have ready := leased.prepare
    exact ⟨ready.accounted, ready.loaded, ready.unloaded⟩

/-- What the engine makes of a tick of the runner. -/
def engineTick (runner : Runner σ) (tree : Tree) (now : Duration) (wallClock : WallClock) :
    Except (Failure EngineError) Status × Context σ :=
  outcome (BehaviorTree.tick (runner.setting tree now wallClock) tree.main) runner.context

/-- A tick does nothing, or it is a tick of the engine. -/
theorem tick_cases (runner : Runner σ) (now : Duration) (wallClock : WallClock) (provider : π) :
    (∃ error leases later,
      runner.tick now wallClock provider =
        (.error (.error error), { runner with leases := leases }, later) ∧
      (error = .notPlaying ∨ error = .notLoaded ∨
        ∃ fault, error = .engine (.leaseBookkeeping fault))) ∨
    ∃ tree leases later, runner.tree = some tree ∧ runner.state = .playing ∧
      runner.tick now wallClock provider =
        ({ runner with leases := leases }.absorb (runner.engineTick tree now wallClock).2).conclude
          later (runner.engineTick tree now wallClock).1
          (runner.engineTick tree now wallClock).2.innermost := by
  unfold Runner.tick
  split
  · exact Or.inl ⟨.notPlaying, runner.leases, provider, rfl, Or.inl rfl⟩
  · rename_i playing
    rw [not_not] at playing
    dsimp only
    rcases runner.leases.retainAll provider with ⟨renewed, leases, later⟩
    cases renewed with
    | error fault => exact Or.inl ⟨_, leases, later, rfl, Or.inr (Or.inr ⟨fault, rfl⟩)⟩
    | ok done =>
      cases loaded : runner.tree with
      | none =>
        dsimp only
        exact Or.inl ⟨.notLoaded, leases, later, rfl, Or.inr (Or.inl rfl)⟩
      | some tree => exact Or.inr ⟨tree, leases, later, rfl, playing, rfl⟩

omit [LeaseProvider π] in
/-- The engine leaves a sound context, in which everything that is active ran, unless a number does
not fit. -/
theorem Orderly.ends_engineTick (orderly : runner.Orderly) {tree : Tree}
    (loaded : runner.tree = some tree) (now : Duration) (wallClock : WallClock) :
    Ends (BehaviorTree.tick (runner.setting tree now wallClock) tree.main) runner.context
      (fun _ after => runner.context.Advances tree (runner.elapsed now) after ∧
        ∀ key, after.runs.isActive key = true →
          tree.Live after.runs ⟨0, tree.main⟩ key ∧ after.RunsThrough tree ⟨0, tree.main⟩ key)
      fun failure _ => failure.IsOverflow := by
  have governs := orderly.loaded tree loaded
  have sound : runner.context.Sound tree := by
    refine ⟨orderly.accounted, governs.nested, governs.fits, ?_⟩
    intro visit none
    cases none
  have ticked : Ends (BehaviorTree.tick (runner.setting tree now wallClock) tree.main)
      runner.context (fun _ after => runner.context.Advances tree (runner.elapsed now) after)
      fun failure _ => failure.IsOverflow :=
    ends_tick_sound ⟨0, tree.main⟩ governs.wellFormed governs.wellFormed.rooted rfl sound
      (Or.inl rfl)
  have active : Ends (BehaviorTree.tick (runner.setting tree now wallClock) tree.main)
      runner.context
      (fun _ after => ∀ key, after.runs.isActive key = true →
        tree.Live after.runs ⟨0, tree.main⟩ key ∧ after.RunsThrough tree ⟨0, tree.main⟩ key)
      fun _ _ => True :=
    ends_tick_active ⟨0, tree.main⟩ governs.wellFormed governs.wellFormed.rooted rfl governs.fits
      governs.live
  refine (ticked.and active).mono ?_ ?_
  · exact fun _ _ both => both
  · exact fun _ _ both => both.1

omit [RemoteService σ] [LeaseProvider π] in
/-- A runner that takes over what the engine left is orderly. -/
theorem Orderly.absorb (orderly : runner.Orderly) {tree : Tree} (loaded : runner.tree = some tree)
    {context : Context σ} (sound : context.Sound tree)
    (live : ∀ key, context.runs.isActive key = true →
      tree.Live context.runs ⟨0, tree.main⟩ key) : (runner.absorb context).Orderly := by
  refine ⟨sound.accounted, ?_, ?_⟩
  · intro other isTree
    have same : runner.tree = some other := isTree
    rw [loaded, Option.some.injEq] at same
    subst same
    exact ⟨(orderly.loaded tree loaded).wellFormed, sound.fits, sound.nested, live⟩
  · intro isNone
    have none : runner.tree = none := isNone
    rw [loaded] at none
    cases none

/-- What may become of an orderly runner by a tick. -/
inductive Ticked (runner : Runner σ) (now : Duration) (wallClock : WallClock) :
    Except (Failure MissionError) Status → Runner σ → Prop where
  | refused {error : MissionError} (leases : LeaseHolder)
      (cause : error = .notPlaying ∨ error = .notLoaded ∨
        ∃ fault, error = .engine (.leaseBookkeeping fault)) :
      Ticked runner now wallClock (.error (.error error)) { runner with leases := leases }
  | crashed {tree : Tree} {cause : Crash} {after : Runner σ} (loaded : runner.tree = some tree)
      (overflow : cause = .durationOverflow ∨ cause = .handleOverflow) :
      Ticked runner now wallClock (.error (.crash cause)) after
  | ran {tree : Tree} {status : Status} {context : Context σ} {state : RunnerState}
      (leases : LeaseHolder) (loaded : runner.tree = some tree)
      (ticked : runner.engineTick tree now wallClock = (.ok status, context))
      (advances : runner.context.Advances tree (runner.elapsed now) context)
      (active : ∀ key, context.runs.isActive key = true →
        tree.Live context.runs ⟨0, tree.main⟩ key ∧ context.RunsThrough tree ⟨0, tree.main⟩ key)
      (goesOn : state = .playing → runner.state = .playing) :
      Ticked runner now wallClock (.ok status)
        { runner.absorb context with
          leases := leases
          status := some status
          active := context.innermost
          state := state }

theorem Orderly.ticked (orderly : runner.Orderly) (now : Duration) (wallClock : WallClock)
    (provider : π) :
    runner.Ticked now wallClock (runner.tick now wallClock provider).1
      (runner.tick now wallClock provider).2.1 := by
  rcases runner.tick_cases now wallClock provider with
    ⟨error, leases, later, ticked, cause⟩ | ⟨tree, leases, later, loaded, playing, ticked⟩
  · rw [ticked]
    exact .refused leases cause
  · have ends := orderly.ends_engineTick loaded now wallClock
    rw [ticked]
    unfold Ends at ends
    have same : runner.engineTick tree now wallClock =
        outcome (BehaviorTree.tick (runner.setting tree now wallClock) tree.main)
          runner.context := rfl
    rw [← same] at ends
    generalize outcome : runner.engineTick tree now wallClock = result at ends
    rcases result with ⟨failure | status, context⟩
    · cases failure with
      | error error => exact ends.elim
      | crash cause => exact .crashed loaded ends
    · unfold conclude
      dsimp only
      split
      · exact .ran leases loaded outcome ends.1 ends.2 id
      · exact .ran _ loaded outcome ends.1 ends.2 fun impossible => by cases impossible

/-- A runner is orderly after a tick, unless a number does not fit. -/
theorem Orderly.tick (orderly : runner.Orderly) {result : Except (Failure MissionError) Status}
    {now : Duration} {wallClock : WallClock} (ticked : runner.Ticked now wallClock result after)
    (calm : ∀ cause, result ≠ .error (.crash cause)) : after.Orderly := by
  cases ticked with
  | refused leases cause => exact ⟨orderly.accounted, orderly.loaded, orderly.unloaded⟩
  | crashed loaded overflow => exact absurd rfl (calm _)
  | ran leases loaded ticked advances active goesOn =>
    have absorbed := orderly.absorb loaded advances.sound fun key isActive =>
      (active key isActive).1
    exact ⟨absorbed.accounted, absorbed.loaded, absorbed.unloaded⟩

end Runner

end BehaviorTree
