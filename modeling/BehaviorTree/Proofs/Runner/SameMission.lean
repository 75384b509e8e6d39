import BehaviorTree.Proofs.Engine.Pauses
import BehaviorTree.Proofs.Runner.Leases

/-!
# Runners of the same mission

Two runners are of the same mission if they differ at most in how often they were paused and in the
leases that they hold. Whatever both are told to do, they stay of the same mission, as long as a
mission is played on both or on none. While they play, they cannot be told apart unless a node asks
for pauses.
-/

namespace BehaviorTree

variable {σ π : Type}

namespace Runner

/-- The runner as it is, but for what it is doing, how often it was paused and which leases it
holds. -/
def recast (runner : Runner σ) (state : RunnerState) (pauses : BitVec 64) (leases : LeaseHolder) :
    Runner σ :=
  { runner with state := state, pauses := pauses, leases := leases }

/-- Two runners differ at most in how often they were paused and in the leases that they hold. -/
def SameMission (one other : Runner σ) : Prop :=
  one = other.recast other.state one.pauses one.leases

variable {one other runner : Runner σ} {doing : RunnerState} {pauses : BitVec 64} {leases : LeaseHolder}

theorem sameMission_iff :
    one.SameMission other ↔ ∃ pauses leases, one = other.recast other.state pauses leases := by
  constructor
  · exact fun same => ⟨one.pauses, one.leases, same⟩
  · rintro ⟨pauses, leases, rfl⟩
    rfl

theorem SameMission.state (same : one.SameMission other) : one.state = other.state := by
  rcases sameMission_iff.1 same with ⟨_, _, rfl⟩
  rfl

theorem SameMission.tree (same : one.SameMission other) : one.tree = other.tree := by
  rcases sameMission_iff.1 same with ⟨_, _, rfl⟩
  rfl

theorem SameMission.setLeases (same : one.SameMission other) (held leases : LeaseHolder) :
    SameMission { one with leases := held } { other with leases := leases } := by
  rcases sameMission_iff.1 same with ⟨pauses, _, rfl⟩
  rfl

theorem SameMission.pause (same : one.SameMission other) : one.pause.SameMission other.pause := by
  rcases sameMission_iff.1 same with ⟨pauses, leases, rfl⟩
  simp only [Runner.pause, recast]
  split <;> rfl

theorem define_recast (now : Duration) (name : String) (value : Value) :
    (runner.recast doing pauses leases).define now name value =
      (runner.define now name value).map (recast · doing pauses leases) := by
  simp only [define, recast, elapsed]
  cases runner.blackboard.define .root name ⟨value, _, none⟩ <;> rfl

theorem write_recast (now : Duration) (name : String) (value : Value) :
    (runner.recast doing pauses leases).write now name value =
      (runner.write now name value).map (recast · doing pauses leases) := by
  simp only [write, recast, elapsed]
  cases runner.blackboard.write .root name ⟨value, _, none⟩ <;> rfl

section Stopping

variable [RemoteService σ]

theorem foldl_release_recast (runner : Runner σ) (states : List RunState) :
    states.foldl release (runner.recast doing pauses leases) =
      (states.foldl release runner).recast doing pauses leases := by
  induction states generalizing runner with
  | nil => rfl
  | cons first rest ih => exact ih (runner.release first)

theorem reset_recast :
    (runner.recast doing pauses leases).reset = runner.reset.recast doing pauses leases := by
  simp only [reset, RunStore.drain, recast]
  have released : runner.runs.states.values.foldl release
      (recast { runner with runs := .empty } doing pauses leases) =
        (runner.runs.states.values.foldl release { runner with runs := .empty }).recast
          doing pauses leases := foldl_release_recast _ _
  simp only [recast] at released
  rw [released]

theorem SameMission.reset (same : one.SameMission other) : one.reset.SameMission other.reset := by
  rcases sameMission_iff.1 same with ⟨pauses, leases, rfl⟩
  rw [reset_recast, ← (reset_keeps other).2.2]
  rfl

theorem SameMission.restart (same : one.SameMission other) (now : Duration) :
    (one.restart now).SameMission (other.restart now) := by
  rcases sameMission_iff.1 same.reset with ⟨pauses, leases, equal⟩
  simp only [Runner.restart, equal, recast]
  split <;> rfl

/-- To get ready counts a pause, and discards run states on both sides or on none. -/
theorem SameMission.prepare (same : one.SameMission other) :
    one.prepare.SameMission other.prepare := by
  rcases sameMission_iff.1 same with ⟨pauses, leases, rfl⟩
  let counted := { other with pauses := other.pauses + 1 }
  have again : SameMission (counted.recast other.state (pauses + 1) leases) counted := rfl
  have restarted : SameMission
      (if other.config.restartOnPlay = true then
        (counted.recast other.state (pauses + 1) leases).reset
      else counted.recast other.state (pauses + 1) leases)
      (if other.config.restartOnPlay = true then counted.reset else counted) := by
    split
    · exact again.reset
    · exact again
  simp only [Runner.prepare, recast]
  split
  · exact SameMission.reset rfl
  · exact restarted
  · exact restarted
  · rfl
  · rfl

variable [LeaseProvider π] {provider later : π} {now : Duration}

theorem SameMission.stop (same : one.SameMission other) :
    (one.stop provider).1.SameMission (other.stop later).1 := by
  rcases sameMission_iff.1 same with ⟨pauses, leases, rfl⟩
  simp only [Runner.stop, dropCalls, dropLeases, recast]
  split <;> rfl

theorem SameMission.load (same : one.SameMission other) (tree : Tree) :
    (one.load provider tree).1.SameMission (other.load later tree).1 := by
  have stopped : (one.stop provider).1.SameMission (other.stop later).1 := same.stop
  rcases sameMission_iff.1 stopped.reset with ⟨pauses, leases, equal⟩
  simp only [Runner.load, equal]
  rfl

omit [RemoteService σ] [LeaseProvider π] in
/-- What a runner makes of a mission for which it has its leases. -/
theorem play_of_granted [RemoteService σ] [LeaseProvider π] {tree : Tree}
    (loaded : runner.tree = some tree) (waiting : runner.state ≠ .playing)
    (granted : runner.leases.acquireAll provider tree.leaseResources = (.ok leases, later)) :
    runner.play now provider =
      (.ok { { runner with leases := leases }.prepare with
        startedAt := { runner with leases := leases }.prepare.startedAt.or (some now)
        state := .playing }, later) := by
  unfold Runner.play
  split
  · rename_i unloaded
    rw [loaded] at unloaded
    cases unloaded
  · rename_i same
    rw [loaded] at same
    cases same
    rw [if_neg waiting, granted]

theorem play_of_refused {tree : Tree} {cause : LeaseError}
    (loaded : runner.tree = some tree) (waiting : runner.state ≠ .playing)
    (refused : runner.leases.acquireAll provider tree.leaseResources = (.error cause, later)) :
    runner.play now provider = (.error (.lease cause), later) := by
  simp only [Runner.play, loaded, if_neg waiting, refused]

/-- To play changes both sides alike if it is granted on both or refused on both. -/
theorem SameMission.play (same : one.SameMission other)
    (granted : ∀ tree, other.tree = some tree →
      ((∃ next, (one.leases.acquireAll provider tree.leaseResources).1 = .ok next) ↔
        ∃ next, (other.leases.acquireAll later tree.leaseResources).1 = .ok next))
    (now : Duration) :
    (∃ after next, (one.play now provider).1 = .ok after ∧ (other.play now later).1 = .ok next ∧
        after.SameMission next) ∨
      ∃ cause reason, (one.play now provider).1 = .error cause ∧
        (other.play now later).1 = .error reason := by
  cases loaded : other.tree with
  | none => exact Or.inr ⟨.notLoaded, .notLoaded, by simp [Runner.play, same.tree, loaded]⟩
  | some tree =>
    by_cases playing : other.state = .playing
    · refine Or.inl ⟨one, other, ?_, ?_, same⟩
      · simp [Runner.play, same.tree, loaded, same.state, playing]
      · simp [Runner.play, loaded, playing]
    · have alike := granted tree loaded
      have waiting : one.state ≠ .playing := same.state ▸ playing
      have alsoLoaded := same.tree.trans loaded
      rcases asked : one.leases.acquireAll provider tree.leaseResources with ⟨cause | held, _⟩ <;>
        rcases askedToo : other.leases.acquireAll later tree.leaseResources with
          ⟨reason | leases, _⟩ <;>
        simp only [asked, askedToo] at alike
      · rw [play_of_refused alsoLoaded waiting asked, play_of_refused loaded playing askedToo]
        exact Or.inr ⟨_, _, rfl, rfl⟩
      · simp at alike
      · simp at alike
      · rw [play_of_granted alsoLoaded waiting asked, play_of_granted loaded playing askedToo]
        refine Or.inl ⟨_, _, rfl, rfl, ?_⟩
        rcases sameMission_iff.1 (same.setLeases held leases).prepare with ⟨pauses, _, equal⟩
        rw [equal]
        rfl

/-- The engine does the same on both sides, if no node asks for pauses. -/
theorem SameMission.engineTick (same : one.SameMission other) {tree : Tree}
    (wellFormed : tree.WellFormed) (ignores : tree.IgnoresPauses) (now : Duration)
    (wallClock : WallClock) :
    one.engineTick tree now wallClock = other.engineTick tree now wallClock := by
  rcases sameMission_iff.1 same with ⟨pauses, leases, rfl⟩
  have ticks : (tickWithin ((other.setting tree now wallClock).pausedTo pauses) tree.depthLimit
      tree.main : Tick σ Status) =
        tickWithin (other.setting tree now wallClock) tree.depthLimit tree.main :=
    tickWithin_pausedTo wellFormed ignores pauses tree.depthLimit tree.main
  exact congrArg (outcome · other.context) ticks

theorem SameMission.conclude (same : one.SameMission other)
    (result : Except (Failure EngineError) Status) (active : Option RunKey) :
    (one.conclude provider result active).1 = (other.conclude later result active).1 ∧
      (one.conclude provider result active).2.1.SameMission
        (other.conclude later result active).2.1 := by
  cases result with
  | error failure => exact ⟨rfl, same.stop⟩
  | ok status =>
    rcases sameMission_iff.1 same with ⟨pauses, leases, rfl⟩
    unfold Runner.conclude
    dsimp only
    split <;> exact ⟨rfl, rfl⟩

omit [RemoteService σ] in
theorem SameMission.absorb (same : one.SameMission other) (context : Context σ) :
    (one.absorb context).SameMission (other.absorb context) := by
  rcases sameMission_iff.1 same with ⟨pauses, leases, rfl⟩
  rfl

theorem SameMission.tick (same : one.SameMission other)
    (ignores : ∀ tree, other.tree = some tree → tree.WellFormed ∧ tree.IgnoresPauses)
    (now : Duration) (wallClock : WallClock)
    (renews : ∃ refusals renewed, one.leases.retainAll provider = (.ok refusals, renewed))
    (alsoRenews : ∃ refusals renewed, other.leases.retainAll later = (.ok refusals, renewed)) :
    (one.tick now wallClock provider).1 = (other.tick now wallClock later).1 ∧
      (one.tick now wallClock provider).2.1.SameMission (other.tick now wallClock later).2.1 := by
  rcases renews with ⟨refusals, ⟨held, _⟩, renewed⟩
  rcases alsoRenews with ⟨refusalsToo, ⟨leases, _⟩, alsoRenewed⟩
  have leased := same.setLeases held leases
  by_cases playing : other.state = .playing
  · cases loaded : other.tree with
    | none =>
      rw [tick_of_unloaded (same.state.trans playing) renewed (same.tree.trans loaded),
        tick_of_unloaded playing alsoRenewed loaded]
      exact ⟨rfl, leased⟩
    | some tree =>
      have evaluates : one.Evaluates provider tree held _ :=
        ⟨same.state.trans playing, same.tree.trans loaded, refusals, renewed⟩
      have alsoEvaluates : other.Evaluates later tree leases _ :=
        ⟨playing, loaded, refusalsToo, alsoRenewed⟩
      rcases ignores tree loaded with ⟨wellFormed, ignores⟩
      rw [evaluates.tick_eq, alsoEvaluates.tick_eq, same.engineTick wellFormed ignores]
      exact (leased.absorb _).conclude _ _
  · rw [tick_of_waiting playing, tick_of_waiting fun plays => playing (same.state ▸ plays)]
    exact ⟨rfl, same⟩

end Stopping

end Runner

end BehaviorTree
