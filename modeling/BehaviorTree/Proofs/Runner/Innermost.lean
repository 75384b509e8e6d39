import BehaviorTree.Proofs.Engine.Innermost
import BehaviorTree.Proofs.Runner.Chronicles

/-!
# What a mission says is running

After a tick the runner names one node as the innermost one that is running, if the mission is still
running. Whoever follows the mission can take the runner at its word: that node ran in this very
tick, and so did everything on the way on which it was invoked, while nothing below it goes on.
-/

namespace BehaviorTree

namespace Tree

variable {tree : Tree} {runs : RunStore} {upper lower : RunKey}

theorem Reaches.isNode (reaches : tree.Reaches runs upper lower) (wellFormed : tree.WellFormed)
    (isNode : (tree.node? upper.node).isSome) : (tree.node? lower.node).isSome := by
  rcases Relation.ReflTransGen.cases_tail reaches with rfl | ⟨last, -, invokes⟩
  · exact isNode
  · exact wellFormed.closed _ _ invokes.leads

/-- Nothing below a bare node goes on, if every reference has a frame of its own. -/
theorem Bare.isActive_eq_false (bare : tree.Bare runs upper) (distinct : runs.Distinct)
    {rank : NodeIndex → Nat} (ranking : tree.Ranking rank)
    (below : tree.ReachesBelow runs upper lower) : runs.isActive lower = false := by
  refine RunStore.isActive_eq_false_iff.2 (bare lower ⟨runs, .refl _, distinct, below.reaches⟩ ?_)
  rintro rfl
  have here : tree.Reaches runs lower lower := .refl _
  exact below.not_reaches ranking here

end Tree

namespace Runner

variable {σ : Type} [RemoteService σ] {runner after : Runner σ} {now : Duration}
  {wallClock : WallClock} {status : Status}

/-- What a tick that has a status leaves for the feedback. -/
theorem Ticked.active_of_ok {result : Except (Failure MissionError) Status}
    (ticked : runner.Ticked now wallClock result after) (ran : result = .ok status) :
    ∃ tree, runner.tree = some tree ∧ after.tree = some tree ∧
      (runner.engineTick tree now wallClock).1 = .ok status ∧
      after.active = (runner.engineTick tree now wallClock).2.innermost := by
  cases ticked with
  | refused leases cause => cases ran
  | crashed loaded overflow => cases ran
  | @ran tree _ _ _ leases loaded ticked advances active goesOn =>
    cases ran
    exact ⟨tree, loaded, loaded, ticked ▸ rfl, ticked ▸ rfl⟩

end Runner

namespace Site

variable {σ π : Type} [RemoteService σ] [LeaseProvider π] {site : Site σ π}
  {deeds : List (Deed σ π)}

omit [LeaseProvider π] in
/-- A tick of the mission notes its innermost running node. -/
theorem Kempt.points (kempt : site.Kempt) {tree : Tree} (loaded : site.runner.tree = some tree)
    (now : Duration) (wallClock : WallClock) :
    Ends (BehaviorTree.tick (site.runner.setting tree now wallClock) tree.main) site.runner.context
      (site.runner.context.Points tree ⟨0, tree.main⟩) fun _ _ => True := by
  rcases kempt.accepted tree loaded with ⟨source, accepted⟩
  exact ends_tick_points (Tree.wellFormed_ofSource accepted) (Tree.branches_ofSource accepted)
    (kempt.orderly.ready kempt.housed loaded)

/-- The feedback of a mission names a node if and only if the tick was running. The node ran in this
tick with everything on the way to it from the root, and nothing below it goes on. -/
theorem innermost_node_runs (config : MissionConfig) (provider : π)
    (reached : (start config provider : Site σ π).undergoAll deeds = .ok site) {tree : Tree}
    (loaded : site.runner.tree = some tree) (now : Duration) (wallClock : WallClock) :
    (match site.runner.engineTick tree now wallClock with
      | (.error failure, _) => failure.IsOverflow
      | (.ok status, context) =>
        (context.innermost.isSome ↔ status = .running) ∧
          ∀ key, context.innermost = some key →
            context.RunsThrough tree ⟨0, tree.main⟩ key ∧
              (context.runs.frames.size < 2 ^ 32 → ∀ lower,
                tree.ReachesBelow context.runs key lower →
                  context.runs.isActive lower = false)) ∧
    ∀ status, (site.runner.tick now wallClock site.provider).1 = .ok status →
      ((site.runner.tick now wallClock site.provider).2.1.activeLabel.isSome ↔
        status = .running) ∧
      ∀ key label,
        (site.runner.tick now wallClock site.provider).2.1.activeLabel = some (key, label) →
          (site.runner.engineTick tree now wallClock).2.innermost = some key ∧
            ∃ node, tree.node? key.node = some node ∧ node.label = label := by
  have kempt := kept_undergoAll Kempt Kempt.undergo (kempt_start config provider) reached
  have wellFormed := (kempt.orderly.loaded tree loaded).wellFormed
  rcases wellFormed.ranked with ⟨rank, ranking⟩
  have ends := (kempt.points loaded now wallClock).and
    (kempt.orderly.ends_engineTick loaded now wallClock)
  have stays : site.runner.context.Stays (site.runner.engineTick tree now wallClock).2 :=
    staying_tickWithin wellFormed _ _ _
  have ticked := kempt.orderly.ticked now wallClock site.provider
  -- A mission starts each of its ticks with nothing noted.
  have nothing : site.runner.context.innermost = none := rfl
  have engine : site.runner.engineTick tree now wallClock =
      outcome (BehaviorTree.tick (site.runner.setting tree now wallClock) tree.main)
        site.runner.context := rfl
  unfold Ends at ends
  rw [← engine] at ends
  have noted : match site.runner.engineTick tree now wallClock with
      | (.error failure, _) => failure.IsOverflow
      | (.ok status, context) => (context.innermost.isSome ↔ status = .running) ∧
        ∀ key, context.innermost = some key → context.Tips tree ⟨0, tree.main⟩ key := by
    revert ends
    rcases site.runner.engineTick tree now wallClock with ⟨failure | status, context⟩
    · exact fun fails => fails.2
    · rintro ⟨points, -⟩
      cases points with
      | ended isOver same =>
        rw [Context.SameInnermost, nothing] at same
        simp [same, isOver]
      | running tips noted =>
        rw [nothing, Option.none_or] at noted
        refine ⟨by simp [noted], fun key named => ?_⟩
        rw [noted, Option.some.injEq] at named
        exact named ▸ tips
  refine ⟨?_, fun status ran => ?_⟩
  · revert noted stays
    rcases site.runner.engineTick tree now wallClock with ⟨failure | status, context⟩
    · exact fun _ overflow => overflow
    · refine fun stays noted => ⟨noted.1, fun key named => ⟨(noted.2 key named).through, ?_⟩⟩
      intro room lower below
      have distinct := ((kempt.framed.trans stays.grows).numbered RunStore.numbered_empty
        room).distinct
      exact (noted.2 key named).bare.isActive_eq_false distinct ranking below
  · rcases ticked.active_of_ok ran with ⟨same, isTree, isTreeAfter, evaluated, active⟩
    cases loaded.symm.trans isTree
    have evaluates : site.runner.engineTick tree now wallClock =
        (.ok status, (site.runner.engineTick tree now wallClock).2) := Prod.ext evaluated rfl
    rw [evaluates] at noted
    have labelled : ∀ key, (site.runner.engineTick tree now wallClock).2.innermost = some key →
        (tree.node? key.node).isSome := fun key named =>
      (noted.2 key named).through.reaches.isNode wellFormed wellFormed.rooted
    simp only [Runner.activeLabel, active, isTreeAfter, Option.bind_some]
    refine ⟨?_, fun key label named => ?_⟩
    · rw [← noted.1]
      cases named : (site.runner.engineTick tree now wallClock).2.innermost with
      | none => rfl
      | some key => simpa using labelled key named
    · rcases Option.bind_eq_some_iff.1 named with ⟨innermost, isInnermost, labels⟩
      rcases Option.map_eq_some_iff.1 labels with ⟨node, found, same⟩
      cases same
      exact ⟨isInnermost, node, found, rfl⟩

/-- Something that fails is tried again and again, beside a nap. -/
def triesAndNaps : MissionSource :=
  ⟨[⟨"main", [], .node "SimpleParallel" none []
      [.node "Attempts" none [] [],
        .node "Sleep" none [⟨.input, "seconds", .constant (.int 20)⟩] []]⟩,
    ⟨"Attempts", [], .node "Retry" none [⟨.input, "max_attempts", .constant (.int 3)⟩]
      [.node "ConstantResult" none [⟨.input, "result", .constant (.string "failure")⟩] []]⟩]⟩

set_option maxRecDepth 100000 in
def triesAndNapsTree : AcceptedTree where
  source := triesAndNaps
  tree := (Tree.ofSource triesAndNaps).toOption.getD default
  accepted := by cbv

def untilTries : List (Deed ScriptedService LeaseRegistry) :=
  [.perform .zero (.load triesAndNapsTree), .perform .zero .play]

def beforeTries : Site ScriptedService LeaseRegistry := afterAll (start .standard .empty) untilTries

set_option maxRecDepth 100000 in
theorem undergoAll_untilTries :
    (start .standard .empty).undergoAll untilTries = .ok beforeTries := by
  cbv

/-- What the engine makes of the first try. -/
def firstTry : Except (Failure EngineError) Status × Context ScriptedService :=
  beforeTries.runner.engineTick triesAndNapsTree.tree .zero default

set_option maxRecDepth 100000 in
/-- The node that tries again is the innermost one: nothing is left of its child, and the nap beside
it came later. -/
theorem tries_again_beside_nap :
    firstTry.1 = .ok .running ∧ firstTry.2.innermost = some ⟨1, 4⟩ ∧
      firstTry.2.RunsThrough triesAndNapsTree.tree ⟨0, triesAndNapsTree.tree.main⟩ ⟨1, 4⟩ ∧
      (∀ lower, triesAndNapsTree.tree.ReachesBelow firstTry.2.runs ⟨1, 4⟩ lower →
        firstTry.2.runs.isActive lower = false) ∧
      (beforeTries.runner.tick .zero default beforeTries.provider).2.1.activeLabel =
        some (⟨1, 4⟩, "Retry") := by
  have loaded : beforeTries.runner.tree = some triesAndNapsTree.tree := by cbv
  have evaluated : firstTry.1 = .ok .running := by cbv
  have named : firstTry.2.innermost = some ⟨1, 4⟩ := by cbv
  have room : firstTry.2.runs.frames.size < 2 ^ 32 := by cbv
  have runs := (innermost_node_runs .standard .empty undergoAll_untilTries loaded .zero default).1
  have same : beforeTries.runner.engineTick triesAndNapsTree.tree .zero default =
      (.ok .running, firstTry.2) := Prod.ext evaluated rfl
  rw [same] at runs
  rcases runs.2 _ named with ⟨through, bare⟩
  exact ⟨evaluated, named, through, bare room, by cbv⟩

end Site

end BehaviorTree
