import BehaviorTree.Proofs.Engine.Chronicle
import BehaviorTree.Proofs.Runner.Frames
import BehaviorTree.Proofs.Runner.Parameters
import BehaviorTree.Proofs.Runner.Retries

/-!
# Chronicles of missions

Whatever a runner is told to do, only a tick of the engine gives turns to nodes. Everything else
leaves the run states as they are, or takes requests out of them, or forgets all of them. So the
chronicle of a node can be written for every history of a mission, and every turn in it belongs to
an activation.
-/

namespace BehaviorTree

variable {σ π : Type} [RemoteService σ]

section Agreement

variable {tree : Tree} {key : RunKey} {runs : RunStore} {chronicle : Chronicle σ key}

omit [RemoteService σ] in
theorem RunState.IsPlain.detach_eq {state : RunState} (plain : state.IsPlain) :
    state.detach = state := by
  cases state <;> first | rfl | cases plain

/-- A node that waits does not notice that requests are given up, unless it holds one. -/
theorem PastTurn.Leaves.detached {last : PastTurn σ key} (leaves : last.Leaves tree runs) :
    last.Leaves tree runs.detachCalls.2 := by
  refine ⟨leaves.sameTree, leaves.framesIn.trans (.of_eq rfl), ?_, ?_⟩
  · intro state remembered plain
    rw [RunStore.get?_detachCalls, leaves.state state remembered plain, Option.map_some,
      plain.detach_eq]
  · intro lower inside none
    rw [RunStore.get?_detachCalls, leaves.quiet lower (inside.of_framesIn (.of_eq rfl)) none,
      Option.map_none]

omit [RemoteService σ] in
theorem RunStore.Housed.detached (housed : runs.Housed) : runs.detachCalls.2.Housed := by
  refine ⟨fun other state remembered => ?_, housed.frames⟩
  rw [RunStore.get?_detachCalls] at remembered
  rcases Option.map_eq_some_iff.1 remembered with ⟨earlier, before, -⟩
  exact housed.states other earlier before

theorem Chronicle.Agrees.detached (agrees : Agrees chronicle tree runs) :
    Agrees chronicle tree runs.detachCalls.2 := by
  refine ⟨fun none => ?_, fun last turns going => (agrees.goesOn last turns going).detached⟩
  rw [RunStore.get?_detachCalls, agrees.fresh none, Option.map_none]

end Agreement

namespace Runner

variable {runner after : Runner σ} {provider later : π}

/-- To get a mission ready keeps what is remembered and all requests, unless everything is
forgotten. -/
theorem prepare_runs_or (runner : Runner σ) :
    runner.prepare.runs = runner.runs ∧ runner.prepare.client = runner.client ∨
      runner.prepare.runs = .empty := by
  have again : { runner with pauses := runner.pauses + 1 }.reset.runs = .empty := runs_reset _
  unfold prepare
  split
  · exact Or.inr (runs_reset runner)
  · dsimp only
    split
    · exact Or.inr again
    · exact Or.inl ⟨rfl, rfl⟩
  · dsimp only
    split
    · exact Or.inr again
    · exact Or.inl ⟨rfl, rfl⟩
  · exact Or.inl ⟨rfl, rfl⟩
  · exact Or.inl ⟨rfl, rfl⟩

theorem play_runs_or [LeaseProvider π] {now : Duration}
    (played : runner.play now provider = (.ok after, later)) :
    after.runs = runner.runs ∨ after.runs = .empty := by
  cases played_of_play played with
  | already => exact Or.inl rfl
  | @started tree leases =>
    exact (prepare_runs_or { runner with leases := leases }).imp_left And.left

omit [RemoteService σ] in
/-- A tick of a mission starts at its root, in a context in which nothing is amiss. -/
theorem Orderly.ready (orderly : runner.Orderly) (housed : runner.runs.Housed) {tree : Tree}
    (loaded : runner.tree = some tree) : runner.context.Ready tree ⟨0, tree.main⟩ := by
  have governs := orderly.loaded tree loaded
  refine ⟨rfl, ⟨orderly.accounted, governs.nested, governs.fits, ?_⟩, Or.inl rfl, housed,
    Or.inl rfl⟩
  intro visit none
  cases none

end Runner

namespace Site

variable [LeaseProvider π] {site middle after : Site σ π} {deed : Deed σ π}
  {deeds : List (Deed σ π)} {key : RunKey} {chronicle : Chronicle σ key}

/-- A deed ticks the mission, and the tick has a status. -/
def Ticks (site : Site σ π) (deed : Deed σ π) : Prop :=
  ∃ now wallClock status, deed = .perform now (.tick wallClock) ∧
    (site.runner.tick now wallClock site.provider).1 = .ok status

/-- What becomes of the run states, if the mission is not ticked. -/
inductive Rests (before after : Runner σ) : Prop where
  | kept (tree : after.tree = before.tree) (runs : after.runs = before.runs)
  | detached (tree : after.tree = before.tree) (runs : after.runs = before.runs.detachCalls.2)
  | forgotten (runs : after.runs = .empty)

theorem rests_undergo (orderly : site.runner.Orderly) (happened : site.undergo deed = .ok after)
    (still : ¬ site.Ticks deed) : Rests site.runner after.runner := by
  cases deed with
  | resetSessions =>
    cases happened
    exact .kept rfl rfl
  | perform now operation =>
    change site.perform now operation = .ok after at happened
    cases operation with
    | register name service =>
      cases happened
      exact .kept rfl rfl
    | load accepted =>
      cases happened
      exact .forgotten Runner.load_runs.1
    | define name value =>
      rcases perform_define_eq_ok happened with ⟨blackboard, rfl⟩
      exact .kept rfl rfl
    | write name value =>
      rcases perform_write_eq_ok happened with ⟨blackboard, rfl⟩
      exact .kept rfl rfl
    | play =>
      have sameTree := (tree_perform happened).resolve_right (by simp)
      simp only [perform] at happened
      split at happened
      · rename_i played
        cases happened
        rcases Runner.play_runs_or played with kept | forgotten
        · exact .kept sameTree kept
        · exact .forgotten forgotten
      · cases happened
        exact .kept rfl rfl
    | pause =>
      cases happened
      unfold Runner.pause
      split <;> exact .kept rfl rfl
    | stop =>
      cases happened
      exact .detached (Runner.keepsSessions_stop _ _).tree Runner.stop_runs.1
    | restart =>
      cases happened
      exact .forgotten Runner.restart_runs.1
    | tick wallClock =>
      rcases perform_tick_eq_ok happened with ⟨same, calm⟩
      have ticked := orderly.ticked now wallClock site.provider
      rw [← same] at ticked
      generalize result : (site.runner.tick now wallClock site.provider).1 = ended at ticked calm
      generalize after.runner = left at ticked
      cases ticked with
      | refused leases cause => exact .kept rfl rfl
      | crashed loaded overflow => exact absurd rfl (calm _)
      | ran leases loaded ticked advances active goesOn =>
        exact absurd ⟨now, wallClock, _, rfl, result⟩ still
    | compete change =>
      cases happened
      exact .kept rfl rfl

/-- What happens to the node `key` in the course of a mission, and the site at its end. -/
inductive Chronicles (key : RunKey) (site : Site σ π) :
    List (Deed σ π) → Chronicle σ key → Site σ π → Prop where
  | nothing : Chronicles key site [] [] site
  | kept {deeds : List (Deed σ π)} {chronicle : Chronicle σ key} {middle after : Site σ π}
      {deed : Deed σ π} (before : Chronicles key site deeds chronicle middle)
      (happened : middle.undergo deed = .ok after) (still : ¬ middle.Ticks deed)
      (tree : after.runner.tree = middle.runner.tree)
      (runs : after.runner.runs = middle.runner.runs ∨
        after.runner.runs = middle.runner.runs.detachCalls.2) :
      Chronicles key site (deeds ++ [deed]) chronicle after
  | forgotten {deeds : List (Deed σ π)} {chronicle : Chronicle σ key} {middle after : Site σ π}
      {deed : Deed σ π} (before : Chronicles key site deeds chronicle middle)
      (happened : middle.undergo deed = .ok after) (still : ¬ middle.Ticks deed)
      (runs : after.runner.runs = .empty) :
      Chronicles key site (deeds ++ [deed]) (.ended :: chronicle) after
  | ticked {deeds : List (Deed σ π)} {chronicle log : Chronicle σ key} {middle after : Site σ π}
      {now : Duration} {wallClock : WallClock} {tree : Tree} {status : Status}
      (before : Chronicles key site deeds chronicle middle)
      (happened : middle.perform now (.tick wallClock) = .ok after)
      (loaded : middle.runner.tree = some tree)
      (ran : (middle.runner.tick now wallClock middle.provider).1 = .ok status)
      (befalls : Befalls (middle.runner.setting tree now wallClock) key middle.runner.context log
        (middle.runner.engineTick tree now wallClock).2) :
      Chronicles key site (deeds ++ [.perform now (.tick wallClock)]) (log ++ chronicle) after

/-- What is known of a site: its runner is orderly, its tree was accepted, the frames were given one
after the other and nothing is remembered outside of them. -/
structure Kempt (site : Site σ π) : Prop where
  orderly : site.runner.Orderly
  accepted : site.IsAccepted
  framed : RunStore.empty.Grows site.runner.runs
  housed : site.runner.runs.Housed

omit [RemoteService σ] [LeaseProvider π] in
theorem kempt_start (config : MissionConfig) (provider : π) :
    (start config provider : Site σ π).Kempt :=
  ⟨Runner.orderly_create config, fun _ loaded => (by cases loaded), .refl _,
    RunStore.housed_empty⟩

/-- Whatever a runner is told to do, what is remembered stays in known frames. -/
theorem housed_undergo (orderly : site.runner.Orderly) (housed : site.runner.runs.Housed)
    (happened : site.undergo deed = .ok after) : after.runner.runs.Housed := by
  by_cases ticks : site.Ticks deed
  · rcases ticks with ⟨now, wallClock, status, rfl, ran⟩
    have performed : site.perform now (.tick wallClock) = .ok after := happened
    rcases (orderly.ticked now wallClock site.provider).runs_of_ok ran with
      ⟨tree, loaded, evaluated, runs, -⟩
    have governs := orderly.loaded tree loaded
    let setting := site.runner.setting tree now wallClock
    have behaves : Behaves (σ := σ) setting.tree (tickWithin setting tree.depthLimit) :=
      behaves_tickWithin governs.wellFormed tree.depthLimit
    have ends := behaves ⟨0, tree.main⟩ site.runner.context rfl governs.wellFormed.rooted
      governs.fits
    have outside := (ends.of_eq_ok (Prod.ext evaluated rfl)).1
    rw [(perform_tick_eq_ok performed).1, runs]
    exact outside.housed housed (Or.inl rfl)
  · cases rests_undergo orderly happened ticks with
    | kept tree runs => exact runs ▸ housed
    | detached tree runs => exact runs ▸ housed.detached
    | forgotten runs => exact runs ▸ RunStore.housed_empty

theorem Kempt.undergo (kempt : site.Kempt) (happened : site.undergo deed = .ok after) :
    after.Kempt :=
  ⟨orderly_undergo kempt.orderly happened, accepted_undergo kempt.accepted happened,
    framed_undergo kempt.orderly kempt.framed happened,
    housed_undergo kempt.orderly kempt.housed happened⟩

omit [LeaseProvider π] in
/-- What a tick of the engine brings to a node. -/
theorem Kempt.ends_tick (kempt : site.Kempt) {tree : Tree} (loaded : site.runner.tree = some tree)
    (now : Duration) (wallClock : WallClock) (key : RunKey) :
    Ends (BehaviorTree.tick (site.runner.setting tree now wallClock) tree.main)
      site.runner.context
      (fun _ after => ∃ log, Befalls (site.runner.setting tree now wallClock) key
        site.runner.context log after) fun _ _ => True := by
  rcases kempt.accepted tree loaded with ⟨source, accepted⟩
  exact ends_tick_befalls (Tree.wellFormed_ofSource accepted) (Tree.branches_ofSource accepted) key
    (kempt.orderly.ready kempt.housed loaded) kempt.framed

/-- The chronicle of a node agrees with what is remembered at the end of it. -/
theorem Chronicles.orderly (kempt : site.Kempt) (forgetful : site.runner.runs.get? key = none)
    (chronicles : site.Chronicles key deeds chronicle after) :
    after.Kempt ∧ Chronicle.Orderly chronicle ∧
      ∀ tree, after.runner.tree = some tree →
        Chronicle.Agrees chronicle tree after.runner.runs := by
  induction chronicles with
  | nothing =>
    exact ⟨kempt, .nothing, fun tree _ => ⟨fun _ => forgetful, fun _ _ going => by cases going⟩⟩
  | kept _ happened still tree runs ih =>
    rcases ih with ⟨kemptBefore, orderly, agrees⟩
    refine ⟨kemptBefore.undergo happened, orderly, fun same loaded => ?_⟩
    have before := agrees same (tree ▸ loaded)
    rcases runs with kept | detached
    · rw [kept]
      exact before
    · rw [detached]
      exact before.detached
  | forgotten _ happened still runs ih =>
    rcases ih with ⟨kemptBefore, orderly, -⟩
    refine ⟨kemptBefore.undergo happened, .ended orderly, fun tree _ => ?_⟩
    rw [runs]
    exact Chronicle.agrees_ended rfl
  | @ticked _ _ _ middle after now wallClock tree _ _ happened loaded ran befalls ih =>
    rcases ih with ⟨kemptBefore, orderly, agrees⟩
    rcases (kemptBefore.orderly.ticked now wallClock middle.provider).runs_of_ok ran with
      ⟨same, isTree, -, runs, -⟩
    cases loaded.symm.trans isTree
    rcases befalls.continues orderly (agrees tree loaded) with ⟨orderlyAfter, agreesAfter⟩
    have undergone : middle.undergo (.perform now (.tick wallClock)) = .ok after := happened
    refine ⟨kemptBefore.undergo undergone, orderlyAfter, fun other loadedAfter => ?_⟩
    rw [(perform_tick_eq_ok happened).1, Runner.tree_tick, loaded, Option.some.injEq]
      at loadedAfter
    rw [(perform_tick_eq_ok happened).1, runs, ← loadedAfter]
    exact agreesAfter

/-- Whatever a site undergoes, the chronicle of a node goes on. -/
theorem Chronicles.goesOn (kempt : middle.Kempt)
    (before : site.Chronicles key deeds chronicle middle)
    (happened : middle.undergo deed = .ok after) :
    ∃ chronicle, site.Chronicles key (deeds ++ [deed]) chronicle after := by
  by_cases ticks : middle.Ticks deed
  · rcases ticks with ⟨now, wallClock, status, rfl, ran⟩
    have performed : middle.perform now (.tick wallClock) = .ok after := happened
    rcases (kempt.orderly.ticked now wallClock middle.provider).runs_of_ok ran with
      ⟨tree, loaded, evaluated, -⟩
    have befalls := kempt.ends_tick loaded now wallClock key
    have outcomes : outcome
        (BehaviorTree.tick (middle.runner.setting tree now wallClock) tree.main)
        middle.runner.context = (.ok status, (middle.runner.engineTick tree now wallClock).2) :=
      Prod.ext evaluated rfl
    rcases befalls.of_eq_ok outcomes with ⟨log, befalls⟩
    exact ⟨_, before.ticked performed loaded ran befalls⟩
  · cases rests_undergo kempt.orderly happened ticks with
    | kept tree runs => exact ⟨_, before.kept happened ticks tree (Or.inl runs)⟩
    | detached tree runs => exact ⟨_, before.kept happened ticks tree (Or.inr runs)⟩
    | forgotten runs => exact ⟨_, before.forgotten happened ticks runs⟩

section Main

variable {tree : Tree} {node : Node} {now : Duration} {wallClock : WallClock} {status : Status}

omit [RemoteService σ] [LeaseProvider π] in
/-- The root of a mission stands in the tree that was loaded. -/
theorem Kempt.stands (kempt : site.Kempt) (loaded : site.runner.tree = some tree)
    (found : tree.node? tree.main = some node) (now : Duration) (wallClock : WallClock) :
    Standing (site.runner.setting tree now wallClock) tree.nodes.size ⟨0, tree.main⟩ node := by
  rcases kempt.accepted tree loaded with ⟨source, accepted⟩
  have wellFormed := Tree.wellFormed_ofSource accepted
  rcases wellFormed.ranked with ⟨rank, ranking⟩
  exact ⟨wellFormed, Tree.branches_ofSource accepted, found, rank, ranking,
    Nat.le_of_lt (ranking.bounded _ wellFormed.rooted)⟩

/-- A tick that has a status is that of the engine. -/
theorem Kempt.outcome_eq (kempt : site.Kempt) (loaded : site.runner.tree = some tree)
    (ran : (site.runner.tick now wallClock site.provider).1 = .ok status) :
    outcome (tickWithin (site.runner.setting tree now wallClock) (tree.nodes.size + 1) tree.main)
      site.runner.context = (.ok status, (site.runner.engineTick tree now wallClock).2) := by
  rcases (kempt.orderly.ticked now wallClock site.provider).runs_of_ok ran with
    ⟨same, isTree, evaluated, -⟩
  cases loaded.symm.trans isTree
  exact Prod.ext evaluated rfl

/-- A tick of a mission that has a status is a turn of its root. -/
def Kempt.mainTurn (kempt : site.Kempt) (loaded : site.runner.tree = some tree)
    (found : tree.node? tree.main = some node)
    (ran : (site.runner.tick now wallClock site.provider).1 = .ok status) :
    PastTurn σ ⟨0, tree.main⟩ where
  setting := site.runner.setting tree now wallClock
  depth := tree.nodes.size
  node := node
  before := site.runner.context
  status := status
  after := (site.runner.engineTick tree now wallClock).2
  stands := kempt.stands loaded found now wallClock
  ready := kempt.orderly.ready kempt.housed loaded
  framed := kempt.framed
  ran := kempt.outcome_eq loaded ran

theorem Chronicles.goesOn_main {chronicle : Chronicle σ ⟨0, tree.main⟩} (kempt : middle.Kempt)
    (before : site.Chronicles ⟨0, tree.main⟩ deeds chronicle middle)
    (loaded : middle.runner.tree = some tree) (found : tree.node? tree.main = some node)
    (happened : middle.perform now (.tick wallClock) = .ok after)
    (ran : (middle.runner.tick now wallClock middle.provider).1 = .ok status) :
    site.Chronicles ⟨0, tree.main⟩ (deeds ++ [.perform now (.tick wallClock)])
      (.turned (kempt.mainTurn loaded found ran) :: chronicle) after :=
  before.ticked happened loaded ran (.turned (kempt.mainTurn loaded found ran) rfl .nothing)

/-- When a mission is loaded everything is forgotten, and nothing happens to its nodes when it is
played for the first time. -/
theorem chronicles_played (config : MissionConfig) (provider : π) (key : RunKey)
    {mission : AcceptedTree} {loaded played : Site σ π}
    (loads : (start config provider : Site σ π).undergo (.perform now (.load mission)) = .ok loaded)
    (forgets : loaded.runner.runs = .empty)
    (plays : loaded.undergo (.perform now .play) = .ok played)
    (sameTree : played.runner.tree = loaded.runner.tree)
    (sameRuns : played.runner.runs = loaded.runner.runs) :
    played.Kempt ∧ (start config provider : Site σ π).Chronicles key
      [.perform now (.load mission), .perform now .play] [.ended] played := by
  have begun : (start config provider : Site σ π).Chronicles key [] [] (start config provider) :=
    .nothing
  have afterLoad := begun.forgotten loads (by rintro ⟨_, _, _, impossible, -⟩; cases impossible)
    forgets
  refine ⟨((kempt_start config provider).undergo loads).undergo plays, ?_⟩
  exact afterLoad.kept plays (by rintro ⟨_, _, _, impossible, -⟩; cases impossible) sameTree
    (Or.inl sameRuns)

end Main

/-- Every history of a mission has a chronicle of each node. -/
theorem exists_chronicle (config : MissionConfig) (provider : π) (key : RunKey)
    (happened : (start config provider : Site σ π).undergoAll deeds = .ok after) :
    ∃ chronicle, (start config provider : Site σ π).Chronicles key deeds chronicle after := by
  induction deeds using List.reverseRecOn generalizing after with
  | nil =>
    cases happened
    exact ⟨[], .nothing⟩
  | append_singleton deeds deed ih =>
    rcases bind_eq_ok.1 (undergoAll_append.symm.trans happened) with ⟨middle, earlier, last⟩
    rcases undergoAll_cons_eq_ok.1 last with ⟨other, happened, done⟩
    cases done
    rcases ih earlier with ⟨chronicle, before⟩
    have kempt := kept_undergoAll Kempt Kempt.undergo (kempt_start config provider) earlier
    exact before.goesOn kempt happened

/-- Every turn of a node in the course of a mission is the latest one of an activation. -/
theorem Chronicles.activation (config : MissionConfig) (provider : π) {turn : PastTurn σ key}
    {earlier : Chronicle σ key}
    (chronicles : (start config provider : Site σ π).Chronicles key deeds chronicle after)
    (listed : (.turned turn :: earlier) <:+ chronicle) :
    Activation (turn :: Chronicle.ongoing earlier) :=
  (chronicles.orderly (kempt_start config provider) rfl).2.1.activation_of_suffix listed

end Site

end BehaviorTree
