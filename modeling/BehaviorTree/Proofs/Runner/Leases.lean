import BehaviorTree.Proofs.Lease.Holder
import BehaviorTree.Proofs.Runner.MissionTime

/-!
# Leases of runners

A runner acquires the leases of its tree when it starts playing, renews what it holds on every tick,
and gives everything back when it is stopped or the mission is over. No other operation concerns its
leases.
-/

namespace BehaviorTree

variable {σ π : Type} [RemoteService σ] [LeaseProvider π]

namespace Runner

variable {runner after : Runner σ} {provider later : π} {now : Duration} {wallClock : WallClock}
  {tree : Tree} {leases : LeaseHolder}

/-- A tick that finds the runner and the provider so evaluates a tree, with the leases that the
renewal leaves. -/
def Evaluates (runner : Runner σ) (provider : π) (tree : Tree) (leases : LeaseHolder)
    (later : π) : Prop :=
  runner.state = .playing ∧ runner.tree = some tree ∧
    ∃ refusals, runner.leases.retainAll provider = (.ok refusals, leases, later)

theorem tick_of_waiting (waiting : runner.state ≠ .playing) :
    runner.tick now wallClock provider = (.error (.error .notPlaying), runner, provider) := by
  simp [tick, waiting]

theorem tick_of_unloaded {refusals : List LeaseError} (playing : runner.state = .playing)
    (renewed : runner.leases.retainAll provider = (.ok refusals, leases, later))
    (unloaded : runner.tree = none) :
    runner.tick now wallClock provider =
      (.error (.error .notLoaded), { runner with leases := leases }, later) := by
  simp [tick, playing, renewed, unloaded]

theorem Evaluates.tick_eq (evaluates : runner.Evaluates provider tree leases later) :
    runner.tick now wallClock provider =
      ({ runner with leases := leases }.absorb (runner.engineTick tree now wallClock).2).conclude
        later (runner.engineTick tree now wallClock).1
        (runner.engineTick tree now wallClock).2.innermost := by
  rcases evaluates with ⟨playing, loaded, refusals, renewed⟩
  simp only [tick, playing, renewed, loaded, ne_eq, not_true_eq_false, ↓reduceIte]
  rfl

/-- A tick evaluates the tree, or it is refused before that. -/
theorem tick_evaluates_cases (runner : Runner σ) (now : Duration) (wallClock : WallClock)
    (provider : π) :
    (runner.state ≠ .playing ∧
      runner.tick now wallClock provider = (.error (.error .notPlaying), runner, provider)) ∨
    (runner.state = .playing ∧
      (∀ tree leases later, ¬ runner.Evaluates provider tree leases later) ∧
      ∃ cause, runner.tick now wallClock provider =
        (.error (.error cause), { runner with leases := (runner.leases.retainAll provider).2.1 },
          (runner.leases.retainAll provider).2.2)) ∨
    ∃ tree leases later, runner.Evaluates provider tree leases later ∧
      runner.tick now wallClock provider =
        ({ runner with leases := leases }.absorb (runner.engineTick tree now wallClock).2).conclude
          later (runner.engineTick tree now wallClock).1
          (runner.engineTick tree now wallClock).2.innermost := by
  by_cases playing : runner.state = .playing
  · right
    rcases renewed : runner.leases.retainAll provider with ⟨fault | refusals, leases, later⟩
    · left
      refine ⟨playing, ?_, .engine (.leaseBookkeeping fault), ?_⟩
      · rintro tree others last ⟨-, -, refusals, same⟩
        rw [renewed] at same
        cases same
      · simp [tick, playing, renewed]
    · rcases Option.eq_none_or_eq_some runner.tree with unloaded | ⟨tree, loaded⟩
      · left
        refine ⟨playing, ?_, .notLoaded, tick_of_unloaded playing renewed unloaded⟩
        rintro tree others last ⟨-, same, -⟩
        rw [unloaded] at same
        cases same
      · right
        have evaluates : runner.Evaluates provider tree leases later :=
          ⟨playing, loaded, refusals, renewed⟩
        exact ⟨tree, leases, later, evaluates, evaluates.tick_eq⟩
  · left
    exact ⟨playing, tick_of_waiting playing⟩

theorem stop_leases : ((runner.stop provider).1.leases, (runner.stop provider).2) =
    runner.leases.releaseAll provider := by
  simp only [stop]
  split <;> rfl

omit [LeaseProvider π] in
theorem reset_keeps (runner : Runner σ) : runner.reset.leases = runner.leases ∧
    runner.reset.tree = runner.tree ∧ runner.reset.state = runner.state := by
  rw [reset_eq]
  exact ⟨rfl, rfl, rfl⟩

/-- A mission that goes on keeps its leases, and one that does not gives them back. -/
theorem conclude_cases {result : Except (Failure EngineError) Status} {active : Option RunKey}
    {outcome : Except (Failure MissionError) Status}
    (concluded : runner.conclude provider result active = (outcome, after, later)) :
    (after.leases = runner.leases ∧ later = provider ∧ after.tree = runner.tree) ∨
      ((after.leases, later) = runner.leases.releaseAll provider ∧ after.state ≠ .playing) := by
  cases result with
  | error failure =>
    simp only [conclude, Prod.mk.injEq] at concluded
    rcases concluded with ⟨-, stopped⟩
    right
    rw [← stop_leases, stopped]
    refine ⟨rfl, ?_⟩
    have notPlaying : (runner.stop provider).1.state ≠ .playing := state_stop_ne
    rwa [stopped] at notPlaying
  | ok status =>
    simp only [conclude] at concluded
    split at concluded
    · cases concluded
      exact Or.inl ⟨rfl, rfl, rfl⟩
    · cases concluded
      exact Or.inr ⟨rfl, fun impossible => by cases impossible⟩

omit [LeaseProvider π] in
theorem prepare_keeps (runner : Runner σ) : runner.prepare.leases = runner.leases ∧
    runner.prepare.tree = runner.tree := by
  simp only [prepare]
  split
  · exact ⟨(reset_keeps _).1, (reset_keeps _).2.1⟩
  · split
    · exact ⟨(reset_keeps _).1, (reset_keeps _).2.1⟩
    · exact ⟨rfl, rfl⟩
  · split
    · exact ⟨(reset_keeps _).1, (reset_keeps _).2.1⟩
    · exact ⟨rfl, rfl⟩
  · exact ⟨rfl, rfl⟩
  · exact ⟨rfl, rfl⟩

omit [LeaseProvider π] in
theorem restart_keeps (runner : Runner σ) (now : Duration) :
    (runner.restart now).leases = runner.leases ∧ (runner.restart now).tree = runner.tree ∧
      ((runner.restart now).state = .playing → runner.state = .playing) := by
  rcases reset_keeps runner with ⟨leases, tree, state⟩
  simp only [restart]
  split
  · exact ⟨leases, tree, by simp⟩
  · rename_i playing
    exact ⟨leases, tree, fun _ => state ▸ playing⟩
  · exact ⟨leases, tree, fun playing => state ▸ playing⟩

end Runner

/-- What an operation does to the leases of a runner, and whether the mission is playing then. -/
inductive Site.Leasing (site : Site σ π) : Operation σ π → Site σ π → Prop
  | kept {operation : Operation σ π} {after : Site σ π}
      (leases : after.runner.leases = site.runner.leases)
      (provider : after.provider = site.provider)
      (plays : after.runner.state = .playing →
        site.runner.state = .playing ∧ after.runner.tree = site.runner.tree)
      (quiet : site.runner.state = .playing → ∀ wallClock, operation ≠ .tick wallClock) :
      Leasing site operation after
  | competed (change : π → π) :
      Leasing site (.compete change) { site with provider := change site.provider }
  | released {operation : Operation σ π} {after : Site σ π}
      (released : (after.runner.leases, after.provider) =
        site.runner.leases.releaseAll site.provider)
      (notPlaying : after.runner.state ≠ .playing) : Leasing site operation after
  | acquired {tree : Tree} {after : Site σ π} (waiting : site.runner.state ≠ .playing)
      (loaded : site.runner.tree = some tree) (same : after.runner.tree = some tree)
      (granted : site.runner.leases.acquireAll site.provider tree.leaseResources =
        (.ok after.runner.leases, after.provider)) : Leasing site .play after
  | refused {tree : Tree} {cause : LeaseError} {later : π}
      (waiting : site.runner.state ≠ .playing)
      (denied : site.runner.leases.acquireAll site.provider tree.leaseResources =
        (.error cause, later)) : Leasing site .play { site with provider := later }
  | renewed {wallClock : WallClock} {after : Site σ π} (playing : site.runner.state = .playing)
      (renewed : (after.runner.leases, after.provider) =
        (site.runner.leases.retainAll site.provider).2)
      (tree : after.runner.tree = site.runner.tree) : Leasing site (.tick wallClock) after
  | ended {wallClock : WallClock} {after : Site σ π} {leases : LeaseHolder} {later : π}
      (renewed : (leases, later) = (site.runner.leases.retainAll site.provider).2)
      (released : (after.runner.leases, after.provider) = leases.releaseAll later)
      (notPlaying : after.runner.state ≠ .playing) : Leasing site (.tick wallClock) after

namespace Site

variable {site after : Site σ π} {now : Duration} {operation : Operation σ π}

omit [RemoteService σ] in
/-- An operation concerns neither leases nor what the runner is doing. -/
theorem Leasing.unconcerned (leases : after.runner.leases = site.runner.leases)
    (provider : after.provider = site.provider) (state : after.runner.state = site.runner.state)
    (tree : after.runner.tree = site.runner.tree)
    (quiet : ∀ wallClock, operation ≠ .tick wallClock) : site.Leasing operation after :=
  .kept leases provider (fun playing => ⟨state ▸ playing, tree⟩) fun _ => quiet

theorem leasing_play (performed : site.perform now .play = .ok after) :
    site.Leasing .play after := by
  simp only [perform] at performed
  split at performed
  · rename_i played
    cases performed
    cases Runner.played_of_play played with
    | already => exact .unconcerned rfl rfl rfl rfl (by simp)
    | @started tree leases _ waiting loaded granted =>
      rcases Runner.prepare_keeps { site.runner with leases := leases } with ⟨same, kept⟩
      exact .acquired waiting loaded (kept.trans loaded)
        (granted.trans (congrArg (fun held => (Except.ok held, _)) same.symm))
  · rename_i played
    cases performed
    simp only [Runner.play] at played
    split at played
    · cases played
      exact .unconcerned rfl rfl rfl rfl (by simp)
    · split at played
      · cases played
      · rename_i waiting
        split at played
        · rename_i denied
          cases played
          exact .refused waiting denied
        · cases played

theorem leasing_tick {wallClock : WallClock}
    (performed : site.perform now (.tick wallClock) = .ok after) :
    site.Leasing (.tick wallClock) after := by
  have ticked : ∃ result, site.runner.tick now wallClock site.provider =
      (result, after.runner, after.provider) := by
    simp only [perform] at performed
    split at performed
    · cases performed
    · rename_i ticked
      cases performed
      exact ⟨_, ticked⟩
  rcases ticked with ⟨result, ticked⟩
  rcases site.runner.tick_evaluates_cases now wallClock site.provider with
    ⟨waiting, refused⟩ | ⟨playing, -, cause, refused⟩ |
    ⟨tree, leases, later, ⟨playing, -, refusals, renewed⟩, evaluated⟩
  · rw [ticked, Prod.mk.injEq, Prod.mk.injEq] at refused
    rcases refused with ⟨-, same, kept⟩
    exact .kept (by rw [same]) kept (fun playing => ⟨same ▸ playing, by rw [same]⟩)
      fun playing => absurd playing waiting
  · rw [ticked, Prod.mk.injEq, Prod.mk.injEq] at refused
    rcases refused with ⟨-, same, kept⟩
    exact .renewed playing (by rw [same, kept]) (by rw [same])
  · rw [ticked] at evaluated
    rcases Runner.conclude_cases evaluated.symm with ⟨same, kept, tree⟩ | ⟨released, notPlaying⟩
    · exact .renewed playing (by rw [renewed, same, kept]; rfl) tree
    · exact .ended (by rw [renewed]; rfl) released notPlaying

theorem leasing_perform (performed : site.perform now operation = .ok after) :
    site.Leasing operation after := by
  cases operation with
  | register name service =>
    cases performed
    exact .unconcerned rfl rfl rfl rfl (by simp)
  | load accepted =>
    cases performed
    refine .released ?_ fun impossible => by cases impossible
    rw [← Runner.stop_leases, ← (Runner.reset_keeps (site.runner.stop site.provider).1).1]
    rfl
  | define name value =>
    rcases perform_define_eq_ok performed with ⟨blackboard, rfl⟩
    exact .unconcerned rfl rfl rfl rfl (by simp)
  | write name value =>
    rcases perform_write_eq_ok performed with ⟨blackboard, rfl⟩
    exact .unconcerned rfl rfl rfl rfl (by simp)
  | play => exact leasing_play performed
  | pause =>
    cases performed
    simp only [Runner.pause]
    split
    · exact .kept rfl rfl (by simp) (by simp)
    · exact .unconcerned rfl rfl rfl rfl (by simp)
  | stop =>
    cases performed
    exact .released Runner.stop_leases Runner.state_stop_ne
  | restart =>
    cases performed
    rcases site.runner.restart_keeps now with ⟨leases, tree, state⟩
    exact .kept leases rfl (fun playing => ⟨state playing, tree⟩) (by simp)
  | tick wallClock => exact leasing_tick performed
  | compete change =>
    cases performed
    exact .competed change

end Site

end BehaviorTree
