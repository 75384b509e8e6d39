import BehaviorTree.Proofs.Engine.Counting
import BehaviorTree.Proofs.Runner.Chronicles

/-!
# Missions with repeaters and retriers

However often a mission is ticked, stopped and played on, a repeater and a retrier count what their
child reports without a mistake, and start it again with nothing left of earlier starts.
-/

namespace BehaviorTree

namespace Site

variable {σ π : Type} [RemoteService σ] [LeaseProvider π]

/-- A repeater is over with the first failure of its child or with as many successes as it is told,
and a retrier with the first success or with as many failures, of which one is always allowed. Both
tick their child once in every turn, except for a repeater that may not start it at all. -/
theorem starts_child_as_often_as_told (config : MissionConfig) (provider : π)
    (deeds : List (Deed σ π)) (key : RunKey) :
    (∀ chronicle after, (start config provider : Site σ π).Chronicles key deeds chronicle after →
      ∀ (turn : PastTurn σ key) earlier, (.turned turn :: earlier) <:+ chronicle →
        (turn.node.IsFixed (.repeater 0) → turn.status = .success ∧ turn.ticks = []) ∧
        ∀ configuration again stop limit, Configuration.Restarts configuration again stop limit →
          turn.node.IsFixed configuration →
          turn.RestartsAfter again stop limit (Chronicle.ongoing earlier)) ∧
    ∀ after, (start config provider : Site σ π).undergoAll deeds = .ok after →
      ∃ chronicle, (start config provider : Site σ π).Chronicles key deeds chronicle after := by
  refine ⟨?_, fun after happened => exists_chronicle config provider key happened⟩
  intro chronicle after chronicles turn earlier listed
  refine ⟨fun fixed => PastTurn.of_no_starts (fixed.effectiveConfiguration_eq _), ?_⟩
  intro configuration again stop limit restarts fixed
  exact (chronicles.activation config provider listed).restarts restarts fixed

/-- Something is tried twice, which never succeeds. -/
def twoAttempts : MissionSource :=
  ⟨[⟨"main", [], .node "Retry" none [⟨.input, "max_attempts", .constant (.int 2)⟩]
    [.node "ConstantResult" none [⟨.input, "result", .constant (.string "failure")⟩] []]⟩]⟩

set_option maxRecDepth 100000 in
def twoAttemptsTree : AcceptedTree where
  source := twoAttempts
  tree := (Tree.ofSource twoAttempts).toOption.getD default
  accepted := by cbv

def untilAttempts : List (Deed ScriptedService LeaseRegistry) :=
  [.perform .zero (.load twoAttemptsTree), .perform .zero .play]

def beforeAttempts : Site ScriptedService LeaseRegistry :=
  afterAll (start .standard .empty) untilAttempts

def afterOneAttempt : Site ScriptedService LeaseRegistry :=
  afterAll beforeAttempts [.perform .zero (.tick default)]

set_option maxRecDepth 100000 in
theorem isFixed_twoAttempts : ∃ node,
    twoAttemptsTree.tree.node? twoAttemptsTree.tree.main = some node ∧
      node.IsFixed (.retrier 2) :=
  ⟨(twoAttemptsTree.tree.node? twoAttemptsTree.tree.main).getD default, by cbv, by cbv, by cbv⟩

set_option maxRecDepth 100000 in
/-- The first attempt is followed by another one, with which the node gives up. -/
theorem second_attempt_is_last :
    ∃ chronicle after, ∃ first second : PastTurn ScriptedService ⟨0, twoAttemptsTree.tree.main⟩,
      ∃ earlier, (start .standard .empty : Site ScriptedService LeaseRegistry).Chronicles
          ⟨0, twoAttemptsTree.tree.main⟩
          ((untilAttempts ++ [.perform .zero (.tick default)]) ++ [.perform .zero (.tick default)])
          chronicle after ∧
        (.turned second :: .turned first :: earlier) <:+ chronicle ∧
        first.status = .running ∧ second.status = .failure ∧
        second.node.IsFixed (.retrier 2) ∧
        second.RestartsAfter .failure .success 2 (first :: Chronicle.ongoing earlier) := by
  have starts := fun deeds => starts_child_as_often_as_told (σ := ScriptedService)
    (π := LeaseRegistry) .standard .empty deeds ⟨0, twoAttemptsTree.tree.main⟩
  have begun : (start .standard .empty).undergoAll untilAttempts = .ok beforeAttempts := by cbv
  have kempt : beforeAttempts.Kempt :=
    kept_undergoAll Kempt Kempt.undergo (kempt_start .standard .empty) begun
  rcases (starts untilAttempts).2 _ begun with ⟨chronicle, chronicles⟩
  rcases isFixed_twoAttempts with ⟨node, found, fixed⟩
  have loaded : beforeAttempts.runner.tree = some twoAttemptsTree.tree := by cbv
  have running : (beforeAttempts.runner.tick .zero default beforeAttempts.provider).1 =
      .ok .running := by cbv
  have once : beforeAttempts.perform .zero (.tick default) = .ok afterOneAttempt := by cbv
  have onceMore := chronicles.goesOn_main kempt loaded found once running
  have undergone : beforeAttempts.undergo (.perform .zero (.tick default)) = .ok afterOneAttempt :=
    once
  have kemptOnce := kempt.undergo undergone
  have loadedOnce : afterOneAttempt.runner.tree = some twoAttemptsTree.tree := by cbv
  have failed : (afterOneAttempt.runner.tick .zero default afterOneAttempt.provider).1 =
      .ok .failure := by cbv
  have twice : afterOneAttempt.perform .zero (.tick default) =
      .ok (afterAll afterOneAttempt [.perform .zero (.tick default)]) := by cbv
  have twiceMore := onceMore.goesOn_main kemptOnce loadedOnce found twice failed
  exact ⟨_, _, kempt.mainTurn loaded found running, kemptOnce.mainTurn loadedOnce found failed,
    chronicle, twiceMore, List.suffix_rfl, rfl, rfl, fixed,
    ((starts _).1 _ _ twiceMore _ _ List.suffix_rfl).2 _ _ _ _ .retrier fixed⟩

end Site

end BehaviorTree
