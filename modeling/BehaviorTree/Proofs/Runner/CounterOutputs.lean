import BehaviorTree.Proofs.Engine.CounterOutputs
import BehaviorTree.Proofs.Runner.Chronicles

/-!
# Missions that put out counters

A repeater that is running always tells how often its child has succeeded, and a retrier tells how
often its child has failed as soon as it has failed once. A retrier does not tell that its child has
not failed yet: then the variable holds what an earlier activation left, or does not exist.
-/

namespace BehaviorTree

namespace Site

variable {σ π : Type} [RemoteService σ] [LeaseProvider π]

/-- After every turn that leaves a repeater or a retrier running, the variable for its counter holds
what was counted in the activation, as long as nobody else changes it. That of a retrier holds what
it held when the activation began until the child fails. -/
theorem running_counters_tell (config : MissionConfig) (provider : π) (deeds : List (Deed σ π))
    (key : RunKey) :
    (∀ chronicle after, (start config provider : Site σ π).Chronicles key deeds chronicle after →
      ∀ (turn : PastTurn σ key) earlier name, (.turned turn :: earlier) <:+ chronicle →
        turn.status = .running →
        turn.node.outputs.get? turn.node.kind.counterPort = some name →
        LeftAlone name (turn :: Chronicle.ongoing earlier) →
        (turn.node.kind = .repeater → turn.after.held name =
          some (.int (.ofNat (countOf .success (turn :: Chronicle.ongoing earlier))))) ∧
        (turn.node.kind = .retrier → turn.after.held name =
          if countOf .failure (turn :: Chronicle.ongoing earlier) = 0 then
            ((turn :: Chronicle.ongoing earlier).getLast (List.cons_ne_nil _ _)).before.held name
          else some (.int (.ofNat (countOf .failure (turn :: Chronicle.ongoing earlier)))))) ∧
    ∀ after, (start config provider : Site σ π).undergoAll deeds = .ok after →
      ∃ chronicle, (start config provider : Site σ π).Chronicles key deeds chronicle after := by
  refine ⟨?_, fun after happened => exists_chronicle config provider key happened⟩
  intro chronicle after chronicles turn earlier name listed running mapped alone
  have activation := chronicles.activation config provider listed
  exact ⟨activation.repeater_tells running alone mapped,
    activation.retrier_tells running alone mapped⟩

/-- Something takes a while and fails in the end, and is tried again. -/
def slowAttempts : MissionSource :=
  let attempt : NodeSource := .node "Sequence" none []
    [.node "Sleep" none [⟨.input, "seconds", .constant (.int 2)⟩] [],
      .node "ConstantResult" none [⟨.input, "result", .constant (.string "failure")⟩] []]
  ⟨[⟨"main", [], .node "Retry" none
    [⟨.input, "max_attempts", .constant (.int 3)⟩, ⟨.output, "attempt", .path "tries"⟩]
    [attempt]⟩]⟩

set_option maxRecDepth 100000 in
def slowAttemptsTree : AcceptedTree where
  source := slowAttempts
  tree := (Tree.ofSource slowAttempts).toOption.getD default
  accepted := by cbv

def slowLoaded : Site ScriptedService LeaseRegistry :=
  afterAll (start .standard .empty) [.perform .zero (.load slowAttemptsTree)]

def slowPlayed : Site ScriptedService LeaseRegistry := afterAll slowLoaded [.perform .zero .play]

def slowTicked : Site ScriptedService LeaseRegistry :=
  afterAll slowPlayed [.perform .zero (.tick default)]

def slowNode : Node := (slowAttemptsTree.tree.node? slowAttemptsTree.tree.main).getD default

set_option maxRecDepth 100000 in
/-- Before the first tick nothing has happened to the node. -/
theorem chronicles_slowPlayed : slowPlayed.Kempt ∧
    (start .standard .empty : Site ScriptedService LeaseRegistry).Chronicles
      ⟨0, slowAttemptsTree.tree.main⟩
      [.perform .zero (.load slowAttemptsTree), .perform .zero .play] [.ended] slowPlayed := by
  have loads : (start .standard .empty : Site ScriptedService LeaseRegistry).undergo
      (.perform .zero (.load slowAttemptsTree)) = .ok slowLoaded := by cbv
  have plays : slowLoaded.undergo (.perform .zero .play) = .ok slowPlayed := by cbv
  exact chronicles_played .standard .empty _ loads (by cbv) plays (by cbv) (by cbv)

set_option maxRecDepth 100000 in
theorem found_slowNode :
    slowAttemptsTree.tree.node? slowAttemptsTree.tree.main = some slowNode := by cbv

set_option maxRecDepth 100000 in
/-- The first turn of the node, in which its child waits. -/
def slowTurn : PastTurn ScriptedService ⟨0, slowAttemptsTree.tree.main⟩ :=
  chronicles_slowPlayed.1.mainTurn (by cbv) found_slowNode
    (show (slowPlayed.runner.tick .zero default slowPlayed.provider).1 = .ok .running by cbv)

set_option maxRecDepth 100000 in
theorem chronicles_slowTurn :
    (start .standard .empty : Site ScriptedService LeaseRegistry).Chronicles
      ⟨0, slowAttemptsTree.tree.main⟩
      ([.perform .zero (.load slowAttemptsTree), .perform .zero .play] ++
        [.perform .zero (.tick default)]) [.turned slowTurn, .ended] slowTicked :=
  chronicles_slowPlayed.2.goesOn_main chronicles_slowPlayed.1 (by cbv) found_slowNode (by cbv)
    (by cbv)

set_option maxRecDepth 100000 in
theorem leftAlone_slowTurn : LeftAlone "tries" [slowTurn] := by
  refine ⟨?_, .singleton _⟩
  intro turn listed
  cases List.mem_singleton.1 listed
  cbv

set_option maxRecDepth 100000 in
/-- While the child waits for the first time, nothing tells that it has not failed. -/
theorem nothing_told_before_first_failure :
    ∃ chronicle after, ∃ turn : PastTurn ScriptedService ⟨0, slowAttemptsTree.tree.main⟩,
      ∃ earlier, (start .standard .empty : Site ScriptedService LeaseRegistry).Chronicles
          ⟨0, slowAttemptsTree.tree.main⟩
          ([.perform .zero (.load slowAttemptsTree), .perform .zero .play] ++
            [.perform .zero (.tick default)]) chronicle after ∧
        (.turned turn :: earlier) <:+ chronicle ∧ turn.status = .running ∧
        turn.node.kind = .retrier ∧ turn.node.outputs.get? "attempt" = some "tries" ∧
        LeftAlone "tries" (turn :: Chronicle.ongoing earlier) ∧
        turn.after.held "tries" ≠
          some (.int (.ofNat (countOf .failure (turn :: Chronicle.ongoing earlier)))) := by
  refine ⟨_, _, slowTurn, [.ended], chronicles_slowTurn, List.suffix_rfl, rfl, by cbv, by cbv,
    leftAlone_slowTurn, ?_⟩
  have untold : slowTurn.after.held "tries" = none := by cbv
  simp [untold]

set_option maxRecDepth 100000 in
theorem kempt_slowTicked : slowTicked.Kempt :=
  chronicles_slowPlayed.1.undergo
    (show slowPlayed.undergo (.perform .zero (.tick default)) = .ok slowTicked by cbv)

set_option maxRecDepth 100000 in
/-- The second turn of the node, in which its child fails for the first time. -/
def failingTurn : PastTurn ScriptedService ⟨0, slowAttemptsTree.tree.main⟩ :=
  kempt_slowTicked.mainTurn (by cbv) found_slowNode
    (show (slowTicked.runner.tick tenSeconds default slowTicked.provider).1 = .ok .running by cbv)

set_option maxRecDepth 100000 in
theorem chronicles_failingTurn :
    (start .standard .empty : Site ScriptedService LeaseRegistry).Chronicles
      ⟨0, slowAttemptsTree.tree.main⟩
      (([.perform .zero (.load slowAttemptsTree), .perform .zero .play] ++
        [.perform .zero (.tick default)]) ++ [.perform tenSeconds (.tick default)])
      [.turned failingTurn, .turned slowTurn, .ended]
      (afterAll slowTicked [.perform tenSeconds (.tick default)]) :=
  chronicles_slowTurn.goesOn_main kempt_slowTicked (by cbv) found_slowNode (by cbv) (by cbv)

set_option maxRecDepth 100000 in
theorem leftAlone_failingTurn : LeftAlone "tries" [failingTurn, slowTurn] := by
  refine ⟨?_, .cons_cons (by cbv) (.singleton _)⟩
  intro turn listed
  rcases List.mem_cons.1 listed with rfl | earlier
  · cbv
  · exact leftAlone_slowTurn.within turn earlier

set_option maxRecDepth 100000 in
/-- Once the child has failed, the variable tells that it has failed once. -/
theorem told_after_first_failure :
    failingTurn.status = .running ∧ failingTurn.node.kind = .retrier ∧
      failingTurn.node.outputs.get? failingTurn.node.kind.counterPort = some "tries" ∧
      LeftAlone "tries" [failingTurn, slowTurn] ∧
      countOf .failure [failingTurn, slowTurn] = 1 ∧
      failingTurn.after.held "tries" = some (.int 1) := by
  have kind : failingTurn.node.kind = .retrier := by cbv
  have mapped : failingTurn.node.outputs.get? failingTurn.node.kind.counterPort =
      some "tries" := by cbv
  have once : countOf .failure [failingTurn, slowTurn] = 1 := by cbv
  have tell := (running_counters_tell .standard LeaseRegistry.empty _ _).1 _ _
    chronicles_failingTurn failingTurn [.turned slowTurn, .ended] "tries" List.suffix_rfl rfl mapped
    leftAlone_failingTurn
  have told := tell.2 kind
  rw [show Chronicle.ongoing [.turned slowTurn, .ended] = [slowTurn] from rfl, once] at told
  exact ⟨rfl, kind, mapped, leftAlone_failingTurn, once, told⟩

end Site

end BehaviorTree
