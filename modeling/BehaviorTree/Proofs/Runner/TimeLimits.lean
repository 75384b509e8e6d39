import BehaviorTree.Proofs.Engine.TimeLimits
import BehaviorTree.Proofs.Runner.Chronicles

/-!
# Missions with time limits

A node that gives its first child a limited time keeps to what it was told when its activation
began. Missions may be ticked at any times, and variables by which the node is told the duration may
change meanwhile.
-/

namespace BehaviorTree

namespace Site

variable {σ π : Type} [RemoteService σ] [LeaseProvider π]

/-- In every turn of an activation the first child is ticked if no turn so far was too late for it,
and else the other child, if there is one. The first turn that is too late leaves nothing of the
first child. What the node is told in later turns does not matter, as long as it can be bound. -/
theorem first_child_has_limited_time (config : MissionConfig) (provider : π)
    (deeds : List (Deed σ π)) (key : RunKey) :
    (∀ chronicle after, (start config provider : Site σ π).Chronicles key deeds chronicle after →
      ∀ (turn first : PastTurn σ key) earlier told duration,
        (.turned turn :: earlier) <:+ chronicle →
        turn.node.effectiveConfiguration turn.before = .ok (.forDuration told) →
        (turn :: Chronicle.ongoing earlier).getLast? = some first →
        first.node.effectiveConfiguration first.before = .ok (.forDuration duration) →
        ∃ main, ∃ fallback : Option NodeIndex, ∃ deadline,
          turn.node.children = main :: fallback.toList ∧
          first.setting.now.add? duration = some deadline ∧
          turn.LimitsAfter main fallback deadline (Chronicle.ongoing earlier)) ∧
    ∀ after, (start config provider : Site σ π).undergoAll deeds = .ok after →
      ∃ chronicle, (start config provider : Site σ π).Chronicles key deeds chronicle after := by
  refine ⟨?_, fun after happened => exists_chronicle config provider key happened⟩
  intro chronicle after chronicles turn first earlier told duration listed effective isFirst began
  have activation := chronicles.activation config provider listed
  have kind : turn.node.kind = .forDuration := (turn.fits.effective_kind effective).symm
  rcases turn.exists_children kind with ⟨main, fallback, children⟩
  rcases activation.limits children effective isFirst began with ⟨deadline, settled, limits⟩
  exact ⟨main, fallback, deadline, children, settled, limits⟩

/-- Something would take five seconds, for which there is no time. -/
def hurried : MissionSource :=
  let wait (seconds : Int64) : NodeSource :=
    .node "Sleep" none [⟨.input, "seconds", .constant (.int seconds)⟩] []
  ⟨[⟨"main", [], .node "ForDuration" none [⟨.input, "duration", .constant (.int 0)⟩]
    [wait 5, wait 15]⟩]⟩

set_option maxRecDepth 100000 in
def hurriedTree : AcceptedTree where
  source := hurried
  tree := (Tree.ofSource hurried).toOption.getD default
  accepted := by cbv

def hurriedLoaded : Site ScriptedService LeaseRegistry :=
  afterAll (start .standard .empty) [.perform .zero (.load hurriedTree)]

def hurriedPlayed : Site ScriptedService LeaseRegistry :=
  afterAll hurriedLoaded [.perform .zero .play]

def hurriedTicked : Site ScriptedService LeaseRegistry :=
  afterAll hurriedPlayed [.perform .zero (.tick default)]

def hurriedNode : Node := (hurriedTree.tree.node? hurriedTree.tree.main).getD default

set_option maxRecDepth 100000 in
theorem chronicles_hurriedPlayed : hurriedPlayed.Kempt ∧
    (start .standard .empty : Site ScriptedService LeaseRegistry).Chronicles
      ⟨0, hurriedTree.tree.main⟩
      [.perform .zero (.load hurriedTree), .perform .zero .play] [.ended] hurriedPlayed := by
  have loads : (start .standard .empty : Site ScriptedService LeaseRegistry).undergo
      (.perform .zero (.load hurriedTree)) = .ok hurriedLoaded := by cbv
  have plays : hurriedLoaded.undergo (.perform .zero .play) = .ok hurriedPlayed := by cbv
  exact chronicles_played .standard .empty _ loads (by cbv) plays (by cbv) (by cbv)

set_option maxRecDepth 100000 in
theorem found_hurriedNode :
    hurriedTree.tree.node? hurriedTree.tree.main = some hurriedNode := by cbv

set_option maxRecDepth 100000 in
theorem isFixed_hurriedNode : hurriedNode.IsFixed (.forDuration .zero) := ⟨by cbv, by cbv⟩

set_option maxRecDepth 100000 in
/-- The first turn of the node. -/
def hurriedTurn : PastTurn ScriptedService ⟨0, hurriedTree.tree.main⟩ :=
  chronicles_hurriedPlayed.1.mainTurn (by cbv) found_hurriedNode
    (show (hurriedPlayed.runner.tick .zero default hurriedPlayed.provider).1 = .ok .running by cbv)

set_option maxRecDepth 100000 in
theorem kempt_hurriedTicked : hurriedTicked.Kempt :=
  chronicles_hurriedPlayed.1.undergo
    (show hurriedPlayed.undergo (.perform .zero (.tick default)) = .ok hurriedTicked by cbv)

set_option maxRecDepth 100000 in
/-- The second turn of the node, after ten seconds. -/
def waitingTurn : PastTurn ScriptedService ⟨0, hurriedTree.tree.main⟩ :=
  kempt_hurriedTicked.mainTurn (by cbv) found_hurriedNode
    (show (hurriedTicked.runner.tick tenSeconds default hurriedTicked.provider).1 =
      .ok .running by cbv)

set_option maxRecDepth 100000 in
theorem chronicles_waitingTurn :
    (start .standard .empty : Site ScriptedService LeaseRegistry).Chronicles
      ⟨0, hurriedTree.tree.main⟩
      (([.perform .zero (.load hurriedTree), .perform .zero .play] ++
        [.perform .zero (.tick default)]) ++ [.perform tenSeconds (.tick default)])
      [.turned waitingTurn, .turned hurriedTurn, .ended]
      (afterAll hurriedTicked [.perform tenSeconds (.tick default)]) := by
  have first := chronicles_hurriedPlayed.2.goesOn_main chronicles_hurriedPlayed.1 (by cbv)
    found_hurriedNode
    (show hurriedPlayed.perform .zero (.tick default) = .ok hurriedTicked by cbv) (by cbv)
  exact first.goesOn_main kempt_hurriedTicked (by cbv) found_hurriedNode (by cbv) (by cbv)

set_option maxRecDepth 100000 in
/-- The second step is taken at once, and the first one is not tried later. -/
theorem only_second_step_taken :
    waitingTurn.node.effectiveConfiguration waitingTurn.before = .ok (.forDuration .zero) ∧
      [waitingTurn, hurriedTurn].getLast? = some hurriedTurn ∧
      hurriedTurn.node.effectiveConfiguration hurriedTurn.before = .ok (.forDuration .zero) ∧
      ∃ main other, waitingTurn.node.children = [main, other] ∧
        waitingTurn.ticks = [(other, .running)] ∧
        waitingTurn.LimitsAfter main (some other) .zero [hurriedTurn] := by
  have told := isFixed_hurriedNode.effectiveConfiguration_eq waitingTurn.before
  have toldFirst := isFixed_hurriedNode.effectiveConfiguration_eq hurriedTurn.before
  have suffix : (.turned waitingTurn :: [.turned hurriedTurn, .ended]) <:+
      ([.turned waitingTurn, .turned hurriedTurn, .ended] :
        Chronicle ScriptedService ⟨0, hurriedTree.tree.main⟩) := List.suffix_rfl
  rcases (first_child_has_limited_time .standard LeaseRegistry.empty _ _).1 _ _
    chronicles_waitingTurn waitingTurn hurriedTurn _ _ _ suffix told rfl toldFirst with
    ⟨main, fallback, deadline, children, settled, limits⟩
  have isDeadline : hurriedTurn.setting.now.add? .zero = some .zero := by cbv
  rw [isDeadline, Option.some.injEq] at settled
  subst settled
  have two : waitingTurn.node.children.length = 2 := by cbv
  cases fallback with
  | none => simp [children] at two
  | some other =>
    refine ⟨told, rfl, toldFirst, main, other, children, ?_, limits⟩
    exact (limits.late ⟨waitingTurn, List.mem_cons_self, Nat.zero_le _⟩).1 other rfl

end Site

end BehaviorTree
