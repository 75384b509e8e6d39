import BehaviorTree.Proofs.Engine.Resuming
import BehaviorTree.Proofs.Runner.Chronicles

/-!
# Missions with sequences and selectors

However often a mission is ticked, stopped and played on, a sequence or a selector ticks its
children one after the other, as long as nothing ends its activation.
-/

namespace BehaviorTree

namespace Site

variable {σ π : Type} [RemoteService σ] [LeaseProvider π]

/-- In every turn of an activation a node that resumes goes on with the children that are left, and
it is over when the last one passes or when one stops it. -/
theorem goes_on_with_children_left (config : MissionConfig) (provider : π)
    (deeds : List (Deed σ π)) (key : RunKey) {configuration : Configuration} {pass stop : Status}
    (resumes : configuration.Resumes pass stop) :
    (∀ chronicle after, (start config provider : Site σ π).Chronicles key deeds chronicle after →
      ∀ (turn : PastTurn σ key) earlier, (.turned turn :: earlier) <:+ chronicle →
        turn.node.IsFixed configuration →
        turn.ResumesAfter pass stop (Chronicle.ongoing earlier)) ∧
    ∀ after, (start config provider : Site σ π).undergoAll deeds = .ok after →
      ∃ chronicle, (start config provider : Site σ π).Chronicles key deeds chronicle after := by
  refine ⟨?_, fun after happened => exists_chronicle config provider key happened⟩
  intro chronicle after chronicles turn earlier listed fixed
  exact (chronicles.activation config provider listed).resumes resumes fixed

/-- A robot waits twice. -/
def twoSteps : MissionSource :=
  let wait : NodeSource := .node "Sleep" none [⟨.input, "seconds", .constant (.int 10)⟩] []
  ⟨[⟨"main", [], .node "Sequence" none [] [wait, wait]⟩]⟩

set_option maxRecDepth 100000 in
def twoStepsTree : AcceptedTree where
  source := twoSteps
  tree := (Tree.ofSource twoSteps).toOption.getD default
  accepted := by cbv

def firstStep : List (Deed ScriptedService LeaseRegistry) :=
  [.perform .zero (.load twoStepsTree), .perform .zero .play, .perform .zero (.tick default)]

def afterFirstStep : Site ScriptedService LeaseRegistry :=
  afterAll (start .standard .empty) firstStep

set_option maxRecDepth 100000 in
theorem undergoAll_firstStep :
    (start .standard .empty).undergoAll firstStep = .ok afterFirstStep := by cbv

set_option maxRecDepth 100000 in
theorem isFixed_twoSteps : ∃ node,
    twoStepsTree.tree.node? twoStepsTree.tree.main = some node ∧
      node.IsFixed (.sequence false) :=
  ⟨(twoStepsTree.tree.node? twoStepsTree.tree.main).getD default, by cbv, by cbv, by cbv⟩

set_option maxRecDepth 100000 in
/-- After ten seconds the robot is done with the first wait and goes on with the second one. -/
theorem second_step_follows :
    (Configuration.sequence false).Resumes .success .failure ∧
      ∃ chronicle after, ∃ turn : PastTurn ScriptedService ⟨0, twoStepsTree.tree.main⟩, ∃ earlier,
        (start .standard .empty : Site ScriptedService LeaseRegistry).Chronicles
          ⟨0, twoStepsTree.tree.main⟩ (firstStep ++ [.perform tenSeconds (.tick default)])
          chronicle after ∧
        (.turned turn :: earlier) <:+ chronicle ∧ turn.node.IsFixed (.sequence false) ∧
        turn.status = .running ∧
        turn.ResumesAfter .success .failure (Chronicle.ongoing earlier) := by
  have goes_on := fun deeds => goes_on_with_children_left (σ := ScriptedService)
    (π := LeaseRegistry) .standard .empty deeds ⟨0, twoStepsTree.tree.main⟩ .sequence
  rcases (goes_on firstStep).2 _ undergoAll_firstStep with ⟨chronicle, chronicles⟩
  have kempt : afterFirstStep.Kempt :=
    kept_undergoAll Kempt Kempt.undergo (kempt_start .standard .empty) undergoAll_firstStep
  have happened : afterFirstStep.perform tenSeconds (.tick default) =
      .ok ((afterFirstStep.perform tenSeconds (.tick default)).toOption.getD afterFirstStep) := by
    cbv
  have loaded : afterFirstStep.runner.tree = some twoStepsTree.tree := by cbv
  have ran : (afterFirstStep.runner.tick tenSeconds default afterFirstStep.provider).1 =
      .ok .running := by cbv
  rcases isFixed_twoSteps with ⟨node, found, fixed⟩
  have later := chronicles.goesOn_main kempt loaded found happened ran
  exact ⟨.sequence, _, _, kempt.mainTurn loaded found ran, chronicle, later, List.suffix_rfl, fixed,
    rfl, (goes_on _).1 _ _ later _ chronicle List.suffix_rfl fixed⟩

end Site

end BehaviorTree
