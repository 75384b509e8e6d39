import BehaviorTree.Proofs.Blackboard.Bindings
import BehaviorTree.Proofs.Runner.Parameters
import BehaviorTree.Proofs.Source.RoundTrip

/-!
# Paths of outputs

An output goes to the variable whose name is the whole path of the output, while a reader takes what
stands before the first dot of a path for the name of a variable. So an output with a plain name is
read back by everybody in its scope, and an output whose path has a dot is never read at all.
-/

namespace BehaviorTree

variable {σ : Type} {setting : Setting} {index : NodeIndex} {node : Node} {port path : String}
  {value : Value} {context after : Context σ}

/-- An output that is written changes the blackboard and nothing else. -/
theorem blackboard_of_writeOutput (found : setting.tree.node? index = some node)
    (mapped : node.outputs.get? port = some path)
    (written : outcome (writeOutput setting index port value) context = (.ok (), after)) :
    ∃ blackboard, outputTo context.blackboard context.scope path
        ⟨value, setting.now, some index⟩ = .ok blackboard ∧
      after = { context with blackboard := blackboard } := by
  have ends : Ends (writeOutput setting index port value) context
      (fun _ after => ∃ blackboard, outputTo context.blackboard context.scope path
          ⟨value, setting.now, some index⟩ = .ok blackboard ∧
        after = { context with blackboard := blackboard }) fun _ _ => True := by
    unfold writeOutput
    simp only [found, Option.bind_some, mapped, ends_bind, Attempt.ends_get, ends_accessed,
      Attempt.ends_set]
    cases outputTo context.blackboard context.scope path ⟨value, setting.now, some index⟩ with
    | ok blackboard => exact ⟨blackboard, rfl, rfl⟩
    | error cause => trivial
  exact ends.of_eq_ok written

/-- What is put out at a path without a dot is read at that path, however fresh it has to be; what
is put out at a path with a dot changes nothing that anybody reads. In both cases one variable of
one scope is written, which is the nearest one with that name. -/
theorem output_is_read_unless_dotted (found : setting.tree.node? index = some node)
    (mapped : node.outputs.get? port = some path)
    (written : outcome (writeOutput setting index port value) context = (.ok (), after)) :
    (∃ owner, after.blackboard.Nearest path context.scope owner ⟨value, setting.now, some index⟩ ∧
      context.blackboard.Puts owner path ⟨value, setting.now, some index⟩ after.blackboard) ∧
    after = { context with blackboard := after.blackboard } ∧
    ('.' ∉ path.toList → ∀ freshness,
      after.blackboard.resolve context.scope path freshness setting.now = .ok (.value value) ∧
        after.blackboard.resolveValue context.scope path = .ok value) ∧
    ('.' ∈ path.toList → ∀ id other freshness now,
      after.blackboard.resolve id other freshness now =
          context.blackboard.resolve id other freshness now ∧
        after.blackboard.resolveValue id other = context.blackboard.resolveValue id other) := by
  rcases blackboard_of_writeOutput found mapped written with ⟨blackboard, put, rfl⟩
  rcases Blackboard.puts_outputTo put with ⟨owner, nearest, puts, -⟩
  refine ⟨⟨owner, nearest, puts⟩, rfl, fun plain freshness => ?_, fun dotted id other => ?_⟩
  · exact Blackboard.resolve_of_just_written plain (Blackboard.entry_outputTo put) freshness
  · have different : (Blackboard.splitPath other).1 ≠ path := by
      rintro rfl
      exact Blackboard.not_mem_splitPath other dotted
    exact puts.resolve_eq different id

namespace Site

/-- Something is started once, if the number of its starts is read to be zero. -/
def startsOnce (path : String) : MissionSource :=
  ⟨[⟨"main", [], .node "Repeat" none
    [⟨.input, "max_starts", .constant (.int 1)⟩, ⟨.output, "start_counter", .path path⟩]
    [.node "Condition" none
      [⟨.input, "lhs", .path path⟩, ⟨.input, "operation", .constant (.string "=")⟩,
        ⟨.input, "rhs", .constant (.int 0)⟩] []]⟩]⟩

theorem startsOnce_isWritable (isPath : IsVariablePath path) : (startsOnce path).IsWritable := by
  have check : (NodeSource.node "Condition" none
      [⟨.input, "lhs", .path path⟩, ⟨.input, "operation", .constant (.string "=")⟩,
        ⟨.input, "rhs", .constant (.int 0)⟩] []).IsWritable := by
    refine .node (by decide) (by simp) ?_ (by simp)
    simp only [List.forall_mem_cons]
    exact ⟨⟨(by decide : IsIdentifier "lhs"), isPath, by simp⟩,
      ⟨by decide, (by decide : IsPlainText "="), by simp⟩, ⟨by decide, trivial, by simp⟩, by simp⟩
  simp only [MissionSource.IsWritable, startsOnce, List.forall_mem_singleton]
  refine ⟨(by decide : IsIdentifier "main"), by simp, .node (by decide) (by simp) ?_ ?_⟩
  · simp only [List.forall_mem_cons]
    exact ⟨⟨by decide, trivial, by simp⟩,
      ⟨(by decide : IsIdentifier "start_counter"), isPath, fun _ => ⟨_, rfl⟩⟩, by simp⟩
  · rw [List.forall_mem_singleton]
    exact check

set_option maxRecDepth 100000 in
def startsTree : AcceptedTree where
  source := startsOnce "starts"
  tree := (Tree.ofSource (startsOnce "starts")).toOption.getD default
  accepted := by cbv

set_option maxRecDepth 100000 in
def dottedStartsTree : AcceptedTree where
  source := startsOnce "count.starts"
  tree := (Tree.ofSource (startsOnce "count.starts")).toOption.getD default
  accepted := by cbv

/-- The mission when it is played and not yet ticked. -/
def startsPlayed (mission : AcceptedTree) : Site ScriptedService LeaseRegistry :=
  afterAll (start .standard .empty) (untilPlayed mission)

/-- What the first tick of the mission begins with: that the child was never started is put out. -/
def putsOutStarts (mission : AcceptedTree) :
    Except Fault Unit × Context ScriptedService :=
  outcome (writeOutput ((startsPlayed mission).runner.setting mission.tree .zero default)
    mission.tree.main "start_counter" (.int 0)) (startsPlayed mission).runner.context

set_option maxRecDepth 100000 in
theorem starts_are_read :
    startsTree.tree.node? startsTree.tree.main =
        some ((startsTree.tree.node? startsTree.tree.main).getD default) ∧
      ((startsTree.tree.node? startsTree.tree.main).getD default).outputs.get? "start_counter" =
        some "starts" ∧
      (putsOutStarts startsTree).1 = .ok () ∧
      ∀ freshness, (putsOutStarts startsTree).2.blackboard.resolve .root "starts" freshness .zero =
        .ok (.value (.int 0)) := by
  obtain ⟨found, mapped, written, now⟩ :
      startsTree.tree.node? startsTree.tree.main =
          some ((startsTree.tree.node? startsTree.tree.main).getD default) ∧
        ((startsTree.tree.node? startsTree.tree.main).getD default).outputs.get?
          "start_counter" = some "starts" ∧
        (putsOutStarts startsTree).1 = .ok () ∧
        ((startsPlayed startsTree).runner.setting startsTree.tree .zero default).now = .zero := by
    cbv
  have ran : putsOutStarts startsTree = (.ok (), (putsOutStarts startsTree).2) :=
    Prod.ext written rfl
  have reads := (output_is_read_unless_dotted found mapped ran).2.2.1 (by decide)
  have scope : (startsPlayed startsTree).runner.context.scope = .root := rfl
  rw [scope, now] at reads
  exact ⟨found, mapped, written, fun freshness => (reads freshness).1⟩

set_option maxRecDepth 100000 in
/-- The mission can be written down, and what it puts out goes to a variable that nobody can
read: the condition does not see that nothing was started, and the mission fails. -/
theorem dotted_starts_are_lost :
    (∃ text, MissionSource.ofText text = .ok dottedStartsTree.source) ∧
      (start .standard .empty).undergoAll (untilPlayed dottedStartsTree) =
        .ok (startsPlayed dottedStartsTree) ∧
      ((dottedStartsTree.tree.node? dottedStartsTree.tree.main).bind fun node =>
        node.outputs.get? "start_counter") = some "count.starts" ∧
      (putsOutStarts dottedStartsTree).1 = .ok () ∧
      (putsOutStarts dottedStartsTree).2.blackboard.resolve .root "count.starts" .any .zero =
        .error (.notFound "count") ∧
      ((startsPlayed dottedStartsTree).runner.tick .zero default LeaseRegistry.empty).1 =
        .ok .failure := by
  have isPath : IsVariablePath "count.starts" :=
    ⟨"count", [['s', 't', 'a', 'r', 't', 's']], by decide, by decide, by decide, by decide, rfl⟩
  have read := MissionSource.readText_write (startsOnce_isWritable isPath) (Or.inr rfl)
  refine ⟨⟨_, by rw [MissionSource.ofText, read]; rfl⟩, ?_⟩
  cbv

end Site

end BehaviorTree
