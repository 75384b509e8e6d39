import BehaviorTree.Proofs.Engine.Assignments
import BehaviorTree.Proofs.Runner.Chronicles
import BehaviorTree.Proofs.Tree.Assignments

/-!
# Missions that set variables

Whenever a mission comes to a node that sets variables, the node sets all of them at once or none.
-/

namespace BehaviorTree

variable {σ : Type} [RemoteService σ]

theorem Befalls.setting_eq {setting : Setting} {key : RunKey} {start after : Context σ}
    {log : Chronicle σ key} {turn : PastTurn σ key} (befalls : Befalls setting key start log after)
    (listed : .turned turn ∈ log) : turn.setting = setting := by
  induction befalls with
  | nothing => cases listed
  | spared _ _ ih => exact ih listed
  | halted _ _ _ ih =>
    rcases List.mem_cons.1 listed with impossible | listed
    · cases impossible
    · exact ih listed
  | turned other same _ ih =>
    rcases List.mem_cons.1 listed with isOther | listed
    · cases isOther
      exact same
    · exact ih listed

namespace Site

variable {π : Type} [LeaseProvider π] {site after : Site σ π} {deeds : List (Deed σ π)}
  {key : RunKey} {chronicle : Chronicle σ key}

/-- The tree of every turn was accepted. -/
theorem Chronicles.exists_source (kempt : site.Kempt) (forgetful : site.runner.runs.get? key = none)
    (chronicles : site.Chronicles key deeds chronicle after) {turn : PastTurn σ key}
    (listed : .turned turn ∈ chronicle) :
    ∃ source, Tree.ofSource source = .ok turn.setting.tree := by
  induction chronicles with
  | nothing => cases listed
  | kept _ _ _ _ _ ih => exact ih listed
  | forgotten _ _ _ _ ih =>
    rcases List.mem_cons.1 listed with impossible | listed
    · cases impossible
    · exact ih listed
  | ticked before happened loaded ran befalls ih =>
    rcases List.mem_append.1 listed with now | earlier
    · rw [befalls.setting_eq now]
      exact (before.orderly kempt forgetful).1.accepted _ loaded
    · exact ih earlier

/-- A node that sets variables has a status on every tick, and it does one of two things. Either it
succeeds, and every variable for which it has an assignment holds, in its nearest definition, the
value that the last source for it had before the tick, while all other bindings of all scopes stay
as they were. Or it fails because of a source that cannot be read or a variable that is not defined,
and there is a report of that but no change of the blackboard. -/
theorem variables_are_set_together (config : MissionConfig) (provider : π)
    (deeds : List (Deed σ π)) (key : RunKey) :
    (∀ chronicle after, (start config provider : Site σ π).Chronicles key deeds chronicle after →
      ∀ turn : PastTurn σ key, .turned turn ∈ chronicle → turn.node.kind = .setBlackboard →
        turn.before.SetsVariables turn.setting key turn.node turn.status turn.after) ∧
    (∀ after, (start config provider : Site σ π).undergoAll deeds = .ok after →
      ∃ chronicle, (start config provider : Site σ π).Chronicles key deeds chronicle after) ∧
    ∀ (setting : Setting) depth node (before : Context σ) source,
      Tree.ofSource source = .ok setting.tree → Standing setting depth key node →
      before.Ready setting.tree key → node.kind = .setBlackboard →
        ∃ status after,
          outcome (tickWithin setting (depth + 1) key.node) before = (.ok status, after) := by
  have sets : ∀ (setting : Setting) depth node (before : Context σ) source,
      Tree.ofSource source = .ok setting.tree → Standing setting depth key node →
      before.Ready setting.tree key → node.kind = .setBlackboard →
        Ends (tickWithin setting (depth + 1) key.node) before
          (fun status after => before.SetsVariables setting key node status after)
          fun _ _ => False := by
    intro setting depth node before source accepted stands ready kind
    rcases Tree.setsPlainly_ofSource accepted stands.found kind with ⟨literal, configured⟩
    exact stands.ends_setsVariables ready ⟨literal, configured⟩
  refine ⟨?_, fun after happened => exists_chronicle config provider key happened, ?_⟩
  · intro chronicle after chronicles turn listed kind
    rcases chronicles.exists_source (kempt_start config provider) rfl listed with
      ⟨source, accepted⟩
    exact (sets _ _ _ _ source accepted turn.stands turn.ready kind).of_eq_ok turn.ran
  · intro setting depth node before source accepted stands ready kind
    have ends := sets setting depth node before source accepted stands ready kind
    unfold Ends at ends
    split at ends
    · rename_i status after ran
      exact ⟨status, after, ran⟩
    · exact ends.elim

/-- Two variables get the values of each other. -/
def exchange : MissionSource :=
  ⟨[⟨"main", [], .node "SetBlackboard" none
    [⟨.input, "front", .path "back"⟩, ⟨.input, "back", .path "front"⟩] []⟩]⟩

set_option maxRecDepth 100000 in
def exchangeTree : AcceptedTree where
  source := exchange
  tree := (Tree.ofSource exchange).toOption.getD default
  accepted := by cbv

def untilExchange : List (Deed ScriptedService LeaseRegistry) :=
  [.perform .zero (.load exchangeTree), .perform .zero (.define "front" (.int 1)),
    .perform .zero (.define "back" (.int 2)), .perform .zero .play]

def beforeExchange : Site ScriptedService LeaseRegistry :=
  afterAll (start .standard .empty) untilExchange

/-- What the tick of the mission leaves. -/
def afterExchange : Context ScriptedService :=
  (beforeExchange.runner.engineTick exchangeTree.tree .zero default).2

set_option maxRecDepth 100000 in
/-- After the tick each of the variables holds what the other one held before. -/
theorem exchange_succeeds :
    ∃ chronicle after, ∃ turn : PastTurn ScriptedService ⟨0, exchangeTree.tree.main⟩,
      (start .standard .empty : Site ScriptedService LeaseRegistry).Chronicles
          ⟨0, exchangeTree.tree.main⟩ (untilExchange ++ [.perform .zero (.tick default)])
          chronicle after ∧
        .turned turn ∈ chronicle ∧ turn.node.kind = .setBlackboard ∧ turn.status = .success ∧
        turn.before.blackboard.get? .root "front" = some (.int 1) ∧
        turn.before.blackboard.get? .root "back" = some (.int 2) ∧
        turn.after.blackboard.get? .root "front" = some (.int 2) ∧
        turn.after.blackboard.get? .root "back" = some (.int 1) ∧
        turn.before.SetsVariables turn.setting ⟨0, exchangeTree.tree.main⟩ turn.node turn.status
          turn.after := by
  have together := fun deeds => variables_are_set_together (σ := ScriptedService)
    (π := LeaseRegistry) .standard .empty deeds ⟨0, exchangeTree.tree.main⟩
  have ticked : beforeExchange.perform .zero (.tick default) =
      .ok (afterAll beforeExchange [.perform .zero (.tick default)]) := by cbv
  obtain ⟨begun, loaded, found, kind, succeeds, frontBefore, backBefore, frontAfter, backAfter⟩ :
      (start .standard .empty).undergoAll untilExchange = .ok beforeExchange ∧
        beforeExchange.runner.tree = some exchangeTree.tree ∧
        exchangeTree.tree.node? exchangeTree.tree.main =
          some ((exchangeTree.tree.node? exchangeTree.tree.main).getD default) ∧
        ((exchangeTree.tree.node? exchangeTree.tree.main).getD default).kind = .setBlackboard ∧
        (beforeExchange.runner.tick .zero default beforeExchange.provider).1 = .ok .success ∧
        beforeExchange.runner.blackboard.get? .root "front" = some (.int 1) ∧
        beforeExchange.runner.blackboard.get? .root "back" = some (.int 2) ∧
        afterExchange.blackboard.get? .root "front" = some (.int 2) ∧
        afterExchange.blackboard.get? .root "back" = some (.int 1) := by
    cbv
  have kempt : beforeExchange.Kempt :=
    kept_undergoAll Kempt Kempt.undergo (kempt_start .standard .empty) begun
  rcases (together untilExchange).2.1 _ begun with ⟨chronicle, chronicles⟩
  have later := chronicles.goesOn_main kempt loaded found ticked succeeds
  refine ⟨_, _, kempt.mainTurn loaded found succeeds, later, List.mem_cons_self, kind, rfl,
    frontBefore, backBefore, frontAfter, backAfter, ?_⟩
  exact (together _).1 _ _ later _ List.mem_cons_self kind

end Site

end BehaviorTree
