import BehaviorTree.Proofs.Engine.Invocations
import BehaviorTree.Proofs.Runner.Interruptions

/-!
# Parameters at any time

Wherever a mission ticks a node of a definition that was invoked by a reference, every parameter
that the node uses has a value: that of the argument at the reference, or else the default. The main
definition is not invoked by a reference but by the runner, which passes nothing, not even defaults.
So parameters that the main definition uses have no value at any time.
-/

namespace BehaviorTree

namespace Site

variable {σ π : Type} [RemoteService σ] [LeaseProvider π] {site after : Site σ π}
  {deed : Deed σ π} {deeds : List (Deed σ π)}

/-- The tree that is loaded was accepted. -/
def IsAccepted (site : Site σ π) : Prop :=
  ∀ tree, site.runner.tree = some tree → ∃ source, Tree.ofSource source = .ok tree

theorem accepted_undergo (accepted : site.IsAccepted) (happened : site.undergo deed = .ok after) :
    after.IsAccepted := by
  intro tree loaded
  cases deed with
  | perform now operation =>
    rcases tree_perform happened with same | ⟨new, rfl, same⟩
    · exact accepted tree (same ▸ loaded)
    · rw [same, Option.some.injEq] at loaded
      exact ⟨new.source, loaded ▸ new.accepted⟩
  | resetSessions =>
    cases happened
    exact accepted tree loaded

/-- Wherever a node is ticked, its parameters are those of the innermost invocation. -/
theorem parameters_are_those_of_invocations (config : MissionConfig) (provider : π)
    (reached : (start config provider : Site σ π).undergoAll deeds = .ok site) {tree : Tree}
    (loaded : site.runner.tree = some tree) (now : Duration) (wallClock : WallClock)
    {invocations : List (Invocation σ)} {depth : Nat} {index : NodeIndex} {context : Context σ}
    (ticks : Ticks (site.runner.setting tree now wallClock) site.runner.context invocations depth
      index context) {node : Node} (found : tree.node? index = some node) :
    (∀ condition, node.effectiveConfiguration context = .ok (.condition condition) →
      ∀ name, condition.Compares name → node.Uses name) ∧
    (∀ target, node.configuration = some (.reference target) →
      ∃ root definition, tree.lookup target = some root ∧ tree.node? root = some definition ∧
        Suffices node.arguments definition.parameters) ∧
    match invocations with
    | [] => tree.Within tree.main index ∧
      ∀ name later, later.parameters = context.parameters →
        (later : Context σ).value (.parameter name) = .error (.unboundParameter name)
    | invocation :: _ => ∃ target root definition,
      invocation.node.configuration = some (.reference target) ∧
        tree.lookup target = some root ∧ tree.node? root = some definition ∧
        tree.Within root index ∧
        ∀ name, node.Uses name → ∃ parameter value,
          parameterNamed? definition.parameters name = some parameter ∧
          invocation.Gives parameter value ∧
          ∀ later, later.parameters = context.parameters →
            (later : Context σ).value (.parameter name) = .ok value := by
  have orderly : site.runner.Orderly :=
    kept_undergoAll (fun site => site.runner.Orderly) orderly_undergo
      (Runner.orderly_create config) reached
  have wellFormed := (orderly.loaded tree loaded).wellFormed
  have accepted : site.IsAccepted :=
    kept_undergoAll IsAccepted accepted_undergo (fun tree loaded => by cases loaded) reached
  rcases accepted tree loaded with ⟨source, accepted⟩
  rcases Tree.bodies_ofSource accepted with ⟨main, bodies⟩
  have within := ticks.within wellFormed rfl
  -- Every node that is ticked is in some body.
  have body : ∃ root definition, tree.Body root definition ∧ tree.Within root index := by
    cases invocations with
    | nil =>
      rcases bodies "main" tree.main main with ⟨definition, body⟩
      exact ⟨tree.main, definition, body, within.1⟩
    | cons invocation outer =>
      rcases within with ⟨target, root, -, -, -, known, -, within, -⟩
      rcases bodies target root known with ⟨definition, body⟩
      exact ⟨root, definition, body, within⟩
  rcases body with ⟨top, owner, body, below⟩
  refine ⟨fun condition effective name compares => ?_, fun target configured => ?_, ?_⟩
  · exact body.uses_of_compares below found effective compares
  · rcases wellFormed.resolved _ _ _ found configured with ⟨root, known⟩
    rcases bodies target root known with ⟨definition, lower⟩
    exact ⟨root, definition, known, lower.found,
      body.passes index node below found target root definition configured known lower.found⟩
  · cases invocations with
    | nil =>
      refine ⟨within.1, fun name later same => ?_⟩
      simp only [Context.value, Context.parameter, same, within.2, List.head?_nil,
        Option.bind_none]
    | cons invocation outer =>
      rcases within with ⟨target, root, definition, values, configured, known, foundRoot, within,
        filled, parameters⟩
      refine ⟨target, root, definition, configured, known, foundRoot, within,
        fun name used => ?_⟩
      rcases bodies target root known with ⟨same, lower⟩
      have meant : same = definition := by
        have foundSame : tree.node? root = some definition := foundRoot
        rw [lower.found] at foundSame
        exact Option.some.inj foundSame
      subst meant
      rcases get?_of_bindParameters filled (lower.uses index node within found name used) with
        ⟨parameter, value, named, bound, given⟩
      refine ⟨parameter, value, named, Invocation.gives_of_bind bound, fun later same => ?_⟩
      simp only [Context.value, Context.parameter, same, parameters, List.head?_cons,
        Option.bind_some, given]

/-- A definition that compares a parameter with its default. -/
def limitCheck (name : String) : TreeSource :=
  ⟨name, [⟨"limit", "int", some (.int 3)⟩],
    .node "Condition" none
      [⟨.input, "lhs", .parameter "limit"⟩, ⟨.input, "operation", .constant (.string "=")⟩,
        ⟨.input, "rhs", .constant (.int 3)⟩] []⟩

set_option maxRecDepth 100000 in
/-- The main definition itself checks a limit. -/
def checkingTree : AcceptedTree where
  source := ⟨[limitCheck "main"]⟩
  tree := (Tree.ofSource ⟨[limitCheck "main"]⟩).toOption.getD default
  accepted := by cbv

set_option maxRecDepth 100000 in
/-- The main definition refers to one that checks a limit. -/
def referringTree : AcceptedTree where
  source := ⟨[⟨"main", [], .node "Limit" none [] []⟩, limitCheck "Limit"]⟩
  tree := (Tree.ofSource ⟨[⟨"main", [], .node "Limit" none [] []⟩,
    limitCheck "Limit"]⟩).toOption.getD default
  accepted := by cbv

def untilPlayed (accepted : AcceptedTree) : List (Deed ScriptedService LeaseRegistry) :=
  [.perform .zero (.load accepted), .perform .zero .play]

def checking : Site ScriptedService LeaseRegistry :=
  afterAll (start .standard .empty) (untilPlayed checkingTree)

def referring : Site ScriptedService LeaseRegistry :=
  afterAll (start .standard .empty) (untilPlayed referringTree)

set_option maxRecDepth 100000 in
/-- The main definition declares a parameter with a default, which has no value in a tick. -/
theorem default_of_main_is_unbound :
    (start .standard .empty).undergoAll (untilPlayed checkingTree) = .ok checking ∧
      checking.runner.tree = some checkingTree.tree ∧
      checkingTree.tree.nodes.toList.map (fun node =>
        node.parameters.map fun parameter => (parameter.name, parameter.default)) =
          [[("limit", some (.int 3))]] ∧
      (checking.runner.engineTick checkingTree.tree .zero default).2.visits =
        [⟨⟨0, 0⟩, .failure, some (.binding (.unboundParameter "limit"))⟩] := by
  refine ⟨?_, ?_, ?_, ?_⟩ <;> cbv

def reference : Node := (referringTree.tree.node? 0).getD default

def limit : Node := (referringTree.tree.node? 1).getD default

/-- The setting of a tick in which the reference runs. -/
def limitSetting : Setting := referring.runner.setting referringTree.tree .zero default

/-- The context in which the limit is checked. -/
def inLimit : Context ScriptedService :=
  { referring.runner.context with
    runs := (referring.runner.runs.frameFor ⟨0, 0⟩).2
    frame := (referring.runner.runs.frameFor ⟨0, 0⟩).1
    parameters := [.ofList [("limit", .int 3)]] }

set_option maxRecDepth 100000 in
theorem ticks_limit : Ticks limitSetting referring.runner.context
    [⟨reference, referring.runner.context⟩] 2 1 inLimit := by
  have wellFormed : limitSetting.tree.WellFormed :=
    Tree.wellFormed_ofSource referringTree.accepted
  have found : limitSetting.tree.node? 0 = some reference := by cbv
  have configured : reference.configuration = some (.reference "Limit") := by cbv
  have known : limitSetting.tree.lookup "Limit" = some 1 := by cbv
  have foundRoot : limitSetting.tree.node? 1 = some limit := by cbv
  have filled : bindParameters limit.parameters reference.arguments referring.runner.context =
      .ok (.ofList [("limit", .int 3)]) := by cbv
  have ends : (outcome (tickWithin limitSetting 3 0) referring.runner.context).1 =
      .ok .success := by cbv
  have isMain : Ticks limitSetting referring.runner.context [] 3 0 referring.runner.context := by
    have depth : limitSetting.tree.depthLimit = 3 := by cbv
    have main : limitSetting.tree.main = 0 := by cbv
    rw [← depth, ← main]
    exact .main
  exact .target isMain found configured
    (asks_target wellFormed found configured known foundRoot filled ⟨.success, ends⟩)

set_option maxRecDepth 100000 in
/-- The definition has its default when the main definition refers to it. -/
theorem default_at_reference_is_bound :
    Ticks limitSetting referring.runner.context [⟨reference, referring.runner.context⟩] 2 1
        inLimit ∧
      limit.Uses "limit" ∧
      ∃ parameter value, parameterNamed? limit.parameters "limit" = some parameter ∧
        Invocation.Gives ⟨reference, referring.runner.context⟩ parameter value ∧
        inLimit.value (.parameter "limit") = .ok value := by
  have reached : (start .standard .empty).undergoAll (untilPlayed referringTree) =
      .ok referring := by cbv
  have loaded : referring.runner.tree = some referringTree.tree := by cbv
  have found : referringTree.tree.node? 1 = some limit := by cbv
  have uses : limit.Uses "limit" :=
    .operand (show limit.fields.get? "lhs" = some (.parameter "limit") by cbv)
  rcases (parameters_are_those_of_invocations .standard .empty reached loaded .zero default
    ticks_limit found).2.2 with ⟨target, root, definition, configured, known, foundRoot, -, values⟩
  have named : reference.configuration = some (.reference "Limit") := by cbv
  have isLimit : referringTree.tree.lookup "Limit" = some 1 := by cbv
  cases named.symm.trans configured
  cases isLimit.symm.trans known
  cases found.symm.trans foundRoot
  rcases values "limit" uses with ⟨parameter, value, counts, gives, evaluates⟩
  exact ⟨ticks_limit, uses, parameter, value, counts, gives, evaluates inLimit rfl⟩

end Site

end BehaviorTree
