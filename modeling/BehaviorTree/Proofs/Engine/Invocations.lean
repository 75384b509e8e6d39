import BehaviorTree.Proofs.Engine.Confinement
import BehaviorTree.Proofs.Engine.RemoteSessions
import BehaviorTree.Proofs.Tree.Parameters

/-!
# Invocations

A reference invokes its target with a value for every parameter, and goes back to its own parameters
when the target was ticked. So wherever a node is ticked, the parameters are those of the innermost
invocation that is not over: the arguments as they were when the reference was ticked, or else the
defaults.

A tick ticks another node if it depends on what becomes of it there.
-/

namespace BehaviorTree

variable {σ : Type}

theorem Table.get?_ofList {ν : Type} (entries : List (String × ν)) (key : String) :
    (Table.ofList entries).get? key =
      (entries.reverse.find? fun entry => entry.1 = key).map Prod.snd := by
  induction entries using List.reverseRecOn with
  | nil => rfl
  | append_singleton earlier last ih =>
    have inserted : Table.ofList (earlier ++ [last]) =
        (Table.ofList earlier).insert last.1 last.2 := by
      simp [Table.ofList]
    rw [inserted, Table.get?_insert, List.reverse_append, List.reverse_singleton,
      List.singleton_append, List.find?_cons]
    by_cases same : last.1 = key
    · simp [same]
    · simp [same, Ne.symm same, ih]

/-- In a table of what items evaluate to, the last item with a name counts. -/
theorem Table.get?_ofList_of_mapM {α ν ε : Type} {items : List α} {name : α → String}
    {evaluate : α → Except ε ν} {entries : List (String × ν)}
    (evaluated : (items.mapM fun item => (evaluate item).map fun value => (name item, value)) =
      .ok entries) (key : String) :
    match items.reverse.find? fun item => name item = key with
    | none => (Table.ofList entries).get? key = none
    | some item => ∃ value, evaluate item = .ok value ∧
        (Table.ofList entries).get? key = some value := by
  -- Both the item that counts and the value that counts come last.
  induction items using List.reverseRecOn generalizing entries with
  | nil =>
    cases evaluated
    rfl
  | append_singleton earlier last ih =>
    simp only [List.mapM_append, List.mapM_cons, List.mapM_nil, bind_eq_ok, map_eq_ok] at evaluated
    rcases evaluated with
      ⟨front, evaluatedFront, _, ⟨_, ⟨value, evaluatedLast, rfl⟩, _, ⟨⟩, ⟨⟩⟩, done⟩
    cases done
    rw [Table.get?_ofList, List.reverse_append, List.reverse_append, List.reverse_singleton,
      List.reverse_singleton, List.singleton_append, List.singleton_append, List.find?_cons,
      List.find?_cons]
    by_cases same : name last = key
    · simp only [same, decide_true, Option.map_some]
      exact ⟨value, evaluatedLast, rfl⟩
    · simp only [same, decide_false, ← Table.get?_ofList]
      exact ih evaluatedFront

/-- The parameter that counts among those with the same name. -/
def parameterNamed? (parameters : List Parameter) (name : String) : Option Parameter :=
  parameters.reverse.find? fun parameter => parameter.name = name

theorem get?_of_bindParameters {parameters : List Parameter} {arguments : List Argument}
    {context : Context σ} {values : Table String Value} {name : String}
    (filled : bindParameters parameters arguments context = .ok values)
    (declared : ∃ parameter ∈ parameters, parameter.name = name) :
    ∃ parameter value, parameterNamed? parameters name = some parameter ∧
      parameter.bind arguments context = .ok value ∧ values.get? name = some value := by
  unfold bindParameters at filled
  rw [bind_eq_ok] at filled
  rcases filled with ⟨entries, filled, done⟩
  cases done
  have counts := Table.get?_ofList_of_mapM filled name
  cases found : parameterNamed? parameters name with
  | none =>
    rcases declared with ⟨parameter, listed, named⟩
    have absent := List.find?_eq_none.1 found parameter (List.mem_reverse.2 listed)
    exact absurd (decide_eq_true named) absent
  | some parameter =>
    unfold parameterNamed? at found
    rw [found] at counts
    rcases counts with ⟨value, evaluated, held⟩
    exact ⟨parameter, value, rfl, evaluated, held⟩

/-- A reference that is ticked, with the context in which it is. -/
structure Invocation (σ : Type) where
  node : Node
  context : Context σ

/-- The value that an invocation has for a parameter of its target. -/
inductive Invocation.Gives (invocation : Invocation σ) (parameter : Parameter) (value : Value) :
    Prop where
  | argument {argument : Argument} {given : Value}
      (passed : invocation.node.arguments.find? (·.name = parameter.name) = some argument)
      (evaluated : invocation.context.value argument.source = .ok given)
      (coerced : given.coerce? parameter.kind = some value)
  | omitted {given : Value}
      (absent : invocation.node.arguments.find? (·.name = parameter.name) = none)
      (declared : parameter.default = some given)
      (coerced : given.coerce? parameter.kind = some value)

theorem Invocation.gives_of_bind {invocation : Invocation σ} {parameter : Parameter}
    {value : Value}
    (filled : parameter.bind invocation.node.arguments invocation.context = .ok value) :
    invocation.Gives parameter value := by
  unfold Parameter.bind at filled
  split at filled
  · rename_i argument _ passed
    rw [bind_eq_ok] at filled
    rcases filled with ⟨given, evaluated, result⟩
    exact .argument passed evaluated (coerceFor_eq_ok.1 result)
  · rename_i given absent declared
    exact .omitted absent declared (coerceFor_eq_ok.1 filled)
  · cases filled

/-- Filling in overrides brings no parameters in. -/
theorem given_of_foldlM_fill {kind : NodeKind} {context : Context σ} {overrides : List Override}
    {fields other : FieldTable} {field name : String}
    (filled : overrides.foldlM (Override.fill kind context) fields = .ok other)
    (given : other.get? field = some (.parameter name)) :
    fields.get? field = some (.parameter name) := by
  induction overrides generalizing fields with
  | nil =>
    cases filled
    exact given
  | cons first rest ih =>
    simp only [List.foldlM_cons, bind_eq_ok] at filled
    rcases filled with ⟨middle, change, filled⟩
    rcases Override.fill_eq_ok change with ⟨value, rfl⟩
    have before := ih filled
    rw [Table.get?_insert] at before
    split at before
    · cases before
    · exact before

/-- What a condition compares is used by its node. -/
theorem Tree.Body.uses_of_compares {tree : Tree} {root index : NodeIndex} {definition node : Node}
    (body : tree.Body root definition) (within : tree.Within root index)
    (found : tree.node? index = some node) {context : Context σ}
    {condition : ConditionConfiguration} {name : String}
    (effective : node.effectiveConfiguration context = .ok (.condition condition))
    (compares : condition.Compares name) : node.Uses name := by
  rcases Node.effectiveConfiguration_eq_ok effective with
    ⟨-, configured⟩ | ⟨-, fields, filled, configured⟩
  · exact body.compares index node within found condition configured name compares
  · rcases given_of_compares configured compares with ⟨field, given⟩
    exact .operand (given_of_foldlM_fill filled given)

section Ticks

variable [RemoteService σ] {setting : Setting} {depth : Nat} {index lower root : NodeIndex}
  {context inner start : Context σ} {node definition : Node} {target : String}

/-- The tick of a node ticks another one in some context: what becomes of it depends on what becomes
of the other one there. -/
def Asks (setting : Setting) (depth : Nat) (index : NodeIndex) (context : Context σ)
    (lower : NodeIndex) (inner : Context σ) : Prop :=
  ∃ node, setting.tree.node? index = some node ∧ ∃ run : NodeIndex → Tick σ Status,
    (∀ other place, ¬ (other = lower ∧ place = inner) →
      outcome (run other) place = outcome (tickWithin setting depth other) place) ∧
    outcome (visitNode setting run ⟨context.frame, index⟩ node) context ≠
      outcome (tickWithin setting (depth + 1) index) context

/-- What the tick of a tree ticks, and in which invocations, the innermost one in front. -/
inductive Ticks (setting : Setting) (start : Context σ) :
    List (Invocation σ) → (depth : Nat) → NodeIndex → Context σ → Prop where
  | main : Ticks setting start [] setting.tree.depthLimit setting.tree.main start
  | child {invocations : List (Invocation σ)} {depth : Nat} {index lower : NodeIndex}
      {context inner : Context σ} {node : Node}
      (ticks : Ticks setting start invocations (depth + 1) index context)
      (found : setting.tree.node? index = some node)
      (ordinary : ∀ target, node.configuration ≠ some (.reference target))
      (asks : Asks setting depth index context lower inner) :
      Ticks setting start invocations depth lower inner
  | target {invocations : List (Invocation σ)} {depth : Nat} {index lower : NodeIndex}
      {context inner : Context σ} {node : Node} {target : String}
      (ticks : Ticks setting start invocations (depth + 1) index context)
      (found : setting.tree.node? index = some node)
      (configured : node.configuration = some (.reference target))
      (asks : Asks setting depth index context lower inner) :
      Ticks setting start (⟨node, context⟩ :: invocations) depth lower inner

/-- A node that is no reference ticks its children, with the same parameters. -/
theorem Asks.of_ordinary (wellFormed : setting.tree.WellFormed)
    (asks : Asks setting depth index context lower inner)
    (found : setting.tree.node? index = some node)
    (ordinary : ∀ target, node.configuration ≠ some (.reference target)) :
    lower ∈ node.children ∧ inner.parameters = context.parameters := by
  rcases asks with ⟨same, foundSame, run, agrees, differs⟩
  rw [found, Option.some.injEq] at foundSame
  subst foundSame
  by_contra elsewhere
  refine differs ?_
  rw [outcome_tickWithin_succ found]
  let key : RunKey := ⟨context.frame, index⟩
  -- The run states are the same on both sides, which differ in nothing else.
  have runs : setting.RunsParallel Eq
      (outcome (visitNode setting (tickWithin setting depth) key node) context).2.runs key node
      context.parameters (tickWithin setting depth) run := by
    refine ⟨fun child listed => ?_, fun target _ _ _ configured => ?_⟩
    · rintro place _ - samePlace rfl -
      have apart : ¬ (child = lower ∧ place = inner) := by
        rintro ⟨rfl, rfl⟩
        exact elsewhere ⟨listed, samePlace⟩
      exact ⟨_, agrees child place apart, rfl⟩
    · exact absurd configured (ordinary target)
  have everywhere : setting.tree.Closes
      (outcome (visitNode setting (tickWithin setting depth) key node) context).2.runs
      fun _ => True := fun _ _ _ _ => trivial
  rcases parallel_visitNode (staying_tickWithin wellFormed depth) (wellFormed.fits _ _ found)
    everywhere (fun key _ => shares_eq key) trivial found runs context context.runs.states rfl rfl
    rfl (.refl _) with ⟨after, ended, rfl⟩
  exact ended

theorem outcome_attemptNode_of_reference {run : NodeIndex → Tick σ Status} {key : RunKey}
    (fits : node.Fits) (configured : node.configuration = some (.reference target))
    (context : Context σ) : outcome (attemptNode setting run key node) context =
      outcome (tickReference setting run key node target) context := by
  have isReference := fits.kind_eq_reference_iff.2 ⟨target, configured⟩
  have effective : node.effectiveConfiguration context = .ok (.reference target) := by
    rw [Node.effectiveConfiguration, (fits.reference isReference).1, configured]
  rw [outcome_attemptNode, effective]
  rfl

theorem outcome_visitNode_congr {run other : NodeIndex → Tick σ Status} {key : RunKey}
    (same : outcome (attemptNode setting run key node) context =
      outcome (attemptNode setting other key node) context) :
    outcome (visitNode setting run key node) context =
      outcome (visitNode setting other key node) context := by
  unfold visitNode
  rw [outcome_bind, outcome_bind, outcome_settleAttempt, outcome_settleAttempt, same]

/-- A reference ticks the root of its target, with values for all parameters. -/
theorem Asks.of_reference (wellFormed : setting.tree.WellFormed)
    (asks : Asks setting depth index context lower inner)
    (found : setting.tree.node? index = some node)
    (configured : node.configuration = some (.reference target))
    (known : setting.tree.lookup target = some root)
    (foundRoot : setting.tree.node? root = some definition) :
    lower = root ∧ ∃ values,
      bindParameters definition.parameters node.arguments context = .ok values ∧
        inner.parameters = values :: context.parameters := by
  rcases asks with ⟨same, foundSame, run, agrees, differs⟩
  rw [found, Option.some.injEq] at foundSame
  subst foundSame
  by_contra elsewhere
  refine differs ?_
  rw [outcome_tickWithin_succ found]
  have fits := wellFormed.fits _ _ found
  refine outcome_visitNode_congr ?_
  rw [outcome_attemptNode_of_reference fits configured,
    outcome_attemptNode_of_reference fits configured, outcome_tickReference known foundRoot,
    outcome_tickReference known foundRoot]
  cases filled : bindParameters definition.parameters node.arguments context with
  | error cause => rfl
  | ok values =>
    have apart : ∀ place : Context σ, place.parameters = values :: context.parameters →
        ¬ (root = lower ∧ place = inner) := by
      rintro place samePlace ⟨rfl, rfl⟩
      exact elsewhere ⟨rfl, values, filled, samePlace⟩
    dsimp only
    rw [agrees root _ (apart _ rfl)]

/-- A node that is ticked is in the body of the main definition, or in that of the innermost
invocation. -/
theorem Ticks.within {invocations : List (Invocation σ)} (wellFormed : setting.tree.WellFormed)
    (ticks : Ticks setting start invocations depth index context)
    (outermost : start.parameters = []) :
    match invocations with
    | [] => setting.tree.Within setting.tree.main index ∧ context.parameters = []
    | invocation :: _ => ∃ target root definition values,
      invocation.node.configuration = some (.reference target) ∧
        setting.tree.lookup target = some root ∧ setting.tree.node? root = some definition ∧
        setting.tree.Within root index ∧
        bindParameters definition.parameters invocation.node.arguments invocation.context =
          .ok values ∧
        context.parameters = values :: invocation.context.parameters := by
  induction ticks with
  | main => exact ⟨.refl, outermost⟩
  | @child invocations depth index lower context inner node ticks found ordinary asks ih =>
    rcases asks.of_ordinary wellFormed found ordinary with ⟨listed, parameters⟩
    cases invocations with
    | nil => exact ⟨.tail ih.1 ⟨node, found, listed⟩, parameters.trans ih.2⟩
    | cons invocation outer =>
      rcases ih with ⟨target, root, definition, values, configured, known, foundRoot, within,
        filled, given⟩
      exact ⟨target, root, definition, values, configured, known, foundRoot,
        .tail within ⟨node, found, listed⟩, filled, parameters.trans given⟩
  | @target invocations depth index lower context inner node target ticks found configured asks _ =>
    rcases wellFormed.resolved _ _ _ found configured with ⟨root, known⟩
    rcases Option.isSome_iff_exists.1 (wellFormed.closed _ _ (.target found configured known)) with
      ⟨definition, foundRoot⟩
    rcases asks.of_reference wellFormed found configured known foundRoot with
      ⟨rfl, values, filled, parameters⟩
    exact ⟨target, lower, definition, values, configured, known, foundRoot, .refl, filled,
      parameters⟩

/-- A reference that gets values for all parameters ticks the root of its target with them. -/
theorem asks_target (wellFormed : setting.tree.WellFormed)
    (found : setting.tree.node? index = some node)
    (configured : node.configuration = some (.reference target))
    (known : setting.tree.lookup target = some root)
    (foundRoot : setting.tree.node? root = some definition) {values : Table String Value}
    (filled : bindParameters definition.parameters node.arguments context = .ok values)
    (ends : ∃ status, (outcome (tickWithin setting (depth + 1) index) context).1 = .ok status) :
    Asks setting depth index context root
      { context with
        runs := (context.runs.frameFor ⟨context.frame, index⟩).2
        frame := (context.runs.frameFor ⟨context.frame, index⟩).1
        parameters := values :: context.parameters } := by
  classical
  -- A tick that crashes there is noticed.
  let inside := { context with
    runs := (context.runs.frameFor ⟨context.frame, index⟩).2
    frame := (context.runs.frameFor ⟨context.frame, index⟩).1
    parameters := values :: context.parameters }
  let run : NodeIndex → Tick σ Status := fun other => ExceptT.mk fun place =>
    if other = root ∧ place = inside then (.error (.crash .unboundedRecursion), place)
    else outcome (tickWithin setting depth other) place
  have crashes : outcome (run root) inside = (.error (.crash .unboundedRecursion), inside) :=
    if_pos ⟨rfl, rfl⟩
  refine ⟨node, found, run, fun other place apart => if_neg apart, fun same => ?_⟩
  rcases ends with ⟨status, ended⟩
  rw [← same] at ended
  unfold visitNode at ended
  rw [outcome_bind, outcome_settleAttempt, outcome_attemptNode_of_reference
    (wellFormed.fits _ _ found) configured, outcome_tickReference known foundRoot, filled] at ended
  dsimp only at ended
  rw [crashes] at ended
  cases ended

end Ticks

end BehaviorTree
