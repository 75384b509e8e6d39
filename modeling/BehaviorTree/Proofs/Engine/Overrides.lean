import BehaviorTree.Proofs.Engine.RemoteSessions
import BehaviorTree.Proofs.Engine.Tick
import BehaviorTree.Proofs.Tree.Rebinding
import BehaviorTree.Remote.Script
import Mathlib

/-!
# Overrides as literals

A field that is bound to a variable or a parameter is filled in on every tick. If the value is that
of the literal in its place, the node runs as it would with the literal. If the value would have
been refused as a literal, the node fails on this tick and reports why, whatever its other fields
hold. The other way around, a literal that would be refused is only looked at on ticks as soon as
any other field of the node is bound.
-/

namespace BehaviorTree

variable {σ : Type}

section Filling

variable {kind : NodeKind} {context : Context σ} {fields filled target : FieldTable}
  {overrides : List Override} {change : Override} {expected : ValueKind}

theorem fill_eq (typed : kind.valueKind? change.field = some expected) :
    change.fill kind context fields = (do
      let value ← context.value change.source
      let coerced ← coerceFor change.field value expected
      return fields.insert change.field (.constant coerced)) := by
  rcases NodeKind.field?_of_valueKind? typed with ⟨⟨_, _, _⟩, found, rfl⟩
  simp only [Override.fill, found]

/-- Overrides with the values of a table complete the fields to those of the table. -/
theorem foldlM_fill_eq_ok
    (each : ∀ change ∈ overrides, ∃ expected value coerced,
      kind.valueKind? change.field = some expected ∧ context.value change.source = .ok value ∧
        value.coerce? expected = some coerced ∧
        target.get? change.field = some (.constant coerced))
    (others : ∀ name, fields.get? name = target.get? name ∨
      ∃ change ∈ overrides, change.field = name) :
    ∃ filled, overrides.foldlM (Override.fill kind context) fields = .ok filled ∧
      ∀ name, filled.get? name = target.get? name := by
  induction overrides generalizing fields with
  | nil => exact ⟨fields, rfl, fun name => (others name).resolve_right (by simp)⟩
  | cons first rest ih =>
    rcases each first List.mem_cons_self with
      ⟨expected, value, coerced, typed, resolved, fits, given⟩
    rw [List.foldlM_cons, fill_eq typed, resolved]
    simp only [bind, Except.bind, coerceFor_eq_ok.2 fits]
    refine ih (fun change listed => each change (List.mem_cons_of_mem _ listed)) fun name => ?_
    by_cases same : name = first.field
    · left
      rw [same, given, Table.get?_insert_self]
    · rw [Table.get?_insert_of_ne same]
      refine (others name).imp_right ?_
      rintro ⟨change, listed, rfl⟩
      rcases List.mem_cons.1 listed with rfl | later
      · exact absurd rfl same
      · exact ⟨change, later, rfl⟩

/-- A field with an override holds what its binding resolves to. -/
theorem get?_of_foldlM_fill_of_mem (typed : kind.valueKind? change.field = some expected)
    (unique : ∀ other ∈ overrides, other.field = change.field → other.source = change.source)
    (filling : overrides.foldlM (Override.fill kind context) fields = .ok filled)
    (listed : change ∈ overrides) :
    ∃ value coerced, context.value change.source = .ok value ∧
      value.coerce? expected = some coerced ∧
      filled.get? change.field = some (.constant coerced) := by
  induction overrides generalizing fields with
  | nil => cases listed
  | cons first rest ih =>
    rw [List.foldlM_cons, bind_eq_ok] at filling
    rcases filling with ⟨middle, fill, filling⟩
    have uniqueRest := fun other later => unique other (List.mem_cons_of_mem first later)
    by_cases again : ∃ other ∈ rest, other.field = change.field
    · rcases again with ⟨⟨field, source⟩, later, sameField⟩
      have sameSource := uniqueRest _ later sameField
      simp only at sameField sameSource
      subst sameField sameSource
      exact ih uniqueRest filling later
    · rcases List.mem_cons.1 listed with rfl | later
      swap
      · exact absurd ⟨change, later, rfl⟩ again
      simp only [fill_eq typed, bind_eq_ok] at fill
      rcases fill with ⟨value, resolved, coerced, fits, done⟩
      cases done
      have spared : ∀ other ∈ rest, other.field ≠ change.field :=
        fun other later same => again ⟨other, later, same⟩
      refine ⟨value, coerced, resolved, coerceFor_eq_ok.1 fits, ?_⟩
      rw [get?_of_foldlM_fill spared filling]
      exact Table.get?_insert_self _ _ _

end Filling

/-- What a node keeps of its ports. -/
structure Node.Keeps (node : Node) (kind : NodeKind) (ports : NodePorts)
    (configuration : Option Configuration) : Prop where
  kind : node.kind = kind
  configuration : node.configuration = configuration
  fields : node.fields = ports.fields
  overrides : node.overrides = ports.overrides

section Nodes

variable {kind : NodeKind} {choice : String → Option Operand} {ports rebound : NodePorts}
  {node : Node} {settled : Option Configuration} {configuration : Configuration}
  {context : Context σ}

theorem Node.keeps_of_tells {dress : Node → Node} (tells : Node.Tells dress)
    (source : NodeSource) (children : List NodeIndex) :
    (dress (ports.node kind source children settled)).Keeps kind ports settled := by
  rcases tells (ports.node kind source children settled) with ⟨definition, parameters, told⟩
  rw [told]
  exact ⟨rfl, rfl, rfl, rfl⟩

theorem Node.Keeps.effectiveConfiguration_eq (keeps : node.Keeps kind ports settled)
    (overridden : ports.overrides ≠ []) :
    node.effectiveConfiguration context = (do
      let filled := ports.overrides.foldlM (Override.fill kind context) ports.fields
      let fields ← filled.mapError .error
      kind.configure fields) := by
  unfold effectiveConfiguration
  rw [keeps.overrides, keeps.fields, keeps.kind]
  split
  · contradiction
  · rfl

/-- When all bindings resolve to the literals in their places, a node runs as it did with them. -/
theorem Node.Keeps.effectiveConfiguration_eq_ok (keeps : node.Keeps kind rebound settled)
    (related : Rebound kind choice ports rebound)
    (dynamic : ∀ name operand, choice name = some operand → ∀ value, operand ≠ .constant value)
    (configured : kind.configure ports.fields = .ok configuration)
    (settles : rebound.overrides = [] → settled = some configuration)
    (each : ∀ change ∈ rebound.overrides, ∃ expected value coerced,
      kind.valueKind? change.field = some expected ∧ context.value change.source = .ok value ∧
        value.coerce? expected = some coerced ∧
        ports.fields.get? change.field = some (.constant coerced)) :
    node.effectiveConfiguration context = .ok configuration := by
  by_cases overridden : rebound.overrides = []
  · unfold effectiveConfiguration
    rw [keeps.overrides, overridden, keeps.configuration, settles overridden]
  · have others : ∀ name, rebound.fields.get? name = ports.fields.get? name ∨
        ∃ change ∈ rebound.overrides, change.field = name := by
      intro name
      rw [related.fields]
      cases chosen : choice name with
      | none => exact Or.inl rfl
      | some operand =>
        cases given : ports.fields.get? name with
        | none => exact Or.inl rfl
        | some old =>
          refine Or.inr ⟨⟨name, operand⟩, (related.overrides _).2 ⟨?_, chosen, ?_⟩, rfl⟩
          · rw [given]
            rfl
          · exact dynamic name operand chosen
    rcases foldlM_fill_eq_ok each others with ⟨filled, filling, same⟩
    rw [keeps.effectiveConfiguration_eq overridden, filling]
    exact (NodeKind.configure_congr same).trans configured

/-- A node that has a value which is refused has no configuration. -/
theorem Node.Keeps.effectiveConfiguration_eq_error (keeps : node.Keeps kind rebound settled)
    (overridden : rebound.overrides ≠ [])
    (configured : kind.configure ports.fields = .ok configuration) {name : String}
    (refused : ∀ filled,
      rebound.overrides.foldlM (Override.fill kind context) rebound.fields = .ok filled →
      ∃ value, Refuses kind ports.fields name value ∧
        filled.get? name = some (.constant value)) :
    ∃ cause, node.effectiveConfiguration context = .error (.error cause) := by
  rw [keeps.effectiveConfiguration_eq overridden]
  cases filling : rebound.overrides.foldlM (Override.fill kind context) rebound.fields with
  | error cause => exact ⟨cause, rfl⟩
  | ok filled =>
    rcases refused filled filling with ⟨value, ⟨other, cause, elsewhere, there, fails⟩, holds⟩
    exact NodeKind.refused_of_get? configured elsewhere fails (holds.trans there.symm)

end Nodes

section Ticks

variable [RemoteService σ] {setting : Setting} {index : NodeIndex} {node : Node}
  {context : Context σ} {cause : BindingError}

/-- A tick on which a node is not run, because it has no configuration: no other node is ticked, the
node fails, reports why, and is halted like every node that is over. -/
def FailsUnrun (setting : Setting) (index : NodeIndex) (node : Node) (context : Context σ) : Prop :=
  ∃ cause, node.effectiveConfiguration context = .error (.error cause) ∧
    ∀ depth, Ends (tickWithin setting (depth + 1) index) context
      (fun status after => status = .failure ∧
        ((context.report setting index node (.binding cause)).visit
          ⟨⟨context.frame, index⟩, .failure, some (.binding cause)⟩).Halts setting.tree
            [⟨context.frame, index⟩] after)
      fun _ _ => False

/-- Without a configuration, a node fails at once and leaves everything as it is. -/
theorem outcome_attemptNode_of_binding (setting : Setting) (run : NodeIndex → Tick σ Status)
    (key : RunKey)
    (effective : node.effectiveConfiguration context = .error (.error cause)) :
    outcome (attemptNode setting run key node) context =
      (.error (.node (.binding cause)), context) := by
  have read : outcome (get : Attempt σ (Context σ)) context = (.ok context, context) := rfl
  unfold attemptNode
  rw [outcome_bind, read]
  simp only [effective]
  rfl

/-- A node without a configuration fails with a report. -/
theorem failsUnrun_of_binding (wellFormed : setting.tree.WellFormed)
    (found : setting.tree.node? index = some node)
    (effective : node.effectiveConfiguration context = .error (.error cause)) :
    FailsUnrun setting index node context := by
  refine ⟨cause, effective, fun depth => ?_⟩
  have settled : Ends (settleAttempt setting ⟨context.frame, index⟩ node
      (attemptNode setting (tickWithin setting depth) ⟨context.frame, index⟩ node)) context
      (fun status noted => status = .failure ∧
        noted = (context.report setting index node (.binding cause)).visit
          ⟨⟨context.frame, index⟩, .failure, some (.binding cause)⟩)
      fun _ _ => False := by
    have attempted := outcome_attemptNode_of_binding setting (tickWithin setting depth)
      ⟨context.frame, index⟩ effective
    unfold outcome at attempted
    have settles : ∀ attempt : Attempt σ Status,
        outcome (settleAttempt setting ⟨context.frame, index⟩ node attempt) context =
          settleAttempt setting ⟨context.frame, index⟩ node attempt context := fun _ => rfl
    unfold Ends
    rw [settles, settleAttempt, attempted]
    exact ⟨rfl, rfl⟩
  unfold tickWithin
  simp only [found]
  rw [ends_bind, ends_get]
  refine settled.bind ?_
  rintro _ _ ⟨rfl, rfl⟩
  rw [ends_bind, concludeNode, if_neg (by decide)]
  refine (ends_halt wellFormed (by rw [found]; rfl) _).mono ?_ fun _ _ impossible => impossible
  exact fun _ after halts => ⟨rfl, halts⟩

end Ticks

/-- Some fields of a node in a definition are bound to variables and declared parameters. The leases
of a node cannot be bound. -/
def Bindable (tree : TreeSource) (kind : NodeKind) (choice : String → Option Operand) : Prop :=
  ∀ name operand, choice name = some operand →
    name ≠ "leases" ∧ (kind.valueKind? name).isSome ∧ tree.Binds operand

section Missions

variable {gap : Gap} {source : NodeSource} {kind : NodeKind} {tree : Tree} {node : Node}
  {configuration : Configuration} {choice : String → Option Operand} {name : String}

theorem Bindable.admits {definition : TreeSource} (bindable : Bindable definition kind choice)
    {operand : Operand} (chosen : choice name = some operand) :
    Admits definition kind name operand := by
  rcases bindable name operand chosen with ⟨free, typed, binds⟩
  rcases Option.isSome_iff_exists.1 typed with ⟨expected, typed⟩
  exact .binding typed free binds

theorem Bindable.dynamic {definition : TreeSource} (bindable : Bindable definition kind choice)
    (name : String) (operand : Operand) (chosen : choice name = some operand) (value : Value) :
    operand ≠ .constant value := by
  rintro rfl
  exact (bindable name _ chosen).2.2

/-- A node with literals in a mission that is accepted, and how the mission is loaded with other
ports of this node. -/
structure Stands (gap : Gap) (source : NodeSource) (kind : NodeKind) (tree : Tree)
    (configuration : Configuration) (children : List NodeIndex) (ports : NodePorts)
    (dress : Node → Node) : Prop where
  fixed : source.IsFixed kind
  tells : Node.Tells dress
  sorts : Sorts (gap.definition source) kind source children ports
  configured : kind.configure ports.fields = .ok configuration
  loaded : Tree.ofSource (gap.mission source) = .ok tree
  inside : gap.position source < tree.nodes.size
  others : ∀ ports, Tree.ofSource (gap.mission (source.withPorts ports)) =
    (layoutNode (gap.definition source) kind (source.withPorts ports) children).map
      fun other => { tree with
        nodes := tree.nodes.setIfInBounds (gap.position source) (dress other) }

theorem exists_stands (named : NodeKind.ofName? source.kind = some kind)
    (fixed : source.IsFixed kind) (loaded : Tree.ofSource (gap.mission source) = .ok tree)
    (found : tree.node? (gap.position source) = some node)
    (static : node.configuration = some configuration) :
    ∃ children ports dress, Stands gap source kind tree configuration children ports dress := by
  rcases gap.ofSource_mission named loaded with
    ⟨children, laidNode, dress, tells, laid, foundLaid, others⟩
  rcases sorts_of_layoutNode laid with ⟨ports, settled, sorts, settles, rfl⟩
  have same := Option.some.inj (found.symm.trans foundLaid)
  have keeps : node.Keeps kind ports settled := by
    rw [same]
    exact Node.keeps_of_tells tells source children
  rcases configure_of_settle settles (sorts.overrides_eq_nil fixed) with
    ⟨chosen, isChosen, configured⟩
  rw [keeps.configuration, isChosen, Option.some.injEq] at static
  rw [static] at configured
  exact ⟨children, ports, dress, fixed, tells, sorts, configured, loaded,
    (Array.getElem?_eq_some_iff.1 found).1, others⟩

namespace Stands

variable {children : List NodeIndex} {ports rebound : NodePorts} {dress : Node → Node}
  {settled : Option Configuration} {expected : ValueKind} {value coerced : Value} {old : Operand}
  {error : LoadError}

/-- The mission is accepted with other ports of the node if the node is laid out with them. -/
theorem load (stands : Stands gap source kind tree configuration children ports dress)
    (sorts : Sorts (gap.definition source) kind (source.rebind choice) children rebound)
    (settles : rebound.settle kind source.title = .ok settled) :
    ∃ reboundTree reboundNode,
      Tree.ofSource (gap.mission (source.rebind choice)) = .ok reboundTree ∧
      reboundTree.node? (gap.position source) = some reboundNode ∧
      reboundNode.Keeps kind rebound settled := by
  have laid : layoutNode (gap.definition source) kind (source.rebind choice) children =
      .ok (rebound.node kind (source.rebind choice) children settled) := by
    have sameTitle : (source.rebind choice).title = source.title := rfl
    rw [sorts.layoutNode_eq, sameTitle, settles]
    rfl
  have loaded := stands.others (source.ports.map (PortSource.rebind choice))
  change Tree.ofSource (gap.mission (source.rebind choice)) =
    (layoutNode (gap.definition source) kind (source.rebind choice) children).map _ at loaded
  rw [laid] at loaded
  refine ⟨_, _, loaded, ?_, Node.keeps_of_tells stands.tells (source.rebind choice) children⟩
  exact (Array.getElem?_setIfInBounds_self ..).trans (if_pos stands.inside)

theorem layoutNode_withLiteral
    (stands : Stands gap source kind tree configuration children ports dress)
    (rejected : Tree.ofSource (gap.mission (source.withLiteral name value)) =
      .error (.error error)) :
    layoutNode (gap.definition source) kind (source.withLiteral name value) children =
      .error (.error error) := by
  have loads := stands.others (source.withLiteral name value).ports
  change Tree.ofSource (gap.mission (source.withLiteral name value)) =
    (layoutNode (gap.definition source) kind (source.withLiteral name value) children).map _
      at loads
  rw [rejected] at loads
  cases laid : layoutNode (gap.definition source) kind (source.withLiteral name value)
      children with
  | ok other =>
    rw [laid] at loads
    cases loads
  | error failure =>
    rw [laid] at loads
    cases loads
    rfl

/-- A literal for which the mission is rejected stands in the place of another one. -/
theorem exists_literal (stands : Stands gap source kind tree configuration children ports dress)
    (typed : kind.valueKind? name = some expected)
    (rejected : Tree.ofSource (gap.mission (source.withLiteral name value)) =
      .error (.error error)) :
    ∃ port ∈ source.ports, port.direction = .input ∧ port.name = name ∧
      ∃ old, ports.fields.get? name = some (.constant old) := by
  have named : ∃ port ∈ source.ports, port.direction = .input ∧ port.name = name := by
    by_contra unnamed
    have same : source.withLiteral name value = source := by
      refine NodeSource.rebind_eq_self fun port listed input => ?_
      exact if_neg fun named => unnamed ⟨port, listed, input, named⟩
    rw [same, stands.loaded] at rejected
    cases rejected
  rcases named with ⟨port, isPort, input, rfl⟩
  rcases stands.fixed.literal port isPort input (by rw [typed]; rfl) with ⟨old, literal⟩
  rcases stands.sorts.literal stands.fixed isPort input typed literal with ⟨coerced, -, given⟩
  exact ⟨port, isPort, input, rfl, coerced, given⟩

/-- Bindings that resolve to the literals of their ports give the fields of these literals. -/
theorem literal_of_override
    (stands : Stands gap source kind tree configuration children ports dress)
    (related : Rebound kind choice ports rebound)
    (bindable : Bindable (gap.definition source) kind choice) {σ : Type} {context : Context σ}
    (resolves : ∀ port ∈ source.ports, port.direction = .input →
      ∀ operand, choice port.name = some operand →
        ∃ value, port.operand = .constant value ∧ context.value operand = .ok value) :
    ∀ change ∈ rebound.overrides, ∃ expected value coerced,
      kind.valueKind? change.field = some expected ∧ context.value change.source = .ok value ∧
        value.coerce? expected = some coerced ∧
        ports.fields.get? change.field = some (.constant coerced) := by
  intro change listed
  rcases (related.overrides change).1 listed with ⟨given, chosen, -⟩
  rcases stands.sorts.exists_port given with ⟨port, isPort, input, named⟩
  rw [← named] at chosen ⊢
  rcases resolves port isPort input _ chosen with ⟨value, literal, resolved⟩
  rcases Option.isSome_iff_exists.1 (bindable _ _ chosen).2.1 with ⟨expected, typed⟩
  rcases stands.sorts.literal stands.fixed isPort input typed literal with
    ⟨coerced, fits, holds⟩
  exact ⟨expected, value, coerced, typed, resolved, fits, holds⟩

/-- A binding that resolves to a value which is rejected as a literal leaves the node without a
configuration. -/
theorem error_of_override
    (stands : Stands gap source kind tree configuration children ports dress)
    (related : Rebound kind choice ports rebound) (keeps : node.Keeps kind rebound settled)
    (bindable : Bindable (gap.definition source) kind choice) {σ : Type} {context : Context σ}
    {operand : Operand} (chosen : choice name = some operand)
    (resolved : context.value operand = .ok value)
    (rejected : Tree.ofSource (gap.mission (source.withLiteral name value)) =
      .error (.error error)) :
    ∃ cause, node.effectiveConfiguration context = .error (.error cause) := by
  rcases Option.isSome_iff_exists.1 (bindable _ _ chosen).2.1 with ⟨expected, typed⟩
  rcases stands.exists_literal typed rejected with ⟨_, -, -, -, old, given⟩
  have overridden : ⟨name, operand⟩ ∈ rebound.overrides :=
    (related.overrides _).2 ⟨by rw [given]; rfl, chosen, bindable.dynamic _ _ chosen⟩
  have unique : ∀ other ∈ rebound.overrides, other.field = name → other.source = operand := by
    intro other listed same
    have chosenOther := ((related.overrides other).1 listed).2.1
    rw [same, chosen, Option.some.injEq] at chosenOther
    exact chosenOther.symm
  have refused : ∀ filled,
      rebound.overrides.foldlM (Override.fill kind context) rebound.fields = .ok filled →
      ∃ value, Refuses kind ports.fields name value ∧
        filled.get? name = some (.constant value) := by
    intro filled filling
    rcases get?_of_foldlM_fill_of_mem typed unique filling overridden with
      ⟨again, coerced, resolvedAgain, fits, holds⟩
    cases resolved.symm.trans resolvedAgain
    exact ⟨coerced, stands.sorts.refuses stands.fixed typed fits given
      (stands.layoutNode_withLiteral rejected), holds⟩
  exact keeps.effectiveConfiguration_eq_error (List.ne_nil_of_mem overridden) stands.configured
    refused

end Stands

/-- An override acts as the literal would. A node of a kind, whose fields have literals, is accepted
as well with any of these fields bound to variables and parameters. Whenever they resolve to the
literals, the node has the configuration that it has with the literals; and whenever one of them
resolves to a value for which the mission would have been rejected, the node fails. -/
theorem overrides_act_as_literals (named : NodeKind.ofName? source.kind = some kind)
    (fixed : source.IsFixed kind) (loaded : Tree.ofSource (gap.mission source) = .ok tree)
    (found : tree.node? (gap.position source) = some node)
    (static : node.configuration = some configuration)
    (bindable : Bindable (gap.definition source) kind choice) :
    ∃ reboundTree reboundNode,
      Tree.ofSource (gap.mission (source.rebind choice)) = .ok reboundTree ∧
      reboundTree.node? (gap.position source) = some reboundNode ∧
      (∀ (σ : Type) (context : Context σ),
        (∀ port ∈ source.ports, port.direction = .input →
          ∀ operand, choice port.name = some operand →
            ∃ value, port.operand = .constant value ∧ context.value operand = .ok value) →
        reboundNode.effectiveConfiguration context = .ok configuration) ∧
      ∀ (σ : Type) [RemoteService σ] (setting : Setting) (context : Context σ),
        setting.tree = reboundTree →
        (∃ name operand value error, choice name = some operand ∧
          context.value operand = .ok value ∧
          Tree.ofSource (gap.mission (source.withLiteral name value)) = .error (.error error)) →
        FailsUnrun setting (gap.position source) reboundNode context := by
  rcases exists_stands named fixed loaded found static with ⟨children, ports, dress, stands⟩
  rcases stands.sorts.rebind fixed (fun _ _ chosen => bindable.admits chosen) with
    ⟨rebound, sortsRebound, related⟩
  rcases related.settle bindable.dynamic stands.configured with ⟨settled, settles, unbound⟩
  rcases stands.load sortsRebound settles with
    ⟨reboundTree, reboundNode, reboundLoaded, reboundFound, keeps⟩
  refine ⟨reboundTree, reboundNode, reboundLoaded, reboundFound, ?_, ?_⟩
  · intro σ context resolves
    exact keeps.effectiveConfiguration_eq_ok related bindable.dynamic stands.configured unbound
      (stands.literal_of_override related bindable resolves)
  · rintro σ _ setting context rfl ⟨name, operand, value, error, chosen, resolved, rejected⟩
    rcases stands.error_of_override related keeps bindable chosen resolved rejected with
      ⟨cause, effective⟩
    exact failsUnrun_of_binding (Tree.wellFormed_ofSource reboundLoaded) reboundFound effective

/-- A mission that consists of one node. -/
def Gap.alone : Gap := ⟨[], "main", [], [], []⟩

/-- A comparison of values that must not be older than five seconds. -/
def ageCheck (operation : String) : NodeSource :=
  .node "Condition" none
    [⟨.input, "lhs", .constant (.int 1)⟩, ⟨.input, "rhs", .constant (.int 1)⟩,
      ⟨.input, "operation", .constant (.string operation)⟩,
      ⟨.input, "max_age", .constant (.int 5)⟩] []

theorem isFixed_ageCheck (operation : String) : (ageCheck operation).IsFixed .condition := by
  refine ⟨List.nodup_iff_pairwise_ne.2 (by simp [ageCheck, NodeSource.ports]), ?_⟩
  intro port listed _ _
  simp only [ageCheck, NodeSource.ports, List.mem_cons, List.not_mem_nil, or_false] at listed
  rcases listed with rfl | rfl | rfl | rfl <;> exact ⟨_, rfl⟩

def ageCheckTree : Tree :=
  (Tree.ofSource (Gap.alone.mission (ageCheck "="))).toOption.getD default

theorem ofSource_ageCheck :
    Tree.ofSource (Gap.alone.mission (ageCheck "=")) = .ok ageCheckTree := by cbv

theorem ofSource_ageCheck_unknown :
    Tree.ofSource (Gap.alone.mission ((ageCheck "=").withLiteral "operation" (.string "??"))) =
      .error (.error (.invalid "Condition" (.invalidValue "operation" "??"))) := by cbv

/-- What a comparison for equality runs with. -/
def ageCheckConfiguration : Configuration :=
  .condition ⟨.constant (.int 1), .constant (.int 1), .equal,
    ⟨.readAnyway, some (.ofMilliseconds 5000)⟩⟩

theorem node?_ageCheckTree :
    ∃ node, ageCheckTree.node? (Gap.alone.position (ageCheck "=")) = some node ∧
      node.configuration = some ageCheckConfiguration :=
  ⟨(ageCheckTree.node? 0).getD default, by cbv, by cbv⟩

/-- The operation of a comparison and the age that it allows, taken from variables. -/
def fromVariables : String → Option Operand
  | "operation" => some (.path "operator")
  | "max_age" => some (.path "limit")
  | _ => none

theorem bindable_fromVariables (definition : TreeSource) :
    Bindable definition .condition fromVariables := by
  intro name operand chosen
  unfold fromVariables at chosen
  split at chosen
  · cases chosen
    exact ⟨by decide, rfl, trivial⟩
  · cases chosen
    exact ⟨by decide, rfl, trivial⟩
  · cases chosen

/-- A context with variables for the fields of a comparison. -/
def withOperator (operator : String) : Context ScriptedService :=
  .atRoot
    ⟨[⟨0, some ⟨none, .ofList [("operator", ⟨.string operator, .zero, none⟩),
      ("limit", ⟨.int 5, .zero, none⟩)]⟩⟩], []⟩
    .empty .empty []

theorem ageCheck_overridden :
    ∃ reboundTree reboundNode,
      Tree.ofSource (Gap.alone.mission ((ageCheck "=").rebind fromVariables)) = .ok reboundTree ∧
      reboundTree.node? (Gap.alone.position (ageCheck "=")) = some reboundNode ∧
      reboundNode.effectiveConfiguration (withOperator "=") = .ok ageCheckConfiguration ∧
      FailsUnrun ⟨reboundTree, .standard, .zero, 0, default⟩ (Gap.alone.position (ageCheck "="))
        reboundNode (withOperator "??") := by
  rcases node?_ageCheckTree with ⟨node, found, static⟩
  rcases overrides_act_as_literals rfl (isFixed_ageCheck "=") ofSource_ageCheck found static
    (bindable_fromVariables _) with ⟨reboundTree, reboundNode, loaded, reboundFound, runs, fails⟩
  refine ⟨reboundTree, reboundNode, loaded, reboundFound, runs _ _ ?_, fails _ _ _ rfl ?_⟩
  · intro port listed _ operand chosen
    simp only [ageCheck, NodeSource.ports, List.mem_cons, List.not_mem_nil, or_false] at listed
    rcases listed with rfl | rfl | rfl | rfl <;> cases chosen
    · exact ⟨_, rfl, by cbv⟩
    · exact ⟨_, rfl, by cbv⟩
  · exact ⟨"operation", _, .string "??", _, rfl, by cbv, ofSource_ageCheck_unknown⟩

/-- An error other than that a node has no configuration. -/
def LoadError.IsOther (error : LoadError) : Prop := ∀ node cause, error ≠ .invalid node cause

theorem failsOnly_checkOperand (definition : TreeSource) (operand : Operand) :
    FailsOnly LoadError.IsOther (definition.checkOperand operand) := by
  unfold TreeSource.checkOperand
  split
  · split
    · exact failsOnly_ok _
    · exact failsOnly_error (by simp [LoadError.IsOther])
  · exact failsOnly_ok _

theorem failsOnly_coerceLiteral (title field : String) (literal : Value) (expected : ValueKind) :
    FailsOnly LoadError.IsOther (coerceLiteral title field literal expected) := by
  unfold coerceLiteral
  split
  · exact failsOnly_ok _
  · exact failsOnly_error (by simp [LoadError.IsOther])

theorem failsOnly_addOutput (ports : NodePorts) (title : String) (port : PortSource) :
    FailsOnly LoadError.IsOther (ports.addOutput kind title port) := by
  unfold NodePorts.addOutput
  split
  · split
    · exact failsOnly_ok _
    · exact failsOnly_error (by simp [LoadError.IsOther])
  · exact failsOnly_error (by simp [LoadError.IsOther])

theorem failsOnly_addField (ports : NodePorts) (title field : String) (operand : Operand) :
    FailsOnly LoadError.IsOther (ports.addField kind title field operand) := by
  unfold NodePorts.addField
  split
  · exact failsOnly_error (by simp [LoadError.IsOther])
  · split
    · exact failsOnly_ok _
    · exact (failsOnly_coerceLiteral _ _ _ _).bind fun _ => failsOnly_ok _
    · split
      · exact failsOnly_error (by simp [LoadError.IsOther])
      · exact failsOnly_ok _

/-- That a node has no configuration is found after its ports are sorted. -/
theorem failsOnly_add (definition : TreeSource) (title : String) (ports : NodePorts)
    (port : PortSource) :
    FailsOnly LoadError.IsOther (NodePorts.add definition kind title ports port) := by
  unfold NodePorts.add
  split
  · exact failsOnly_addOutput ports title port
  · refine (failsOnly_checkOperand definition port.operand).bind fun operand => ?_
    split
    · exact failsOnly_ok _
    · exact failsOnly_addField ports title port.name operand

/-- A literal for which the configuration of a node is invalid is of the kind of its field. -/
theorem fits_of_invalid {definition : TreeSource} {children : List NodeIndex} {value : Value}
    {expected : ValueKind} {title : String} {cause : BindingError} (fixed : source.IsFixed kind)
    (typed : kind.valueKind? name = some expected)
    (isPort : ∃ port ∈ source.ports, port.direction = .input ∧ port.name = name)
    (invalid : layoutNode definition kind (source.withLiteral name value) children =
      .error (.error (.invalid title cause))) :
    ∃ coerced, value.coerce? expected = some coerced := by
  rcases isPort with ⟨port, listed, input, rfl⟩
  have names : (source.withLiteral port.name value).ports.map PortSource.name =
      source.ports.map PortSource.name := by
    change (source.ports.map (PortSource.rebind _)).map PortSource.name = _
    rw [List.map_map]
    exact List.map_congr_left fun other _ => other.name_rebind _
  have changed : PortSource.mk .input port.name (.constant value) ∈
      (source.withLiteral port.name value).ports := by
    refine List.mem_map.2 ⟨port, listed, ?_⟩
    simp [PortSource.rebind, input]
  unfold layoutNode at invalid
  split at invalid
  · cases invalid
  dsimp only at invalid
  cases sorted : (source.withLiteral port.name value).ports.foldlM
      (NodePorts.add definition kind (source.withLiteral port.name value).title) .empty with
  | error error =>
    rw [sorted] at invalid
    cases invalid
    exact absurd rfl (failsOnly_foldlM (failsOnly_add definition _) _ _ _ sorted title cause)
  | ok after =>
    rcases field_of_literal sorted (names ▸ fixed.once) changed typed rfl rfl with
      ⟨coerced, fits, -⟩
    exact ⟨coerced, fits⟩

/-- Some fields are bound, and another one has a literal that fits. -/
theorem Bindable.admits_beside {definition : TreeSource}
    (bindable : Bindable definition kind choice) {expected : ValueKind} {value coerced : Value}
    (typed : kind.valueKind? name = some expected) (fits : value.coerce? expected = some coerced)
    (other : String) (operand : Operand)
    (chosen : (choice other).or (if other = name then some (.constant value) else none) =
      some operand) : Admits definition kind other operand := by
  cases binds : choice other with
  | some binding =>
    rw [binds, Option.some_or, Option.some.injEq] at chosen
    rw [← chosen]
    exact bindable.admits binds
  | none =>
    rw [binds, Option.none_or] at chosen
    split at chosen
    · rename_i same
      cases chosen
      exact .literal (by rw [same, typed]) fits
    · cases chosen

/-- A field that is bound has an override. -/
theorem Stands.mem_overrides {children : List NodeIndex} {ports rebound : NodePorts}
    {dress : Node → Node} {whole : String → Option Operand} {operand : Operand} {port : PortSource}
    (stands : Stands gap source kind tree configuration children ports dress)
    (related : Rebound kind whole ports rebound)
    (bindable : Bindable (gap.definition source) kind choice)
    (isPort : port ∈ source.ports) (input : port.direction = .input)
    (chosen : choice port.name = some operand) (included : whole port.name = some operand) :
    ⟨port.name, operand⟩ ∈ rebound.overrides := by
  rcases Option.isSome_iff_exists.1 (bindable _ _ chosen).2.1 with ⟨expected, typed⟩
  rcases stands.fixed.literal port isPort input (by rw [typed]; rfl) with ⟨value, literal⟩
  rcases stands.sorts.literal stands.fixed isPort input typed literal with ⟨_, -, holds⟩
  exact (related.overrides _).2 ⟨by rw [holds]; rfl, included, bindable.dynamic _ _ chosen⟩

/-- A literal for which a mission is rejected is only looked at when nothing else is bound. A node
whose configuration is invalid because of a literal is rejected as long as none of its other fields
is bound. As soon as one of them is bound to a variable or a parameter, the mission is accepted, and
the node fails on every tick, whatever the bindings resolve to. -/
theorem invalid_literal_accepted_if_bound {bad : Value} {title : String} {cause : BindingError}
    (named : NodeKind.ofName? source.kind = some kind) (fixed : source.IsFixed kind)
    (loaded : Tree.ofSource (gap.mission source) = .ok tree)
    (found : tree.node? (gap.position source) = some node)
    (static : node.configuration = some configuration)
    (typed : (kind.valueKind? name).isSome)
    (rejected : Tree.ofSource (gap.mission (source.withLiteral name bad)) =
      .error (.error (.invalid title cause)))
    (bindable : Bindable (gap.definition source) kind choice) (kept : choice name = none) :
    ((∀ port ∈ source.ports, port.direction = .input → choice port.name = none) →
      Tree.ofSource (gap.mission ((source.withLiteral name bad).rebind choice)) =
        .error (.error (.invalid title cause))) ∧
    ((∃ port ∈ source.ports, port.direction = .input ∧ (choice port.name).isSome) →
      ∃ reboundTree reboundNode,
        Tree.ofSource (gap.mission ((source.withLiteral name bad).rebind choice)) =
          .ok reboundTree ∧
        reboundTree.node? (gap.position source) = some reboundNode ∧
        reboundNode.configuration = none ∧
        ∀ (σ : Type) [RemoteService σ] (setting : Setting) (context : Context σ),
          setting.tree = reboundTree →
          FailsUnrun setting (gap.position source) reboundNode context) := by
  rcases exists_stands named fixed loaded found static with ⟨children, ports, dress, stands⟩
  rcases Option.isSome_iff_exists.1 typed with ⟨expected, typed⟩
  refine ⟨fun unbound => ?_, ?_⟩
  · rw [NodeSource.rebind_eq_self, rejected]
    intro changed listed input
    rcases List.mem_map.1 listed with ⟨port, isPort, rfl⟩
    rw [PortSource.direction_rebind] at input
    rw [PortSource.name_rebind]
    exact unbound port isPort input
  rintro ⟨bound, isBound, boundInput, isChosen⟩
  rcases Option.isSome_iff_exists.1 isChosen with ⟨operand, chosen⟩
  rcases stands.exists_literal typed rejected with ⟨port, isPort, input, isName, old, given⟩
  have laid := stands.layoutNode_withLiteral rejected
  rcases fits_of_invalid fixed typed ⟨port, isPort, input, isName⟩ laid with ⟨coerced, fits⟩
  have refuses := stands.sorts.refuses fixed typed fits given laid
  rw [NodeSource.withLiteral, NodeSource.rebind_rebind]
  have atName : (choice name).or (if name = name then some (.constant bad) else none) =
      some (.constant bad) := by
    simp [kept]
  rcases stands.sorts.rebind fixed (bindable.admits_beside typed fits) with
    ⟨rebound, sortsRebound, related⟩
  have held : rebound.fields.get? name = some (.constant coerced) := by
    rw [related.fields, atName]
    simp [given, NodeKind.literal?, typed, fits]
  have overridden : rebound.overrides ≠ [] :=
    List.ne_nil_of_mem (stands.mem_overrides related bindable isBound boundInput chosen
      (by rw [chosen, Option.some_or]))
  have spared : ∀ change ∈ rebound.overrides, change.field ≠ name := by
    intro change listed same
    rcases (related.overrides change).1 listed with ⟨-, isSource, dynamic⟩
    rw [same, atName, Option.some.injEq] at isSource
    exact dynamic bad isSource.symm
  have settles : rebound.settle kind source.title = .ok none := by
    rcases refuses with ⟨other, first, elsewhere, there, fails⟩
    rcases NodeKind.refused_of_get? stands.configured elsewhere fails (held.trans there.symm) with
      ⟨second, refused⟩
    simp [NodePorts.settle, refused, overridden]
  rcases stands.load sortsRebound settles with
    ⟨reboundTree, reboundNode, reboundLoaded, reboundFound, keeps⟩
  refine ⟨reboundTree, reboundNode, reboundLoaded, reboundFound, keeps.configuration, ?_⟩
  rintro σ _ setting context rfl
  rcases keeps.effectiveConfiguration_eq_error overridden stands.configured
    fun filled filling => ⟨coerced, refuses, (get?_of_foldlM_fill spared filling).trans held⟩ with
    ⟨first, effective⟩
  exact failsUnrun_of_binding (Tree.wellFormed_ofSource reboundLoaded) reboundFound effective

/-- The age that a comparison allows, taken from a variable. -/
def limitFromVariable (name : String) : Option Operand :=
  if name = "max_age" then some (.path "limit") else none

theorem bindable_limitFromVariable (definition : TreeSource) :
    Bindable definition .condition limitFromVariable := by
  intro name operand chosen
  unfold limitFromVariable at chosen
  split at chosen
  · rename_i same
    cases chosen
    subst same
    exact ⟨by decide, rfl, trivial⟩
  · cases chosen

theorem unknown_operation_fails_unrun :
    ∃ reboundTree reboundNode,
      Tree.ofSource (Gap.alone.mission
        (((ageCheck "=").withLiteral "operation" (.string "??")).rebind limitFromVariable)) =
          .ok reboundTree ∧
      reboundNode.configuration = none ∧
      FailsUnrun ⟨reboundTree, .standard, .zero, 0, default⟩ (Gap.alone.position (ageCheck "="))
        reboundNode (withOperator "=") := by
  rcases node?_ageCheckTree with ⟨node, found, static⟩
  rcases (invalid_literal_accepted_if_bound rfl (isFixed_ageCheck "=") ofSource_ageCheck found
    static rfl ofSource_ageCheck_unknown (bindable_limitFromVariable _) rfl).2
    ⟨⟨.input, "max_age", .constant (.int 5)⟩, by simp [ageCheck, NodeSource.ports], rfl, rfl⟩ with
    ⟨reboundTree, reboundNode, loaded, -, unconfigured, fails⟩
  exact ⟨reboundTree, reboundNode, loaded, unconfigured, fails _ _ _ rfl⟩

/-- A comparison with an operation that does not exist is rejected with literals in all fields, and
accepted with a variable for the age that it allows. -/
theorem unknown_operation_accepted :
    Tree.ofSource (Gap.alone.mission (ageCheck "??")) =
      .error (.error (.invalid "Condition" (.invalidValue "operation" "??"))) ∧
    Tree.ofSource (Gap.alone.mission (ageCheck "=")) = .ok ageCheckTree ∧
    ∃ tree, Tree.ofSource (Gap.alone.mission ((ageCheck "??").rebind limitFromVariable)) =
      .ok tree :=
  ⟨by cbv, ofSource_ageCheck,
    (Tree.ofSource (Gap.alone.mission ((ageCheck "??").rebind limitFromVariable))).toOption.getD
      default, by cbv⟩

end Missions

end BehaviorTree
