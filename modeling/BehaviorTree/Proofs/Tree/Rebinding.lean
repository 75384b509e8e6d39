import BehaviorTree.Proofs.Node.Fields
import BehaviorTree.Proofs.Table
import BehaviorTree.Proofs.Tree.Gaps

/-!
# Fields that are connected anew

A node whose fields are literals may have some of them connected with something else: with another
literal, or with a variable or a parameter. Its other ports are sorted as before. A field with
another literal has another value, and a field that is bound to a variable or a parameter becomes an
override. So a node is laid out with overrides whenever it was laid out with literals.
-/

namespace BehaviorTree

/-- The kind of the values that a field takes, unless it takes operands. -/
def NodeKind.valueKind? (kind : NodeKind) (name : String) : Option ValueKind :=
  match kind.field? name with
  | some ⟨_, .value expected, _⟩ => some expected
  | _ => none

/-- A port with another operand, if there is one for its field. -/
def PortSource.rebind (choice : String → Option Operand) (port : PortSource) : PortSource :=
  match port.direction, choice port.name with
  | .input, some operand => { port with operand := operand }
  | _, _ => port

@[simp]
theorem PortSource.name_rebind (choice : String → Option Operand) (port : PortSource) :
    (port.rebind choice).name = port.name := by
  unfold rebind
  split <;> rfl

@[simp]
theorem PortSource.direction_rebind (choice : String → Option Operand) (port : PortSource) :
    (port.rebind choice).direction = port.direction := by
  unfold rebind
  split <;> rfl

namespace NodeSource

/-- A node with other operands for some of its fields. -/
def rebind (choice : String → Option Operand) (source : NodeSource) : NodeSource :=
  source.withPorts (source.ports.map (PortSource.rebind choice))

def withLiteral (source : NodeSource) (name : String) (value : Value) : NodeSource :=
  source.rebind fun other => if other = name then some (.constant value) else none

/-- Every port is named once, and fields that take values have literals. -/
structure IsFixed (source : NodeSource) (kind : NodeKind) : Prop where
  once : (source.ports.map PortSource.name).Nodup
  literal : ∀ port ∈ source.ports, port.direction = .input →
    (kind.valueKind? port.name).isSome → ∃ value, port.operand = .constant value

end NodeSource

/-- An operand that is only known when a node runs: a variable or a declared parameter. -/
def TreeSource.Binds (tree : TreeSource) : Operand → Prop
  | .constant _ => False
  | .parameter name => name ∈ tree.parameters.map ParameterSource.name
  | .path _ => True

/-- What a field may be connected with: a literal that fits or, unless the field is that of the
leases, a variable or a declared parameter. -/
inductive Admits (tree : TreeSource) (kind : NodeKind) (name : String) : Operand → Prop where
  | literal {expected : ValueKind} {value coerced : Value}
      (typed : kind.valueKind? name = some expected)
      (fits : value.coerce? expected = some coerced) : Admits tree kind name (.constant value)
  | binding {expected : ValueKind} {operand : Operand}
      (typed : kind.valueKind? name = some expected) (free : name ≠ "leases")
      (binds : tree.Binds operand) : Admits tree kind name operand

section Ports

variable {tree : TreeSource} {kind : NodeKind} {title name : String} {expected : ValueKind}
  {ports after : NodePorts} {port : PortSource}

theorem NodeKind.field?_of_valueKind? (typed : kind.valueKind? name = some expected) :
    ∃ field, kind.field? name = some field ∧ field.kind = .value expected := by
  unfold valueKind? at typed
  split at typed
  · rename_i found
    cases typed
    exact ⟨_, found, rfl⟩
  · cases typed

theorem NodeKind.takesAssignments_of_valueKind? (typed : kind.valueKind? name = some expected) :
    kind.takesAssignments = false := by
  cases kind with
  | defineBlackboard | setBlackboard => cases typed
  | _ => rfl

theorem coerceLiteral_eq_ok {literal value : Value} :
    coerceLiteral title name literal expected = .ok value ↔
      literal.coerce? expected = some value := by
  unfold coerceLiteral
  split <;> simp [*]

/-- A literal becomes a field, if it fits. -/
theorem add_literal {value : Value} (typed : kind.valueKind? port.name = some expected)
    (input : port.direction = .input) (literal : port.operand = .constant value) :
    NodePorts.add tree kind title ports port =
      (coerceLiteral title port.name value expected).map fun value =>
        { ports with fields := ports.fields.insert port.name (.constant value) } := by
  rcases NodeKind.field?_of_valueKind? typed with ⟨field, found, isValue⟩
  have inputs := NodeKind.takesAssignments_of_valueKind? typed
  simp only [NodePorts.add, input, literal, TreeSource.checkOperand, inputs, NodePorts.addField,
    found, isValue]
  rfl

/-- A variable or a parameter becomes an override. -/
theorem add_binding (typed : kind.valueKind? port.name = some expected)
    (input : port.direction = .input) (free : port.name ≠ "leases")
    (binds : tree.Binds port.operand) :
    NodePorts.add tree kind title ports port =
      .ok { ports with overrides := ports.overrides ++ [⟨port.name, port.operand⟩] } := by
  rcases NodeKind.field?_of_valueKind? typed with ⟨field, found, isValue⟩
  have inputs := NodeKind.takesAssignments_of_valueKind? typed
  have checked : tree.checkOperand port.operand = .ok port.operand := by
    unfold TreeSource.checkOperand
    split
    · rename_i parameter isParameter
      rw [isParameter] at binds
      rcases List.mem_map.1 binds with ⟨declared, listed, named⟩
      exact if_pos (List.any_eq_true.2 ⟨declared, listed, by simpa using named⟩)
    · rfl
  simp only [NodePorts.add, input, checked, bind, Except.bind, inputs, NodePorts.addField, found,
    isValue, Bool.false_eq_true, if_false]
  cases operand : port.operand with
  | constant value =>
    rw [operand] at binds
    cases binds
  | parameter | path => exact if_neg free

/-- A port leaves the fields of other names as they are. -/
theorem get?_of_add (added : NodePorts.add tree kind title ports port = .ok after)
    (other : port.direction = .input → port.name ≠ name) :
    after.fields.get? name = ports.fields.get? name := by
  unfold NodePorts.add at added
  split at added
  · unfold NodePorts.addOutput at added
    split at added
    · split at added <;> cases added
      rfl
    · cases added
  · rename_i input
    have different : name ≠ port.name := (other input).symm
    rw [bind_eq_ok] at added
    rcases added with ⟨operand, -, added⟩
    split at added
    · cases added
      rfl
    · unfold NodePorts.addField at added
      split at added
      · cases added
      · split at added
        · cases added
          exact Table.get?_insert_of_ne different
        · rw [bind_eq_ok] at added
          rcases added with ⟨value, -, done⟩
          cases done
          exact Table.get?_insert_of_ne different
        · split at added <;> cases added
          rfl

theorem get?_of_foldlM_add {list : List PortSource}
    (sorted : list.foldlM (NodePorts.add tree kind title) ports = .ok after)
    (others : ∀ port ∈ list, port.direction = .input → port.name ≠ name) :
    after.fields.get? name = ports.fields.get? name := by
  induction list generalizing ports with
  | nil =>
    cases sorted
    rfl
  | cons first rest ih =>
    rw [List.foldlM_cons, bind_eq_ok] at sorted
    rcases sorted with ⟨middle, added, sorted⟩
    rw [ih sorted fun port listed => others port (List.mem_cons_of_mem _ listed)]
    exact get?_of_add added (others first List.mem_cons_self)

/-- A literal of a port that is named once is the value of the field. -/
theorem field_of_literal {list : List PortSource} {value : Value}
    (sorted : list.foldlM (NodePorts.add tree kind title) ports = .ok after)
    (once : (list.map PortSource.name).Nodup) (listed : port ∈ list)
    (typed : kind.valueKind? port.name = some expected) (input : port.direction = .input)
    (literal : port.operand = .constant value) :
    ∃ coerced, value.coerce? expected = some coerced ∧
      after.fields.get? port.name = some (.constant coerced) := by
  induction list generalizing ports with
  | nil => cases listed
  | cons first rest ih =>
    rw [List.map_cons, List.nodup_cons] at once
    rw [List.foldlM_cons, bind_eq_ok] at sorted
    rcases sorted with ⟨middle, added, sorted⟩
    rcases List.mem_cons.1 listed with rfl | listed
    · rw [add_literal typed input literal, map_eq_ok] at added
      rcases added with ⟨coerced, fits, done⟩
      subst done
      have others : ∀ other ∈ rest, other.direction = .input → other.name ≠ port.name :=
        fun other later _ same => once.1 (same ▸ List.mem_map_of_mem later)
      refine ⟨coerced, coerceLiteral_eq_ok.1 fits, ?_⟩
      rw [get?_of_foldlM_add sorted others]
      exact Table.get?_insert_self _ _ _
    · exact ih sorted once.2 listed

end Ports

/-- The value that a field has when it is connected with a literal. -/
def NodeKind.literal? (kind : NodeKind) (name : String) : Operand → Option Operand
  | .constant value => ((kind.valueKind? name).bind value.coerce?).map .constant
  | _ => none

/-- The ports of a node with literals, and those of the same node with some fields connected
anew. -/
structure Rebound (kind : NodeKind) (choice : String → Option Operand)
    (ports rebound : NodePorts) : Prop where
  outputs : rebound.outputs = ports.outputs
  assignments : rebound.assignments = ports.assignments
  literal : ports.overrides = []
  fields : ∀ name, rebound.fields.get? name =
    match choice name with
    | none => ports.fields.get? name
    | some operand => (ports.fields.get? name).bind fun _ => kind.literal? name operand
  overrides : ∀ change, change ∈ rebound.overrides ↔
    (ports.fields.get? change.field).isSome ∧ choice change.field = some change.source ∧
      ∀ value, change.source ≠ .constant value

theorem NodeKind.literal?_of_dynamic {kind : NodeKind} {name : String} {operand : Operand}
    (dynamic : ∀ value, operand ≠ .constant value) : kind.literal? name operand = none := by
  cases operand with
  | constant value => exact absurd rfl (dynamic value)
  | parameter | path => rfl

namespace Rebound

variable {tree : TreeSource} {kind : NodeKind} {title : String} {port : PortSource}
  {choice : String → Option Operand} {ports rebound after : NodePorts}

theorem empty (kind : NodeKind) (choice : String → Option Operand) :
    Rebound kind choice .empty .empty := by
  refine ⟨rfl, rfl, rfl, fun name => ?_, fun change => ?_⟩
  · cases choice name <;> rfl
  · simp [NodePorts.empty]

/-- A field that is not connected anew gets the same value in both. -/
theorem insert (related : Rebound kind choice ports rebound) {name : String}
    (kept : choice name = none) (operand : Operand) :
    Rebound kind choice { ports with fields := ports.fields.insert name operand }
      { rebound with fields := rebound.fields.insert name operand } := by
  refine ⟨related.outputs, related.assignments, related.literal, fun other => ?_, fun change => ?_⟩
  · have before := related.fields other
    simp only [Table.get?_insert]
    by_cases same : other = name
    · simp [same, kept]
    · simpa only [same, if_false] using before
  · have before := related.overrides change
    simp only [Table.get?_insert]
    by_cases same : change.field = name
    · simp only [same, kept] at before ⊢
      simpa using before
    · simpa only [same, if_false] using before

/-- A field that is connected with another literal gets another value. -/
theorem insert_literal (related : Rebound kind choice ports rebound) {name : String}
    {expected : ValueKind} {value coerced : Value} (chosen : choice name = some (.constant value))
    (typed : kind.valueKind? name = some expected) (fits : value.coerce? expected = some coerced)
    (old : Operand) :
    Rebound kind choice { ports with fields := ports.fields.insert name old }
      { rebound with fields := rebound.fields.insert name (.constant coerced) } := by
  refine ⟨related.outputs, related.assignments, related.literal, fun other => ?_, fun change => ?_⟩
  · have before := related.fields other
    simp only [Table.get?_insert]
    by_cases same : other = name
    · simp [same, chosen, NodeKind.literal?, typed, fits]
    · simpa only [same, if_false] using before
  · have before := related.overrides change
    simp only [Table.get?_insert]
    by_cases same : change.field = name
    · rw [same, chosen] at before ⊢
      constructor
      · intro listed
        rcases before.1 listed with ⟨-, source, dynamic⟩
        exact absurd (Option.some.inj source).symm (dynamic value)
      · rintro ⟨-, source, dynamic⟩
        exact absurd (Option.some.inj source).symm (dynamic value)
    · simpa only [same, if_false] using before

/-- A field that is bound to a variable or a parameter becomes an override. -/
theorem insert_binding (related : Rebound kind choice ports rebound) {name : String}
    {operand : Operand} (chosen : choice name = some operand)
    (dynamic : ∀ value, operand ≠ .constant value) (old : Operand) :
    Rebound kind choice { ports with fields := ports.fields.insert name old }
      { rebound with overrides := rebound.overrides ++ [⟨name, operand⟩] } := by
  refine ⟨related.outputs, related.assignments, related.literal, fun other => ?_, fun change => ?_⟩
  · have before := related.fields other
    simp only [Table.get?_insert]
    by_cases same : other = name
    · rw [same, chosen] at before ⊢
      have none : kind.literal? name operand = none := NodeKind.literal?_of_dynamic dynamic
      rw [before]
      simp only [none, if_true, Option.bind_fun_none]
    · simpa only [same, if_false] using before
  · have before := related.overrides change
    simp only [Table.get?_insert]
    rw [List.mem_append, List.mem_singleton, before]
    constructor
    · rintro (⟨given, source, only⟩ | rfl)
      · refine ⟨?_, source, only⟩
        split
        · rfl
        · exact given
      · simpa using ⟨chosen, dynamic⟩
    · rintro ⟨given, source, only⟩
      by_cases same : change.field = name
      · right
        rw [same, chosen] at source
        cases source
        rw [← same]
      · left
        exact ⟨by simpa only [same, if_false] using given, source, only⟩

/-- A port that is no field with a value is added to both in the same way. -/
theorem add_same (related : Rebound kind choice ports rebound)
    (other : port.direction = .output ∨
      choice port.name = none ∧ kind.valueKind? port.name = none)
    (added : NodePorts.add tree kind title ports port = .ok after) :
    ∃ reboundAfter, NodePorts.add tree kind title rebound port = .ok reboundAfter ∧
      Rebound kind choice after reboundAfter := by
  unfold NodePorts.add at added ⊢
  cases direction : port.direction with
  | output =>
    simp only [direction] at added ⊢
    unfold NodePorts.addOutput at added ⊢
    split at added
    · split at added <;> cases added
      rename_i known
      refine ⟨_, if_pos known, ?_⟩
      rw [related.outputs]
      exact ⟨rfl, related.assignments, related.literal, related.fields, related.overrides⟩
    · cases added
  | input =>
    rcases other.resolve_left (by simp [direction]) with ⟨kept, untyped⟩
    simp only [direction] at added ⊢
    rw [bind_eq_ok] at added
    rcases added with ⟨operand, checked, added⟩
    rw [checked]
    dsimp only [bind, Except.bind]
    split at added
    · rename_i assigns
      cases added
      refine ⟨_, if_pos assigns, ?_⟩
      rw [related.assignments]
      exact ⟨related.outputs, rfl, related.literal, related.fields, related.overrides⟩
    · rename_i assigns
      rw [if_neg assigns]
      unfold NodePorts.addField at added ⊢
      cases found : kind.field? port.name with
      | none =>
        rw [found] at added
        cases added
      | some field =>
        have isOperand : field.kind = .operand := by
          cases isKind : field.kind with
          | operand => rfl
          | value expected =>
            rcases field with ⟨_, _, _⟩
            cases isKind
            simp [NodeKind.valueKind?, found] at untyped
        simp only [found, isOperand] at added ⊢
        cases added
        exact ⟨_, rfl, related.insert kept operand⟩

/-- A port is added to both, with the operand that is chosen for it. -/
theorem add (related : Rebound kind choice ports rebound)
    (admitted : ∀ name operand, choice name = some operand → Admits tree kind name operand)
    (literal : port.direction = .input → (kind.valueKind? port.name).isSome →
      ∃ value, port.operand = .constant value)
    (added : NodePorts.add tree kind title ports port = .ok after) :
    ∃ reboundAfter, NodePorts.add tree kind title rebound (port.rebind choice) = .ok reboundAfter ∧
      Rebound kind choice after reboundAfter := by
  cases direction : port.direction with
  | output =>
    have same : port.rebind choice = port := by simp [PortSource.rebind, direction]
    rw [same]
    exact related.add_same (Or.inl direction) added
  | input =>
    cases chosen : choice port.name with
    | none =>
      have same : port.rebind choice = port := by simp [PortSource.rebind, direction, chosen]
      rw [same]
      cases typed : kind.valueKind? port.name with
      | none => exact related.add_same (Or.inr ⟨chosen, typed⟩) added
      | some expected =>
        rcases literal direction (by rw [typed]; rfl) with ⟨value, isLiteral⟩
        rw [add_literal typed direction isLiteral, map_eq_ok] at added
        rcases added with ⟨coerced, fits, rfl⟩
        rw [add_literal typed direction isLiteral, fits]
        exact ⟨_, rfl, related.insert chosen _⟩
    | some operand =>
      have changed : port.rebind choice = { port with operand := operand } := by
        simp [PortSource.rebind, direction, chosen]
      rw [changed]
      have admits := admitted port.name operand chosen
      have typed : ∃ expected, kind.valueKind? port.name = some expected := by
        cases admits with
        | literal typed => exact ⟨_, typed⟩
        | binding typed => exact ⟨_, typed⟩
      rcases typed with ⟨expected, typed⟩
      rcases literal direction (by rw [typed]; rfl) with ⟨old, isLiteral⟩
      rw [add_literal typed direction isLiteral, map_eq_ok] at added
      rcases added with ⟨coercedOld, -, rfl⟩
      cases admits with
      | @literal expected value coerced typed fits =>
        have typedPort : kind.valueKind?
            (PortSource.mk port.direction port.name (.constant value)).name = some expected := typed
        rw [add_literal typedPort direction rfl]
        simp only [coerceLiteral, fits]
        exact ⟨_, rfl, related.insert_literal chosen typed fits _⟩
      | binding typed free binds =>
        refine ⟨_, add_binding typed direction free binds,
          related.insert_binding chosen (fun value isConstant => ?_) _⟩
        rw [isConstant] at binds
        cases binds

theorem foldlM_add {list : List PortSource} (related : Rebound kind choice ports rebound)
    (admitted : ∀ name operand, choice name = some operand → Admits tree kind name operand)
    (literal : ∀ port ∈ list, port.direction = .input → (kind.valueKind? port.name).isSome →
      ∃ value, port.operand = .constant value)
    (sorted : list.foldlM (NodePorts.add tree kind title) ports = .ok after) :
    ∃ reboundAfter,
      (list.map (PortSource.rebind choice)).foldlM (NodePorts.add tree kind title) rebound =
        .ok reboundAfter ∧ Rebound kind choice after reboundAfter := by
  induction list generalizing ports rebound with
  | nil =>
    cases sorted
    exact ⟨rebound, rfl, related⟩
  | cons first rest ih =>
    rw [List.foldlM_cons, bind_eq_ok] at sorted
    rcases sorted with ⟨middle, added, sorted⟩
    rcases related.add admitted (literal first List.mem_cons_self) added with
      ⟨reboundMiddle, reboundAdded, relatedMiddle⟩
    rw [List.map_cons, List.foldlM_cons, reboundAdded]
    exact ih relatedMiddle (fun port listed => literal port (List.mem_cons_of_mem _ listed)) sorted

/-- The same fields are given. -/
theorem gives (related : Rebound kind choice ports rebound)
    (admitted : ∀ name operand, choice name = some operand → Admits tree kind name operand) :
    rebound.gives = ports.gives := by
  funext name
  have field := related.fields name
  have overridden : (rebound.overrides.any fun change => change.field = name) = true ↔
      (ports.fields.get? name).isSome ∧
        ∃ operand, choice name = some operand ∧ ∀ value, operand ≠ .constant value := by
    simp only [List.any_eq_true, related.overrides, decide_eq_true_eq]
    constructor
    · rintro ⟨change, ⟨given, chosen, dynamic⟩, rfl⟩
      exact ⟨given, change.source, chosen, dynamic⟩
    · rintro ⟨given, operand, chosen, dynamic⟩
      exact ⟨⟨name, operand⟩, ⟨given, chosen, dynamic⟩, rfl⟩
  rw [Bool.eq_iff_iff, NodePorts.gives, NodePorts.gives, Bool.or_eq_true, overridden,
    related.literal, List.any_nil, Bool.or_false, Table.contains, Table.contains, field]
  cases chosen : choice name with
  | none => simp
  | some operand =>
    cases admitted name operand chosen with
    | literal typed fits =>
      cases ports.fields.get? name <;> simp [NodeKind.literal?, typed, fits]
    | binding typed free binds =>
      have dynamic : ∀ value, operand ≠ .constant value := by
        rintro value rfl
        cases binds
      simp [NodeKind.literal?_of_dynamic dynamic, dynamic]

/-- Without an override the fields are those of literals. -/
theorem fields_of_bindings (related : Rebound kind choice ports rebound)
    (dynamic : ∀ name operand, choice name = some operand → ∀ value, operand ≠ .constant value)
    (name : String) :
    rebound.fields.get? name = none ∨ rebound.fields.get? name = ports.fields.get? name := by
  rw [related.fields]
  cases chosen : choice name with
  | none => exact Or.inr rfl
  | some operand =>
    simp [NodeKind.literal?_of_dynamic (dynamic name operand chosen)]

theorem fields_of_no_override (related : Rebound kind choice ports rebound)
    (dynamic : ∀ name operand, choice name = some operand → ∀ value, operand ≠ .constant value)
    (unbound : rebound.overrides = []) (name : String) :
    rebound.fields.get? name = ports.fields.get? name := by
  rw [related.fields]
  cases chosen : choice name with
  | none => rfl
  | some operand =>
    cases given : ports.fields.get? name with
    | none => rfl
    | some old =>
      have overridden := (related.overrides ⟨name, operand⟩).2
        ⟨by rw [given]; rfl, chosen, dynamic name operand chosen⟩
      rw [unbound] at overridden
      cases overridden

end Rebound

namespace NodePorts

/-- The configuration that a node with some ports is laid out with, which may be left open. -/
def settle (ports : NodePorts) (kind : NodeKind) (title : String) :
    Except (Failure LoadError) (Option Configuration) :=
  match kind.configure ports.fields with
  | .ok configuration => .ok (some configuration)
  | .error (.crash cause) => .error (.crash cause)
  | .error (.error cause) =>
    if ports.overrides.isEmpty then .error (.error (.invalid title cause)) else .ok none

def node (ports : NodePorts) (kind : NodeKind) (source : NodeSource) (children : List NodeIndex)
    (configuration : Option Configuration) : Node where
  name := source.label
  definition := none
  kind := kind
  configuration := configuration
  fields := ports.fields
  children := children
  parameters := []
  arguments := []
  overrides := ports.overrides
  outputs := ports.outputs
  assignments := ports.assignments

end NodePorts

/-- A node has as many children as its kind takes, and ports that give the fields that its kind
requires. -/
structure Sorts (tree : TreeSource) (kind : NodeKind) (source : NodeSource)
    (children : List NodeIndex) (ports : NodePorts) : Prop where
  counted : kind.childCount.accepts children.length = true
  sorted : source.ports.foldlM (NodePorts.add tree kind source.title) .empty = .ok ports
  complete : (kind.fields.find? fun field => field.required && !ports.gives field.name) = none

section Nodes

variable {tree : TreeSource} {kind : NodeKind} {source : NodeSource} {children : List NodeIndex}
  {choice : String → Option Operand} {ports rebound : NodePorts} {node : Node}
  {configuration : Option Configuration} {title : String}

theorem Sorts.layoutNode_eq (sorts : Sorts tree kind source children ports) :
    layoutNode tree kind source children =
      (ports.settle kind source.title).map (ports.node kind source children) := by
  unfold layoutNode
  rw [sorts.sorted]
  simp only [sorts.counted, sorts.complete, bind, Except.bind, Except.mapError, NodePorts.settle]
  cases kind.configure ports.fields with
  | ok configuration => rfl
  | error failure =>
    cases failure with
    | crash cause => rfl
    | error cause => cases ports.overrides.isEmpty <;> rfl

theorem sorts_of_layoutNode (laid : layoutNode tree kind source children = .ok node) :
    ∃ ports configuration, Sorts tree kind source children ports ∧
      ports.settle kind source.title = .ok configuration ∧
      node = ports.node kind source children configuration := by
  have accepted := laid
  unfold layoutNode at laid
  split at laid
  · cases laid
  rename_i counted
  dsimp only at laid
  rw [bind_eq_ok] at laid
  rcases laid with ⟨ports, sorted, laid⟩
  rw [mapError_eq_ok] at sorted
  split at laid
  · cases laid
  rename_i complete
  have sorts : Sorts tree kind source children ports :=
    ⟨by simpa using counted, sorted, Option.eq_none_iff_forall_ne_some.2 complete⟩
  rw [sorts.layoutNode_eq, map_eq_ok] at accepted
  rcases accepted with ⟨configuration, settled, rfl⟩
  exact ⟨ports, configuration, sorts, settled, rfl⟩

theorem Sorts.rebind (sorts : Sorts tree kind source children ports)
    (fixed : source.IsFixed kind)
    (admitted : ∀ name operand, choice name = some operand → Admits tree kind name operand) :
    ∃ rebound, Sorts tree kind (source.rebind choice) children rebound ∧
      Rebound kind choice ports rebound := by
  rcases (Rebound.empty kind choice).foldlM_add admitted fixed.literal sorts.sorted with
    ⟨rebound, sorted, related⟩
  refine ⟨rebound, ⟨sorts.counted, sorted, ?_⟩, related⟩
  rw [related.gives admitted]
  exact sorts.complete

theorem Sorts.overrides_eq_nil (sorts : Sorts tree kind source children ports)
    (fixed : source.IsFixed kind) : ports.overrides = [] := by
  have nothing : ∀ name operand, (none : Option Operand) = some operand →
      Admits tree kind name operand := by
    intro _ _ impossible
    cases impossible
  rcases sorts.rebind fixed nothing with ⟨rebound, -, related⟩
  exact related.literal

/-- A literal is the value of its field. -/
theorem Sorts.literal (sorts : Sorts tree kind source children ports)
    (fixed : source.IsFixed kind) {port : PortSource} {expected : ValueKind} {value : Value}
    (listed : port ∈ source.ports) (input : port.direction = .input)
    (typed : kind.valueKind? port.name = some expected)
    (literal : port.operand = .constant value) :
    ∃ coerced, value.coerce? expected = some coerced ∧
      ports.fields.get? port.name = some (.constant coerced) :=
  field_of_literal sorts.sorted fixed.once listed typed input literal

/-- A field is given by a port of its name. -/
theorem Sorts.exists_port (sorts : Sorts tree kind source children ports) {name : String}
    (given : (ports.fields.get? name).isSome) :
    ∃ port ∈ source.ports, port.direction = .input ∧ port.name = name := by
  by_contra unnamed
  have others : ∀ port ∈ source.ports, port.direction = .input → port.name ≠ name :=
    fun port listed input named => unnamed ⟨port, listed, input, named⟩
  rw [get?_of_foldlM_add sorts.sorted others] at given
  cases given

/-- A node is laid out with the configuration of its fields, if they have one. -/
theorem toOption_of_settle (settled : ports.settle kind title = .ok configuration) :
    configuration = (kind.configure ports.fields).toOption := by
  unfold NodePorts.settle at settled
  split at settled
  · rename_i chosen configured
    cases settled
    rw [configured]
    rfl
  · cases settled
  · rename_i cause refused
    split at settled <;> cases settled
    rw [refused]
    rfl

/-- A node with literals is laid out with its configuration. -/
theorem configure_of_settle (settled : ports.settle kind title = .ok configuration)
    (literal : ports.overrides = []) :
    ∃ chosen, configuration = some chosen ∧ kind.configure ports.fields = .ok chosen := by
  unfold NodePorts.settle at settled
  split at settled
  · rename_i chosen configured
    cases settled
    exact ⟨chosen, rfl, configured⟩
  · cases settled
  · rw [literal, List.isEmpty_nil, if_pos rfl] at settled
    cases settled

/-- With variables and parameters instead of literals, a node is laid out as well. Its configuration
stays if nothing was bound. -/
theorem Rebound.settle (related : Rebound kind choice ports rebound) {chosen : Configuration}
    (dynamic : ∀ name operand, choice name = some operand → ∀ value, operand ≠ .constant value)
    (configured : kind.configure ports.fields = .ok chosen) :
    ∃ configuration, rebound.settle kind title = .ok configuration ∧
      (rebound.overrides = [] → configuration = some chosen) := by
  have unbound : rebound.overrides = [] → kind.configure rebound.fields = .ok chosen := by
    intro unbound
    rw [← configured]
    exact NodeKind.configure_congr (related.fields_of_no_override dynamic unbound)
  unfold NodePorts.settle
  cases result : kind.configure rebound.fields with
  | ok other =>
    refine ⟨some other, rfl, fun none => ?_⟩
    rw [unbound none, Except.ok.injEq] at result
    rw [result]
  | error failure =>
    cases failure with
    | crash cause =>
      exact absurd result (NodeKind.configure_ne_crash configured
        (related.fields_of_bindings dynamic))
    | error cause =>
      cases overrides : rebound.overrides with
      | nil =>
        rw [unbound overrides] at result
        cases result
      | cons first rest => exact ⟨none, rfl, by simp⟩

/-- A value of a field is refused in the place of the literal. -/
def Refuses (kind : NodeKind) (fields : FieldTable) (name : String) (value : Value) : Prop :=
  ∃ other cause, (∀ field, field ≠ name → other.get? field = fields.get? field) ∧
    other.get? name = some (.constant value) ∧ kind.configure other = .error (.error cause)

/-- If a node is not laid out with another literal that fits, its configuration refuses it. -/
theorem Sorts.refuses (sorts : Sorts tree kind source children ports) (fixed : source.IsFixed kind)
    {name : String} {expected : ValueKind} {value coerced : Value} {old : Operand}
    {error : LoadError} (typed : kind.valueKind? name = some expected)
    (fits : value.coerce? expected = some coerced) (given : ports.fields.get? name = some old)
    (rejected : layoutNode tree kind (source.withLiteral name value) children =
      .error (.error error)) : Refuses kind ports.fields name coerced := by
  have admitted : ∀ other operand,
      (if other = name then some (Operand.constant value) else none) = some operand →
        Admits tree kind other operand := by
    intro other operand chosen
    split at chosen
    · rename_i same
      cases chosen
      exact .literal (by rw [same, typed]) fits
    · cases chosen
  rcases sorts.rebind fixed admitted with ⟨rebound, sortsRebound, related⟩
  refine ⟨rebound.fields, ?_⟩
  have settled : ∃ cause, kind.configure rebound.fields = .error (.error cause) := by
    rw [NodeSource.withLiteral, sortsRebound.layoutNode_eq] at rejected
    unfold NodePorts.settle at rejected
    cases configured : kind.configure rebound.fields with
    | ok configuration =>
      rw [configured] at rejected
      cases rejected
    | error failure =>
      cases failure with
      | crash cause =>
        rw [configured] at rejected
        cases rejected
      | error cause => exact ⟨cause, rfl⟩
  rcases settled with ⟨cause, refused⟩
  refine ⟨cause, fun field other => ?_, ?_, refused⟩
  · rw [related.fields, if_neg other]
  · rw [related.fields, if_pos rfl]
    simp [given, NodeKind.literal?, typed, fits]

end Nodes

namespace NodeSource

variable {source : NodeSource}

/-- To connect no port of a node anew leaves the node as it is. -/
theorem rebind_eq_self {choice : String → Option Operand}
    (kept : ∀ port ∈ source.ports, port.direction = .input → choice port.name = none) :
    source.rebind choice = source := by
  have each : ∀ port ∈ source.ports, port.rebind choice = id port := by
    intro port listed
    unfold PortSource.rebind
    cases direction : port.direction with
    | output => rfl
    | input =>
      rw [kept port listed direction]
      rfl
  have same : source.ports.map (PortSource.rebind choice) = source.ports := by
    rw [List.map_congr_left each, List.map_id]
  cases source
  rw [rebind, same]
  rfl

theorem rebind_rebind (first second : String → Option Operand) :
    (source.rebind first).rebind second =
      source.rebind fun name => (second name).or (first name) := by
  have each : ∀ port : PortSource, (port.rebind first).rebind second =
      port.rebind fun name => (second name).or (first name) := by
    rintro ⟨direction, name, operand⟩
    cases direction with
    | output => rfl
    | input =>
      cases chosen : first name <;> cases again : second name <;>
        simp [PortSource.rebind, chosen, again]
  unfold rebind
  simp only [withPorts, ports, kind, label, children, List.map_map, Function.comp_def, each]

end NodeSource

end BehaviorTree
