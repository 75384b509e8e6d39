import BehaviorTree.Engine.Context

/-!
# Bindings of ticks

What is only known when a node runs: the fields that overrides fill in, and the parameters of the
definition that a reference invokes.
-/

namespace BehaviorTree

variable {σ : Type}

def Override.fill (kind : NodeKind) (context : Context σ) (fields : FieldTable)
    (change : Override) : Except BindingError FieldTable := do
  let value ← context.value change.source
  let value ← match kind.field? change.field with
    | some ⟨_, .value expected, _⟩ => coerceFor change.field value expected
    | _ => pure value
  return fields.insert change.field (.constant value)

/-- The configuration with which a node runs on a tick. It is the one that the node has, unless
there are overrides, which are filled into the fields of the node for this tick only. -/
def Node.effectiveConfiguration (node : Node) (context : Context σ) :
    Except (Failure BindingError) Configuration :=
  match node.overrides, node.configuration with
  | [], some configuration => .ok configuration
  | overrides, _ => do
    let fields ← (overrides.foldlM (Override.fill node.kind context) node.fields).mapError .error
    node.kind.configure fields

/-- The value of a parameter: that of the first argument for it, or else its default. -/
def Parameter.bind (parameter : Parameter) (arguments : List Argument) (context : Context σ) :
    Except BindingError Value := do
  let value ← match arguments.find? (·.name = parameter.name), parameter.default with
    | some argument, _ => context.value argument.source
    | none, some value => pure value
    | none, none => throw (.unboundParameter parameter.name)
  coerceFor parameter.name value parameter.kind

/-- The values of parameters. Of parameters with the same name the last one counts. -/
def bindParameters (parameters : List Parameter) (arguments : List Argument)
    (context : Context σ) : Except BindingError (Table String Value) := do
  let values ← parameters.mapM fun parameter =>
    (parameter.bind arguments context).map fun value => (parameter.name, value)
  return .ofList values

end BehaviorTree
