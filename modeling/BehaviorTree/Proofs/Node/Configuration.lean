import BehaviorTree.Engine.Binding
import Mathlib.Tactic.Common

/-!
# Kinds of configurations

A node of a kind is configured as one of that kind, when it is laid out and on every tick. A node
fits its kind if it has as many children as the kind takes, and either a configuration or overrides
that complete it; only references have the configuration of a reference.
-/

namespace BehaviorTree

def Configuration.kind : Configuration → NodeKind
  | .sequence _ => .sequence
  | .selector _ => .selector
  | .repeater _ => .repeater
  | .retrier _ => .retrier
  | .forDuration _ => .forDuration
  | .simpleParallel => .simpleParallel
  | .condition _ => .condition
  | .restartWhenPaused => .restartWhenPaused
  | .defineBlackboard => .defineBlackboard
  | .setBlackboard => .setBlackboard
  | .formatBlackboard _ _ => .formatBlackboard
  | .dateToBlackboard _ _ => .dateToBlackboard
  | .sleep _ => .sleep
  | .constantResult _ => .constantResult
  | .reference _ => .reference
  | .remote configuration => .remote configuration.operation

theorem mapError_eq_ok {α ε δ : Type} {change : ε → δ} {result : Except ε α} {value : α} :
    result.mapError change = .ok value ↔ result = .ok value := by
  cases result <;> simp [Except.mapError]

theorem map_eq_ok {α β ε : Type} {change : α → β} {result : Except ε α} {value : β} :
    result.map change = .ok value ↔ ∃ before, result = .ok before ∧ change before = value := by
  cases result <;> simp [Except.map]

theorem bind_eq_ok {α β ε : Type} {result : Except ε α} {next : α → Except ε β} {value : β} :
    (result >>= next) = .ok value ↔ ∃ before, result = .ok before ∧ next before = .ok value := by
  cases result <;> simp [bind, Except.bind]

theorem coerceFor_eq_ok {name : String} {value coerced : Value} {kind : ValueKind} :
    coerceFor name value kind = .ok coerced ↔ value.coerce? kind = some coerced := by
  cases fits : value.coerce? kind <;> simp [coerceFor, fits]

theorem configureRemote_operation {operation : RemoteOperation} {fields : FieldTable}
    {remote : RemoteConfiguration} (configured : configureRemote operation fields = .ok remote) :
    remote.operation = operation := by
  unfold configureRemote at configured
  simp only [bind_eq_ok, mapError_eq_ok] at configured
  rcases configured with ⟨service, -, configured⟩
  split at configured
  · cases configured
  · simp only [bind_eq_ok, mapError_eq_ok] at configured
    rcases configured with ⟨_, -, _, -, _, -, _, -, done⟩
    cases done
    rfl

theorem configure_kind {kind : NodeKind} {fields : FieldTable} {configuration : Configuration}
    (configured : kind.configure fields = .ok configuration) : configuration.kind = kind := by
  cases kind with
  | sequence | selector | repeater | retrier =>
    simp only [NodeKind.configure, mapError_eq_ok, map_eq_ok] at configured
    rcases configured with ⟨_, -, rfl⟩
    rfl
  | forDuration | sleep | condition =>
    simp only [NodeKind.configure, map_eq_ok] at configured
    rcases configured with ⟨_, -, rfl⟩
    rfl
  | simpleParallel | restartWhenPaused | defineBlackboard | setBlackboard =>
    cases configured
    rfl
  | formatBlackboard | dateToBlackboard =>
    simp only [NodeKind.configure, bind_eq_ok, mapError_eq_ok] at configured
    rcases configured with ⟨_, -, _, -, done⟩
    cases done
    rfl
  | constantResult =>
    simp only [NodeKind.configure, bind_eq_ok, mapError_eq_ok] at configured
    rcases configured with ⟨_, -, configured⟩
    split at configured <;> cases configured
    rfl
  | reference => cases configured
  | remote operation =>
    simp only [NodeKind.configure, map_eq_ok] at configured
    rcases configured with ⟨remote, done, rfl⟩
    simp [Configuration.kind, configureRemote_operation done]

namespace Node

/-- A node is as its kind has to be. -/
structure Fits (node : Node) : Prop where
  configured : ∀ configuration, node.configuration = some configuration →
    configuration.kind = node.kind
  completed : node.configuration = none → node.overrides ≠ []
  reference : node.kind = .reference →
    node.overrides = [] ∧ ∃ target, node.configuration = some (.reference target)
  counted : node.kind.childCount.accepts node.children.length = true

variable {σ : Type} {node : Node} {configuration : Configuration}

theorem Fits.effective_kind (fits : node.Fits) {context : Context σ}
    (effective : node.effectiveConfiguration context = .ok configuration) :
    configuration.kind = node.kind := by
  unfold effectiveConfiguration at effective
  split at effective
  · rename_i configured
    cases effective
    exact fits.configured _ configured
  · simp only [bind_eq_ok] at effective
    rcases effective with ⟨fields, -, configured⟩
    exact configure_kind configured

/-- A node runs as a reference to a definition exactly if it is one. -/
theorem Fits.effective_reference (fits : node.Fits) {context : Context σ} {target : String}
    (effective : node.effectiveConfiguration context = .ok (.reference target)) :
    node.configuration = some (.reference target) := by
  have kind : node.kind = .reference := (fits.effective_kind effective).symm
  rcases fits.reference kind with ⟨noOverrides, named, configured⟩
  simp only [effectiveConfiguration, noOverrides, configured, Except.ok.injEq] at effective
  rw [configured, effective]

theorem Fits.kind_eq_reference_iff (fits : node.Fits) :
    node.kind = .reference ↔ ∃ target, node.configuration = some (.reference target) := by
  constructor
  · intro kind
    exact (fits.reference kind).2
  · rintro ⟨target, configured⟩
    exact (fits.configured _ configured).symm

theorem Fits.no_child (fits : node.Fits) (count : node.kind.childCount = .none) :
    node.children = [] := by
  have counted := fits.counted
  rw [count] at counted
  simpa [ChildCount.accepts] using counted

theorem Fits.childless_of_reference (fits : node.Fits) {target : String}
    (configured : node.configuration = some (.reference target)) : node.children = [] := by
  have kind := fits.kind_eq_reference_iff.2 ⟨target, configured⟩
  exact fits.no_child (by rw [kind]; rfl)

theorem Fits.one_child (fits : node.Fits) (count : node.kind.childCount = .one) :
    ∃ child, node.children = [child] := by
  have counted := fits.counted
  rw [count] at counted
  exact List.length_eq_one_iff.1 (by simpa [ChildCount.accepts] using counted)

theorem Fits.two_children (fits : node.Fits) (count : node.kind.childCount = .two) :
    ∃ first second, node.children = [first, second] := by
  have counted := fits.counted
  rw [count] at counted
  match listed : node.children with
  | [first, second] => exact ⟨first, second, rfl⟩
  | [] | [_] | _ :: _ :: _ :: _ => simp [listed, ChildCount.accepts] at counted

theorem Fits.one_or_two_children (fits : node.Fits) (count : node.kind.childCount = .oneOrTwo) :
    ∃ child fallback, node.children = child :: fallback ∧ fallback.length ≤ 1 := by
  have counted := fits.counted
  rw [count] at counted
  cases listed : node.children with
  | nil => simp [listed, ChildCount.accepts] at counted
  | cons child fallback =>
    refine ⟨child, fallback, rfl, ?_⟩
    simp only [listed, ChildCount.accepts, List.length_cons, Bool.or_eq_true, beq_iff_eq] at counted
    omega

end Node

end BehaviorTree
