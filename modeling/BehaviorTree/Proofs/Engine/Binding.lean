import BehaviorTree.DateFormat
import BehaviorTree.Proofs.Blackboard.Access
import BehaviorTree.Proofs.Node.Configuration

/-!
# Errors of bindings

Values that a node needs come from variables, parameters and constants. In a rooted scope they may
be missing or of the wrong kind, but no scope is ever gone; and a configuration crashes only if a
duration does not fit.
-/

namespace BehaviorTree

section Errors

variable {α β δ ε : Type}

/-- A result is no error, or one of the expected ones. -/
def FailsOnly (expected : ε → Prop) (result : Except ε α) : Prop :=
  ∀ error, result = .error error → expected error

variable {expected : ε → Prop} {result : Except ε α}

theorem failsOnly_ok (value : α) : FailsOnly expected (.ok value : Except ε α) :=
  fun _ impossible => by cases impossible

theorem failsOnly_error {error : ε} (isExpected : expected error) :
    FailsOnly expected (.error error : Except ε α) :=
  fun _ same => by cases same; exact isExpected

theorem FailsOnly.bind {next : α → Except ε β} (first : FailsOnly expected result)
    (rest : ∀ value, FailsOnly expected (next value)) : FailsOnly expected (result >>= next) := by
  cases result with
  | ok value => exact rest value
  | error error => exact failsOnly_error (first error rfl)

theorem FailsOnly.map {change : α → β} (first : FailsOnly expected result) :
    FailsOnly expected (result.map change) := by
  cases result with
  | ok value => exact failsOnly_ok _
  | error error => exact failsOnly_error (first error rfl)

theorem FailsOnly.mapError {change : ε → δ} {isExpected : δ → Prop}
    (first : FailsOnly (fun error => isExpected (change error)) result) :
    FailsOnly isExpected (result.mapError change) := by
  cases result with
  | ok value => exact failsOnly_ok _
  | error error => exact failsOnly_error (first error rfl)

theorem failsOnly_mapM {change : α → Except ε β} (each : ∀ item, FailsOnly expected (change item))
    (items : List α) : FailsOnly expected (items.mapM change) := by
  induction items with
  | nil => exact failsOnly_ok _
  | cons item rest ih =>
    rw [List.mapM_cons]
    exact (each item).bind fun _ => ih.bind fun _ => failsOnly_ok _

theorem failsOnly_foldlM {step : β → α → Except ε β}
    (each : ∀ state item, FailsOnly expected (step state item)) (items : List α) (state : β) :
    FailsOnly expected (items.foldlM step state) := by
  induction items generalizing state with
  | nil => exact failsOnly_ok _
  | cons item rest ih =>
    rw [List.foldlM_cons]
    exact (each state item).bind fun next => ih next

end Errors

/-- An error of a binding other than that a scope is gone. -/
def BindingError.IsHarmless (error : BindingError) : Prop := error ≠ .blackboard .scopeGone

/-- A failure of a binding that is harmless, or a duration that does not fit. -/
def isHarmlessFailure : Failure BindingError → Prop
  | .error error => error.IsHarmless
  | .crash cause => cause = .durationOverflow

theorem FailsOnly.asFailure {α : Type} {result : Except BindingError α}
    (first : FailsOnly BindingError.IsHarmless result) :
    FailsOnly isHarmlessFailure (result.mapError .error) :=
  FailsOnly.mapError first

theorem failsOnly_orCrash {α : Type} (value : Option α) :
    FailsOnly isHarmlessFailure (Failure.orCrash .durationOverflow value) := by
  cases value with
  | none => exact failsOnly_error rfl
  | some value => exact failsOnly_ok value

theorem failsOnly_coerceFor (name : String) (value : Value) (kind : ValueKind) :
    FailsOnly BindingError.IsHarmless (coerceFor name value kind) := by
  unfold coerceFor
  split
  · exact failsOnly_ok _
  · exact failsOnly_error (by simp [BindingError.IsHarmless])

namespace FieldTable

variable (fields : FieldTable) (name : String)

theorem failsOnly_constant? (kind : ValueKind) :
    FailsOnly BindingError.IsHarmless (fields.constant? name kind) := by
  unfold constant?
  split
  · exact failsOnly_ok _
  · exact (failsOnly_coerceFor name _ kind).map
  · exact failsOnly_error (by simp [BindingError.IsHarmless])

theorem failsOnly_required {α : Type} (value : Option α) :
    FailsOnly BindingError.IsHarmless (required name value) := by
  unfold required
  split
  · exact failsOnly_ok _
  · exact failsOnly_error (by simp [BindingError.IsHarmless])

theorem failsOnly_text? : FailsOnly BindingError.IsHarmless (fields.text? name) :=
  (failsOnly_constant? fields name .string).map

theorem failsOnly_text : FailsOnly BindingError.IsHarmless (fields.text name) :=
  (failsOnly_text? fields name).bind fun value => failsOnly_required name value

theorem failsOnly_int : FailsOnly BindingError.IsHarmless (fields.int name) :=
  (failsOnly_constant? fields name .int).bind fun _ => failsOnly_required name _

theorem failsOnly_flag : FailsOnly BindingError.IsHarmless (fields.flag name) :=
  (failsOnly_constant? fields name .bool).bind fun _ => failsOnly_ok _

theorem failsOnly_operand : FailsOnly BindingError.IsHarmless (fields.operand name) :=
  failsOnly_required name _

theorem failsOnly_duration (seconds : Binary64) :
    FailsOnly isHarmlessFailure (duration name seconds) := by
  unfold duration
  split
  · exact failsOnly_orCrash _
  · exact failsOnly_error (by simp [isHarmlessFailure, BindingError.IsHarmless])

theorem failsOnly_seconds? : FailsOnly isHarmlessFailure (fields.seconds? name) := by
  unfold seconds?
  refine (failsOnly_constant? fields name .float).asFailure.bind ?_
  intro value
  split
  · exact (failsOnly_duration name _).map
  · exact failsOnly_ok _

theorem failsOnly_seconds : FailsOnly isHarmlessFailure (fields.seconds name) :=
  (failsOnly_seconds? fields name).bind fun value => (failsOnly_required name value).asFailure

end FieldTable

open FieldTable

theorem failsOnly_configureCondition (fields : FieldTable) :
    FailsOnly isHarmlessFailure (configureCondition fields) := by
  unfold configureCondition
  refine (failsOnly_text fields _).asFailure.bind fun operator => ?_
  split
  · refine (failsOnly_text? fields _).asFailure.bind fun staleness => ?_
    split
    · refine (failsOnly_operand fields _).asFailure.bind fun left => ?_
      refine (failsOnly_operand fields _).asFailure.bind fun right => ?_
      exact (failsOnly_seconds? fields _).bind fun maxAge => failsOnly_ok _
    · exact failsOnly_error (by simp [isHarmlessFailure, BindingError.IsHarmless])
  · exact failsOnly_error (by simp [isHarmlessFailure, BindingError.IsHarmless])

theorem failsOnly_requestMember (fields : FieldTable) (field : FieldSpec) :
    FailsOnly BindingError.IsHarmless (requestMember fields field) := by
  unfold requestMember
  split
  · exact failsOnly_ok _
  · split
    · exact failsOnly_ok _
    · refine (failsOnly_constant? fields _ _).bind fun value => ?_
      split
      · exact failsOnly_ok _
      · split
        · exact failsOnly_error (by simp [BindingError.IsHarmless])
        · exact failsOnly_ok _

theorem failsOnly_configureRemote (operation : RemoteOperation) (fields : FieldTable) :
    FailsOnly isHarmlessFailure (configureRemote operation fields) := by
  unfold configureRemote
  refine (failsOnly_text? fields _).asFailure.bind fun service => ?_
  dsimp only
  split
  · exact failsOnly_error (by simp [isHarmlessFailure, BindingError.IsHarmless])
  · refine (failsOnly_text? fields _).asFailure.bind fun leases => ?_
    refine (failsOnly_mapM (failsOnly_requestMember fields) _).asFailure.bind fun members => ?_
    refine (failsOnly_text? fields _).asFailure.bind fun host => ?_
    exact (failsOnly_seconds? fields _).bind fun timeout => failsOnly_ok _

theorem failsOnly_configure (kind : NodeKind) (fields : FieldTable) :
    FailsOnly isHarmlessFailure (kind.configure fields) := by
  cases kind with
  | sequence | selector => exact (failsOnly_flag fields _).map.asFailure
  | repeater | retrier => exact (failsOnly_int fields _).map.asFailure
  | forDuration | sleep => exact (failsOnly_seconds fields _).map
  | simpleParallel | restartWhenPaused | defineBlackboard | setBlackboard => exact failsOnly_ok _
  | condition => exact (failsOnly_configureCondition fields).map
  | formatBlackboard =>
    refine (failsOnly_text fields _).asFailure.bind fun key => ?_
    exact (failsOnly_text fields _).asFailure.bind fun format => failsOnly_ok _
  | dateToBlackboard =>
    refine (failsOnly_text fields _).asFailure.bind fun key => ?_
    exact (failsOnly_text? fields _).asFailure.bind fun format => failsOnly_ok _
  | constantResult =>
    refine (failsOnly_text fields _).asFailure.bind fun result => ?_
    split
    · exact failsOnly_ok _
    · exact failsOnly_error (by simp [isHarmlessFailure, BindingError.IsHarmless])
  | reference => exact failsOnly_error (by simp [isHarmlessFailure, BindingError.IsHarmless])
  | remote operation => exact (failsOnly_configureRemote operation fields).map

section Rooted

variable {σ : Type} {context : Context σ}

theorem failsOnly_value (rooted : context.blackboard.Rooted context.scope) (operand : Operand) :
    FailsOnly BindingError.IsHarmless (context.value operand) := by
  cases operand with
  | constant value => exact failsOnly_ok _
  | parameter name =>
    change FailsOnly _ (context.parameter name)
    unfold Context.parameter
    split
    · exact failsOnly_ok _
    · exact failsOnly_error (by simp [BindingError.IsHarmless])
  | path path =>
    apply FailsOnly.mapError
    intro error failed
    simp only [BindingError.IsHarmless, ne_eq, BindingError.blackboard.injEq]
    rintro rfl
    exact Blackboard.resolveValue_ne_scopeGone rooted path failed

theorem failsOnly_freshValue (rooted : context.blackboard.Rooted context.scope)
    (freshness : Freshness) (now : Duration) (operand : Operand) :
    FailsOnly BindingError.IsHarmless (context.freshValue freshness now operand) := by
  cases operand with
  | constant value => exact (failsOnly_value rooted (.constant value)).map
  | parameter name => exact (failsOnly_value rooted (.parameter name)).map
  | path path =>
    apply FailsOnly.mapError
    intro error failed
    simp only [BindingError.IsHarmless, ne_eq, BindingError.blackboard.injEq]
    rintro rfl
    exact Blackboard.resolve_ne_scopeGone rooted path freshness now failed

theorem failsOnly_effectiveConfiguration (rooted : context.blackboard.Rooted context.scope)
    (node : Node) : FailsOnly isHarmlessFailure (node.effectiveConfiguration context) := by
  unfold Node.effectiveConfiguration
  split
  · exact failsOnly_ok _
  · refine (failsOnly_foldlM ?_ _ _).asFailure.bind fun fields => failsOnly_configure _ fields
    intro fields change
    unfold Override.fill
    refine (failsOnly_value rooted _).bind fun value => ?_
    dsimp only
    split
    · exact (failsOnly_coerceFor _ _ _).bind fun value => failsOnly_ok _
    · exact failsOnly_ok _

theorem failsOnly_bindParameters (rooted : context.blackboard.Rooted context.scope)
    (parameters : List Parameter) (arguments : List Argument) :
    FailsOnly BindingError.IsHarmless (bindParameters parameters arguments context) := by
  unfold bindParameters
  refine (failsOnly_mapM ?_ _).bind fun values => failsOnly_ok _
  intro parameter
  apply FailsOnly.map
  unfold Parameter.bind
  dsimp only
  split
  · exact (failsOnly_value rooted _).bind fun value => failsOnly_coerceFor _ _ _
  · exact failsOnly_coerceFor _ _ _
  · change FailsOnly _ (Except.error (BindingError.unboundParameter parameter.name))
    exact failsOnly_error (by simp [BindingError.IsHarmless])

end Rooted

theorem failsOnly_writeDate (wallClock : WallClock) (format : Option String) :
    FailsOnly BindingError.IsHarmless (DateFormat.write wallClock format) := by
  cases format with
  | none => exact failsOnly_ok _
  | some format =>
    simp only [DateFormat.write]
    split
    · exact failsOnly_ok _
    · exact failsOnly_error (by simp [BindingError.IsHarmless])

end BehaviorTree
