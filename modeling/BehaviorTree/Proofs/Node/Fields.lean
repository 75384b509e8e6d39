import BehaviorTree.Proofs.Node.Configuration
import Mathlib.Data.List.Forall2

/-!
# Fields of configurations

A configuration is put together from fields, each of which is checked by itself. Whether there is a
configuration is decided by these checks one after the other, and only the last one of them, that of
a duration, can crash. So a value that is refused in one table of fields is refused in all others,
whatever else they hold.
-/

namespace BehaviorTree

/-- Whether there is a result, and else why not. -/
def verdict {α ε : Type} (result : Except ε α) : Except ε Unit := result.map fun _ => ()

section Verdicts

variable {α β ε δ : Type} {result : Except ε α}

@[simp]
theorem verdict_ok (value : α) : verdict (.ok value : Except ε α) = .ok () := rfl

@[simp]
theorem verdict_error (error : ε) : verdict (.error error : Except ε α) = .error error := rfl

@[simp]
theorem verdict_map (change : α → β) : verdict (result.map change) = verdict result := by
  cases result <;> rfl

theorem verdict_eq_error {error : ε} : verdict result = .error error ↔ result = .error error := by
  cases result <;> simp

theorem verdict_bind (next : α → Except ε β) :
    verdict (result >>= next) = result >>= fun value => verdict (next value) := by
  cases result <;> rfl

/-- If what comes next does not depend on a result, only whether there is one matters. -/
theorem verdict_then (rest : Except ε β) :
    (verdict result >>= fun _ => rest) = result >>= fun _ => rest := by
  cases result <;> rfl

theorem mapError_bind (next : α → Except ε β) (change : ε → δ) :
    (result >>= next).mapError change =
      result.mapError change >>= fun value => (next value).mapError change := by
  cases result <;> rfl

theorem verdict_mapM (change : α → Except ε β) (items : List α) :
    verdict (items.mapM change) = forM items fun item => verdict (change item) := by
  induction items with
  | nil => rfl
  | cons item rest ih =>
    rw [List.mapM_cons, List.forM_cons, ← ih, verdict_bind, verdict_then]
    refine bind_congr fun value => ?_
    cases rest.mapM change <;> rfl

/-- There are results for all items if there is one for each of them. -/
theorem mapM_eq_ok {change : α → Except ε β} {items : List α} {results : List β} :
    items.mapM change = .ok results ↔
      List.Forall₂ (fun item value => change item = .ok value) items results := by
  induction items generalizing results with
  | nil =>
    rw [List.forall₂_nil_left_iff]
    constructor
    · rintro ⟨⟩
      rfl
    · rintro rfl
      rfl
  | cons item rest ih =>
    rw [List.mapM_cons, bind_eq_ok, List.forall₂_cons_left_iff]
    constructor
    · rintro ⟨value, first, others⟩
      rw [bind_eq_ok] at others
      rcases others with ⟨values, later, done⟩
      cases done
      exact ⟨value, values, first, ih.1 later, rfl⟩
    · rintro ⟨value, values, first, later, rfl⟩
      refine ⟨value, first, ?_⟩
      rw [ih.2 later]
      rfl

theorem forM_eq_ok {check : α → Except ε Unit} {items : List α} :
    forM items check = .ok () ↔ ∀ item ∈ items, check item = .ok () := by
  induction items with
  | nil => simp [pure, Except.pure]
  | cons item rest ih =>
    rw [List.forM_cons, bind_eq_ok, List.forall_mem_cons, ← ih]
    constructor
    · rintro ⟨⟨⟩, first, later⟩
      exact ⟨first, later⟩
    · rintro ⟨first, later⟩
      exact ⟨(), first, later⟩

theorem exists_of_forM_eq_error {check : α → Except ε Unit} {items : List α} {error : ε}
    (fails : forM items check = .error error) : ∃ item ∈ items, check item = .error error := by
  induction items with
  | nil => cases fails
  | cons item rest ih =>
    rw [List.forM_cons] at fails
    cases first : check item with
    | error other =>
      rw [first] at fails
      cases fails
      exact ⟨item, List.mem_cons_self, first⟩
    | ok =>
      rw [first] at fails
      rcases ih fails with ⟨later, listed, failed⟩
      exact ⟨later, List.mem_cons_of_mem _ listed, failed⟩

end Verdicts

/-- What a configuration demands of one field. -/
structure FieldCheck where
  field : String
  check : FieldTable → Except BindingError Unit
  /-- The check reads no other field. -/
  isLocal : ∀ {fields other : FieldTable}, other.get? field = fields.get? field →
    check other = check fields

namespace FieldCheck

def flag (name : String) : FieldCheck where
  field := name
  check fields := verdict (fields.flag name)
  isLocal same := by simp only [FieldTable.flag, FieldTable.constant?, same]

def int (name : String) : FieldCheck where
  field := name
  check fields := verdict (fields.int name)
  isLocal same := by simp only [FieldTable.int, FieldTable.constant?, same]

/-- A text has to be there. -/
def text (name : String) : FieldCheck where
  field := name
  check fields := verdict (fields.text name)
  isLocal same := by simp only [FieldTable.text, FieldTable.text?, FieldTable.constant?, same]

/-- A text may be there. -/
def text? (name : String) : FieldCheck where
  field := name
  check fields := verdict (fields.text? name)
  isLocal same := by simp only [FieldTable.text?, FieldTable.constant?, same]

def operand (name : String) : FieldCheck where
  field := name
  check fields := verdict (fields.operand name)
  isLocal same := by simp only [FieldTable.operand, same]

/-- A text has to be there and to be one of those that have a meaning. -/
def word {α : Type} (name : String) (read : String → Option α) : FieldCheck where
  field := name
  check fields := do
    let text ← fields.text name
    if (read text).isNone then throw (.invalidValue name text)
  isLocal same := by simp only [FieldTable.text, FieldTable.text?, FieldTable.constant?, same]

/-- A text may be there, which has to be one of those that have a meaning. -/
def word? {α : Type} (name : String) (read : String → Option α) : FieldCheck where
  field := name
  check fields := do
    let text ← fields.text? name
    if (text.map read).any Option.isNone then throw (.invalidValue name (text.getD ""))
  isLocal same := by simp only [FieldTable.text?, FieldTable.constant?, same]

/-- A remote node has to have a service, its own one or that of its operation. -/
def service (operation : RemoteOperation) : FieldCheck where
  field := "service"
  check fields := do
    let service ← fields.text? "service"
    if service.getD operation.defaultService = "" then throw (.missingField "service")
  isLocal same := by simp only [FieldTable.text?, FieldTable.constant?, same]

def member (field : FieldSpec) : FieldCheck where
  field := field.name
  check fields := verdict (requestMember fields field)
  isLocal same := by simp only [requestMember, FieldTable.constant?, same]

/-- A reference gets no configuration from fields. -/
def never (name : String) : FieldCheck where
  field := name
  check _ := .error (.missingField name)
  isLocal _ := rfl

end FieldCheck

namespace NodeKind

/-- What is demanded of the fields of a kind, in the order in which it is checked. The field of a
duration comes after them. -/
def checks : NodeKind → List FieldCheck
  | sequence | selector => [.flag "always_restart"]
  | repeater => [.int "max_starts"]
  | retrier => [.int "max_attempts"]
  | condition =>
    [.word "operation" Comparison.ofText?, .word? "handle_staleness" StalenessPolicy.ofText?,
      .operand "lhs", .operand "rhs"]
  | formatBlackboard => [.text "key", .text "format"]
  | dateToBlackboard => [.text "key", .text? "format"]
  | constantResult => [.word "result" Status.ofText?]
  | reference => [.never "target"]
  | remote operation =>
    [.service operation, .text? "leases"] ++ operation.requestFields.map .member ++ [.text? "host"]
  | forDuration | simpleParallel | restartWhenPaused => []
  | defineBlackboard | setBlackboard | sleep => []

/-- The field of a kind that holds a duration, in seconds. -/
def durationField : NodeKind → Option FieldSpec
  | forDuration => some (.needed "duration" .float)
  | sleep => some (.needed "seconds" .float)
  | condition => some (.optional "max_age" .float)
  | remote _ => some (.optional "timeout" .float)
  | _ => none

end NodeKind

/-- What is demanded of the field of a duration, which may have to be there. -/
def FieldSpec.checkDuration (field : FieldSpec) (fields : FieldTable) :
    Except (Failure BindingError) Unit :=
  if field.required then verdict (fields.seconds field.name)
  else verdict (fields.seconds? field.name)

namespace NodeKind

def checkFields (kind : NodeKind) (fields : FieldTable) : Except BindingError Unit :=
  forM kind.checks fun item => item.check fields

def checkDuration (kind : NodeKind) (fields : FieldTable) : Except (Failure BindingError) Unit :=
  match kind.durationField with
  | some field => field.checkDuration fields
  | none => .ok ()

/-- All demands on the fields of a kind, one after the other. -/
def check (kind : NodeKind) (fields : FieldTable) : Except (Failure BindingError) Unit := do
  (kind.checkFields fields).mapError .error
  kind.checkDuration fields

end NodeKind

theorem NodeKind.verdict_condition (fields : FieldTable) :
    verdict (configureCondition fields) = NodeKind.condition.check fields := by
  simp only [check, checkFields, checks, configureCondition, List.forM_cons, List.forM_nil,
    FieldCheck.word, FieldCheck.word?, FieldCheck.operand, verdict_bind, verdict_then,
    mapError_bind, bind_assoc]
  refine bind_congr fun operator => ?_
  cases Comparison.ofText? operator with
  | none => rfl
  | some comparison =>
    rw [verdict_bind]
    refine bind_congr fun staleness => ?_
    have read : (staleness.map StalenessPolicy.ofText?).any Option.isNone =
        ((staleness.map StalenessPolicy.ofText?).getD (some .readAnyway)).isNone := by
      cases staleness <;> rfl
    rw [read]
    cases (staleness.map StalenessPolicy.ofText?).getD (some .readAnyway) with
    | none => rfl
    | some policy =>
      simp only [verdict_bind]
      exact bind_congr fun _ => bind_congr fun _ => rfl

theorem NodeKind.verdict_remote (operation : RemoteOperation) (fields : FieldTable) :
    verdict (configureRemote operation fields) = (NodeKind.remote operation).check fields := by
  simp only [check, checkFields, checks, configureRemote, List.forM_cons, List.forM_nil,
    List.forM_append, List.cons_append, List.nil_append, List.forM_map, ← verdict_mapM,
    FieldCheck.service, FieldCheck.text?, FieldCheck.member, verdict_bind, verdict_then,
    mapError_bind, bind_assoc]
  refine bind_congr fun service => ?_
  by_cases unnamed : service.getD operation.defaultService = ""
  · simp only [unnamed, if_true]
    rfl
  · simp only [unnamed, if_false, verdict_bind]
    exact bind_congr fun _ => bind_congr fun _ => bind_congr fun _ => rfl

/-- There is a configuration if the fields pass all checks, and else the first check that fails says
why there is none. -/
theorem NodeKind.verdict_configure (kind : NodeKind) (fields : FieldTable) :
    verdict (kind.configure fields) = kind.check fields := by
  cases kind with
  | sequence | selector =>
    simp only [configure, check, checkFields, checks, List.forM_cons, FieldCheck.flag]
    cases fields.flag "always_restart" <;> rfl
  | repeater =>
    simp only [configure, check, checkFields, checks, List.forM_cons, FieldCheck.int]
    cases fields.int "max_starts" <;> rfl
  | retrier =>
    simp only [configure, check, checkFields, checks, List.forM_cons, FieldCheck.int]
    cases fields.int "max_attempts" <;> rfl
  | forDuration | sleep => exact verdict_map _
  | condition => exact (verdict_map _).trans (verdict_condition fields)
  | remote operation => exact (verdict_map _).trans (verdict_remote operation fields)
  | simpleParallel | restartWhenPaused | defineBlackboard | setBlackboard | reference => rfl
  | formatBlackboard | dateToBlackboard =>
    simp only [configure, check, checkFields, checks, List.forM_cons, List.forM_nil,
      FieldCheck.text, FieldCheck.text?, verdict_bind, verdict_then, mapError_bind, bind_assoc]
    rfl
  | constantResult =>
    simp only [configure, check, checkFields, checks, List.forM_cons, List.forM_nil,
      FieldCheck.word, verdict_bind, mapError_bind, bind_assoc]
    refine bind_congr fun result => ?_
    cases Status.ofText? result <;> rfl

namespace NodeKind

variable {kind : NodeKind} {fields other : FieldTable} {configuration : Configuration}

/-- A configuration depends on what the fields hold, and on nothing else. -/
theorem configure_congr (same : ∀ name, other.get? name = fields.get? name) :
    kind.configure other = kind.configure fields := by
  have member : requestMember other = requestMember fields := by
    funext field
    simp only [requestMember, FieldTable.constant?, same]
  cases kind <;>
    simp only [configure, configureCondition, configureRemote, FieldTable.flag, FieldTable.int,
      FieldTable.text, FieldTable.text?, FieldTable.seconds, FieldTable.seconds?,
      FieldTable.operand, FieldTable.constant?, same, member]

theorem check_eq_ok :
    kind.check fields = .ok () ↔
      (∀ item ∈ kind.checks, item.check fields = .ok ()) ∧ kind.checkDuration fields = .ok () := by
  simp only [check, bind_eq_ok, mapError_eq_ok]
  constructor
  · rintro ⟨_, passed, timely⟩
    exact ⟨forM_eq_ok.1 passed, timely⟩
  · rintro ⟨passed, timely⟩
    exact ⟨(), forM_eq_ok.2 passed, timely⟩

theorem check_of_configure (configured : kind.configure fields = .ok configuration) :
    kind.check fields = .ok () := by
  rw [← verdict_configure, configured]
  rfl

/-- A failed check other than that of a duration never crashes. -/
theorem configure_eq_error {item : FieldCheck} {cause : BindingError} (listed : item ∈ kind.checks)
    (failed : item.check fields = .error cause) :
    ∃ cause, kind.configure fields = .error (.error cause) := by
  cases checked : kind.checkFields fields with
  | ok =>
    rw [forM_eq_ok.1 checked item listed] at failed
    cases failed
  | error first =>
    refine ⟨first, verdict_eq_error.1 ?_⟩
    rw [verdict_configure, check, checked]
    rfl

theorem checkDuration_congr
    (same : ∀ field, kind.durationField = some field →
      other.get? field.name = fields.get? field.name) :
    kind.checkDuration other = kind.checkDuration fields := by
  unfold checkDuration
  cases found : kind.durationField with
  | none => rfl
  | some field =>
    simp only [FieldSpec.checkDuration, FieldTable.seconds, FieldTable.seconds?,
      FieldTable.constant?, same field found]

/-- A duration that is not there is no reason to crash. -/
theorem checkDuration_of_missing {field : FieldSpec} (found : kind.durationField = some field)
    (missing : fields.get? field.name = none) {cause : Crash} :
    kind.checkDuration fields ≠ .error (.crash cause) := by
  have absent : fields.seconds? field.name = .ok none := by
    simp only [FieldTable.seconds?, FieldTable.constant?, missing]
    rfl
  simp only [checkDuration, found, FieldSpec.checkDuration, FieldTable.seconds, absent]
  split <;> simp [verdict, Except.map, bind, Except.bind, Except.mapError, FieldTable.required]

variable {good bad : FieldTable} {name : String}

/-- A value that is refused among accepted ones is refused among any others. -/
theorem refused_of_get? {cause : BindingError} (accepted : kind.configure good = .ok configuration)
    (elsewhere : ∀ field, field ≠ name → bad.get? field = good.get? field)
    (refused : kind.configure bad = .error (.error cause))
    (same : other.get? name = bad.get? name) :
    ∃ cause, kind.configure other = .error (.error cause) := by
  have ⟨passed, timely⟩ := check_eq_ok.1 (check_of_configure accepted)
  have failed : kind.check bad = .error (.error cause) := by
    rw [← verdict_configure, verdict_eq_error, refused]
  cases checked : kind.checkFields bad with
  | error first =>
    rcases exists_of_forM_eq_error checked with ⟨item, listed, fails⟩
    have atName : item.field = name := by
      by_contra different
      rw [item.isLocal (elsewhere item.field different), passed item listed] at fails
      cases fails
    have failsAgain : item.check other = .error first := by
      rw [← fails]
      exact item.isLocal (by rw [atName, same])
    exact configure_eq_error listed failsAgain
  | ok =>
    rw [check, checked] at failed
    have late : kind.checkDuration bad = .error (.error cause) := failed
    have atName : ∀ field, kind.durationField = some field → field.name = name := by
      intro field found
      by_contra different
      have sameDuration : kind.checkDuration bad = kind.checkDuration good := by
        refine checkDuration_congr fun again foundAgain => ?_
        cases found.symm.trans foundAgain
        exact elsewhere field.name different
      rw [sameDuration, timely] at late
      cases late
    have lateAgain : kind.checkDuration other = .error (.error cause) := by
      rw [← late]
      exact checkDuration_congr fun field found => by rw [atName field found, same]
    cases checkedOther : kind.checkFields other with
    | error first =>
      rcases exists_of_forM_eq_error checkedOther with ⟨item, listed, fails⟩
      exact configure_eq_error listed fails
    | ok =>
      refine ⟨cause, verdict_eq_error.1 ?_⟩
      rw [verdict_configure, check, checkedOther]
      exact lateAgain

/-- Without some of the fields of a configuration there may be none, but there is no crash. -/
theorem configure_ne_crash (accepted : kind.configure good = .ok configuration)
    (kept : ∀ field, fields.get? field = none ∨ fields.get? field = good.get? field)
    {cause : Crash} : kind.configure fields ≠ .error (.crash cause) := by
  have ⟨passed, timely⟩ := check_eq_ok.1 (check_of_configure accepted)
  intro crashed
  have failed : kind.check fields = .error (.crash cause) := by
    rw [← verdict_configure, verdict_eq_error, crashed]
  cases checked : kind.checkFields fields with
  | error first =>
    rw [check, checked] at failed
    cases failed
  | ok =>
    rw [check, checked] at failed
    have late : kind.checkDuration fields = .error (.crash cause) := failed
    by_cases missing : ∃ field, kind.durationField = some field ∧ fields.get? field.name = none
    · rcases missing with ⟨field, found, absent⟩
      exact checkDuration_of_missing found absent late
    · have sameDuration : kind.checkDuration fields = kind.checkDuration good := by
        refine checkDuration_congr fun field found => ?_
        exact (kept field.name).resolve_left fun absent => missing ⟨field, found, absent⟩
      rw [sameDuration, timely] at late
      cases late

end NodeKind

end BehaviorTree
