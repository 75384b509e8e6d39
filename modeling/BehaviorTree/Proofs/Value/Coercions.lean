import BehaviorTree.Proofs.Engine.Overrides
import BehaviorTree.Proofs.Number.Integers

/-!
# What conversions keep

Values of one kind that are not texts stay apart when they are converted to another kind, with two
exceptions: integers may be rounded to the same double, and every double that is infinite or not a
number becomes the same message. So the number that a field is given is the one that was meant,
unless it is an integer with more binary places than a double has.
-/

namespace BehaviorTree

namespace Value

variable {value left right one other coerced : Value} {target : ValueKind}

/-- How a value that is not a text is converted. -/
inductive Coerces : Value → ValueKind → Value → Prop where
  | kept {value : Value} {target : ValueKind} (same : value.kind = target) :
      Coerces value target value
  | widened (number : Int64) :
      Coerces (int number) .float (float (Binary64.ofInt number.toInt))
  | written {value : Value} (noMessage : value.kind ≠ .message) :
      Coerces value .message (message value.toJson)

theorem coerce?_eq_some_iff (noText : value.kind ≠ .string) :
    value.coerce? target = some coerced ↔ Coerces value target coerced := by
  constructor
  · intro fits
    cases value with
    | string text => exact absurd rfl noText
    | bool value =>
      cases target <;> cases fits
      case bool.refl => exact .kept rfl
      case message.refl => exact .written nofun
    | int number =>
      cases target <;> cases fits
      case int.refl => exact .kept rfl
      case float.refl => exact .widened number
      case message.refl => exact .written nofun
    | float number =>
      cases target <;> cases fits
      case float.refl => exact .kept rfl
      case message.refl => exact .written nofun
    | message content =>
      cases target <;> cases fits
      case message.refl => exact .kept rfl
  · intro coerces
    cases coerces with
    | kept same =>
      subst same
      cases value <;> rfl
    | widened number => rfl
    | written noMessage => cases value <;> rfl

/-- Two values of one kind become the same value of another kind. -/
inductive MergeAs : ValueKind → Value → Value → Prop where
  | rounded {first last : Int64}
      (same : Binary64.ofInt first.toInt = Binary64.ofInt last.toInt) :
      MergeAs .float (int first) (int last)
  | unwritten {first last : Binary64} (firstEndless : first.isFinite = false)
      (lastEndless : last.isFinite = false) : MergeAs .message (float first) (float last)

theorem toJson_eq_iff (same : left.kind = right.kind) :
    left.toJson = right.toJson ↔ left = right ∨ MergeAs .message left right := by
  constructor
  · intro alike
    cases left <;> cases right <;> simp only [kind, reduceCtorEq] at same
    case bool => exact .inl (congrArg bool (Json.bool.inj alike))
    case int =>
      have numbers := congrArg Subtype.val (Json.integer.inj alike)
      exact .inl (congrArg int (Int64.toInt_inj.1 numbers))
    case float first last =>
      cases firstFinite : first.isFinite <;> cases lastFinite : last.isFinite <;>
        simp only [toJson, Json.ofBinary64, firstFinite, lastFinite, dite_true, dite_false,
          Bool.false_eq_true] at alike
      case false.false => exact .inr (.unwritten firstFinite lastFinite)
      case true.true =>
        exact .inl (congrArg float (congrArg Subtype.val (Json.real.inj alike)))
      all_goals cases alike
    case string => exact .inl (congrArg string (Json.string.inj alike))
    case message => exact .inl (congrArg message alike)
  · rintro (rfl | merge)
    · rfl
    · cases merge with
      | unwritten firstEndless lastEndless =>
        simp [toJson, Json.ofBinary64, firstEndless, lastEndless]

/-- Conversions keep values of one kind apart unless they merge them. -/
theorem Coerces.eq_iff (leftCoerces : Coerces left target one)
    (rightCoerces : Coerces right target other) (same : left.kind = right.kind) :
    one = other ↔ left = right ∨ MergeAs target left right := by
  cases leftCoerces with
  | kept leftSame =>
    cases rightCoerces with
    | kept rightSame =>
      refine (or_iff_left ?_).symm
      rintro (_ | _) <;> cases leftSame
    | widened number => cases same.symm.trans leftSame
    | written noMessage => exact absurd (same.symm.trans leftSame) noMessage
  | widened first =>
    cases rightCoerces with
    | kept rightSame => cases same.trans rightSame
    | widened last =>
      constructor
      · intro alike
        exact .inr (.rounded (float.inj alike))
      · rintro (alike | merge)
        · rw [int.inj alike]
        · cases merge with
          | rounded same => rw [same]
  | written noMessage =>
    cases rightCoerces with
    | kept rightSame => exact absurd (same.trans rightSame) noMessage
    | written _ => rw [message.injEq, toJson_eq_iff same]

/-- Small integers are kept apart. -/
theorem MergeAs.large {first last : Int64} (merge : MergeAs target (int first) (int last))
    (different : first ≠ last) :
    0x20000000000000 < first.toInt.natAbs ∨ 0x20000000000000 < last.toInt.natAbs := by
  cases merge with
  | rounded same =>
    by_contra low
    have apart : Binary64.ofInt first.toInt ≠ Binary64.ofInt last.toInt :=
      Binary64.ofInt_ne (by rwa [Ne, Int64.toInt_inj]) (by omega) (by omega)
    exact apart same

/-- The number that a value stands for, if it is a finite one. -/
def number? : Value → Option ℚ
  | int number => some number.toInt
  | float number => if number.isFinite then some number.toRat else none
  | message (.integer number) => some number.1
  | message (.real number) => some number.1.toRat
  | _ => none

/-- A double has to cut off places of the integer. -/
def IsCut (number : Int64) : Prop :=
  ¬ 2 ^ (number.toInt.natAbs.log2 - 52) ∣ number.toInt.natAbs

theorem log2_natAbs_le (number : Int64) : number.toInt.natAbs.log2 ≤ 1022 :=
  Binary64.log2_le_of_wide (Int64.le_toInt number)
    (Int.lt_trans (Int64.toInt_lt number) (by decide))

theorem number?_widened (number : Int64) :
    (float (Binary64.ofInt number.toInt)).number? =
      some (Binary64.ofInt number.toInt).toRat := by
  simp only [number?, Binary64.isFinite_ofInt (log2_natAbs_le number), if_true]

theorem number?_widened_eq_iff (number : Int64) :
    (float (Binary64.ofInt number.toInt)).number? = (int number).number? ↔ ¬ IsCut number := by
  rw [number?_widened, IsCut, not_not, ← Binary64.toRat_ofInt_eq_iff (log2_natAbs_le number)]
  exact Option.some_inj

theorem number?_written (noMessage : value.kind ≠ .message) :
    (message value.toJson).number? = value.number? := by
  cases value with
  | float number =>
    cases finite : number.isFinite <;> simp [toJson, Json.ofBinary64, number?, finite]
  | message content => exact absurd rfl noMessage
  | _ => rfl

/-- A conversion keeps the number unless it cuts off places. -/
theorem Coerces.number?_eq_iff (coerces : Coerces value target coerced) :
    coerced.number? = value.number? ↔
      ¬ ∃ number, value = int number ∧ target = .float ∧ IsCut number := by
  cases coerces with
  | kept same =>
    refine iff_of_true rfl ?_
    rintro ⟨number, rfl, rfl, -⟩
    cases same
  | widened number => simp [number?_widened_eq_iff]
  | written noMessage =>
    refine iff_of_true (number?_written noMessage) ?_
    rintro ⟨number, -, isFloat, -⟩
    cases isFloat

/-- A value becomes that of a parameter or a field: a parameter is bound on a tick, a field is
filled in or configured, or a literal is laid out. -/
inductive Reaches : Value → ValueKind → Value → Prop where
  | argument {σ : Type} {context : Context σ} {parameter : Parameter} {arguments : List Argument}
      {argument : Argument} {value coerced : Value}
      (passed : arguments.find? (·.name = parameter.name) = some argument)
      (evaluated : context.value argument.source = .ok value)
      (bound : parameter.bind arguments context = .ok coerced) :
      Reaches value parameter.kind coerced
  | omitted {σ : Type} {context : Context σ} {parameter : Parameter} {arguments : List Argument}
      {value coerced : Value}
      (absent : arguments.find? (·.name = parameter.name) = none)
      (declared : parameter.default = some value)
      (bound : parameter.bind arguments context = .ok coerced) :
      Reaches value parameter.kind coerced
  | override {σ : Type} {context : Context σ} {kind : NodeKind} {change : Override}
      {fields filled : FieldTable} {expected : ValueKind} {value coerced : Value}
      (typed : kind.valueKind? change.field = some expected)
      (evaluated : context.value change.source = .ok value)
      (filling : change.fill kind context fields = .ok filled)
      (given : filled.get? change.field = some (.constant coerced)) :
      Reaches value expected coerced
  | configured {fields : FieldTable} {name : String} {expected : ValueKind} {value coerced : Value}
      (given : fields.get? name = some (.constant value))
      (read : fields.constant? name expected = .ok (some coerced)) : Reaches value expected coerced
  | literal {kind : NodeKind} {ports after : NodePorts} {node name : String}
      {expected : ValueKind} {value coerced : Value}
      (typed : kind.valueKind? name = some expected)
      (added : ports.addField kind node name (.constant value) = .ok after)
      (given : after.fields.get? name = some (.constant coerced)) : Reaches value expected coerced
  | literalArgument {tree : TreeSource} {parameters : List Parameter} {parameter : Parameter}
      {node name : String} {port : PortSource} {value coerced : Value}
      (declared : parameters.find? (·.name = port.name) = some parameter)
      (given : port.operand = .constant value)
      (laid : layoutArgument tree parameters node port = .ok ⟨name, .constant coerced⟩) :
      Reaches value parameter.kind coerced
  | literalDefault {source : ParameterSource} {tree name : String} {kind : ValueKind}
      {value coerced : Value} (given : source.default = some value)
      (declared : source.declare tree = .ok ⟨name, kind, some coerced⟩) :
      Reaches value kind coerced

theorem Reaches.coerce?_eq (reaches : Reaches value target coerced) :
    value.coerce? target = some coerced := by
  cases reaches with
  | argument passed evaluated bound =>
    simp only [Parameter.bind, passed, evaluated, bind, Except.bind] at bound
    exact coerceFor_eq_ok.1 bound
  | omitted absent declared bound =>
    simp only [Parameter.bind, absent, declared, bind, Except.bind] at bound
    exact coerceFor_eq_ok.1 bound
  | override typed evaluated filling given =>
    simp only [fill_eq typed, evaluated, bind_eq_ok] at filling
    obtain ⟨_, resolved, result, fits, done⟩ := filling
    cases resolved
    cases done
    rw [Table.get?_insert_self] at given
    cases given
    exact coerceFor_eq_ok.1 fits
  | configured given read =>
    simp only [FieldTable.constant?, given, map_eq_ok, Option.some.injEq, exists_eq_right] at read
    exact coerceFor_eq_ok.1 read
  | literal typed added given =>
    obtain ⟨field, found, isValue⟩ := NodeKind.field?_of_valueKind? typed
    simp only [NodePorts.addField, found, isValue] at added
    obtain ⟨result, fits, done⟩ := bind_eq_ok.1 added
    cases done
    rw [Table.get?_insert_self] at given
    cases given
    exact coerceLiteral_eq_ok.1 fits
  | @literalArgument tree _ _ _ _ port _ _ declared given laid =>
    cases direction : port.direction with
    | output =>
      simp only [layoutArgument, direction] at laid
      cases laid
    | input =>
      simp only [layoutArgument, direction, declared, given, TreeSource.checkOperand] at laid
      obtain ⟨_, checked, laid⟩ := bind_eq_ok.1 laid
      cases checked
      obtain ⟨result, fits, done⟩ := bind_eq_ok.1 laid
      cases done
      exact coerceLiteral_eq_ok.1 fits
  | @literalDefault source _ _ _ _ _ given declared =>
    unfold ParameterSource.declare at declared
    cases known : ValueKind.ofText? source.kind with
    | none =>
      rw [known] at declared
      cases declared
    | some kind =>
      simp only [known, given] at declared
      obtain ⟨result, fits, done⟩ := bind_eq_ok.1 declared
      cases done
      exact coerceLiteral_eq_ok.1 fits

/-- A value reaches a field through any number of parameters. -/
inductive Conveyed (value : Value) : Value → Prop where
  | start : Conveyed value value
  | pass {middle coerced : Value} {target : ValueKind} (before : Conveyed value middle)
      (reaches : middle.Reaches target coerced) : Conveyed value coerced

/-- What a value that is not a text may be after any number of conversions. -/
inductive ArrivesAs : Value → Value → Prop where
  | itself (value : Value) : ArrivesAs value value
  | widened (number : Int64) : ArrivesAs (int number) (float (Binary64.ofInt number.toInt))
  | written {value : Value} (noMessage : value.kind ≠ .message) :
      ArrivesAs value (message value.toJson)
  | widenedAndWritten (number : Int64) :
      ArrivesAs (int number) (message (float (Binary64.ofInt number.toInt)).toJson)

theorem ArrivesAs.noText (arrives : ArrivesAs value coerced) (noText : value.kind ≠ .string) :
    coerced.kind ≠ .string := by
  cases arrives with
  | itself => exact noText
  | widened number => exact nofun
  | written noMessage => exact nofun
  | widenedAndWritten number => exact nofun

theorem ArrivesAs.pass {middle : Value} (arrives : ArrivesAs value middle)
    (coerces : Coerces middle target coerced) : ArrivesAs value coerced := by
  cases coerces with
  | kept same => exact arrives
  | widened number =>
    cases arrives with
    | itself => exact .widened number
  | written noMessage =>
    cases arrives with
    | itself => exact .written noMessage
    | widened number => exact .widenedAndWritten number
    | written _ => exact absurd rfl noMessage
    | widenedAndWritten number => exact absurd rfl noMessage

theorem Conveyed.arrives (conveyed : Conveyed value coerced) (noText : value.kind ≠ .string) :
    ArrivesAs value coerced := by
  induction conveyed with
  | start => exact .itself value
  | pass before reaches ih =>
    exact ih.pass ((coerce?_eq_some_iff (ih.noText noText)).1 reaches.coerce?_eq)

/-- However often a value is converted, its number is only rounded if it is an integer with too
many places, and then once. -/
theorem ArrivesAs.number? (arrives : ArrivesAs value coerced) :
    coerced.number? = value.number? ∨ ∃ number, value = int number ∧ IsCut number ∧
      coerced.number? = some (Binary64.ofInt number.toInt).toRat := by
  have rounded (number : Int64) {result : Value}
      (same : result.number? = (float (Binary64.ofInt number.toInt)).number?) :
      result.number? = (int number).number? ∨ ∃ start, int number = int start ∧ IsCut start ∧
        result.number? = some (Binary64.ofInt start.toInt).toRat := by
    rw [same]
    by_cases cut : IsCut number
    · exact .inr ⟨number, rfl, cut, number?_widened number⟩
    · exact .inl ((number?_widened_eq_iff number).2 cut)
  cases arrives with
  | itself => exact .inl rfl
  | widened number => exact rounded number rfl
  | written noMessage => exact .inl (number?_written noMessage)
  | widenedAndWritten number => exact rounded number (number?_written nofun)

end Value

/-- Two values of one kind that are not texts become the same value of another kind if they are
rounded to the same double, of which one is beyond 2^53, or if both are doubles for which there is
no message, and otherwise never. The number that a field is given, through any number of
parameters, is the one that the value stands for, unless that is an integer with places that a
double has to cut off. -/
theorem values_stay_apart_unless_merged (target : ValueKind) (left right one other : Value)
    (same : left.kind = right.kind) (noText : left.kind ≠ .string) :
    (left.coerce? target = some one → right.coerce? target = some other →
      (one = other ↔ left = right ∨ Value.MergeAs target left right)) ∧
    (∀ first last : Int64, left = .int first → right = .int last → first ≠ last →
      Value.MergeAs target left right →
        0x20000000000000 < first.toInt.natAbs ∨ 0x20000000000000 < last.toInt.natAbs) ∧
    (left.Reaches target one →
      (one.number? = left.number? ↔
        ¬ ∃ number, left = .int number ∧ target = .float ∧ Value.IsCut number)) ∧
    (left.Conveyed one →
      one.number? = left.number? ∨ ∃ number, left = .int number ∧ Value.IsCut number ∧
        one.number? = some (Binary64.ofInt number.toInt).toRat) := by
  refine ⟨?_, ?_, ?_, ?_⟩
  · intro leftFits rightFits
    have leftCoerces := (Value.coerce?_eq_some_iff noText).1 leftFits
    have rightCoerces := (Value.coerce?_eq_some_iff (same ▸ noText)).1 rightFits
    exact leftCoerces.eq_iff rightCoerces same
  · rintro first last rfl rfl different merge
    exact merge.large different
  · intro reaches
    have coerces := (Value.coerce?_eq_some_iff noText).1 reaches.coerce?_eq
    exact coerces.number?_eq_iff
  · intro conveyed
    exact (conveyed.arrives noText).number?

/-- Two even integers beyond 2^53 stay apart as doubles, and a parameter whose default is one of
them is given that number. -/
theorem even_integers_are_kept :
    let first := Value.int 9007199254740994
    let second := Value.int 9007199254740992
    let firstDouble := Value.float ⟨0x4340000000000001⟩
    let secondDouble := Value.float ⟨0x4340000000000000⟩
    (first.kind = second.kind ∧ first.kind ≠ .string ∧
      first.coerce? .float = some firstDouble ∧ second.coerce? .float = some secondDouble ∧
      first.Reaches .float firstDouble) ∧
    (firstDouble = secondDouble ↔ first = second ∨ Value.MergeAs .float first second) ∧
      firstDouble.number? = some 9007199254740994 := by
  intro first second firstDouble secondDouble
  have declared : ParameterSource.declare "show" ⟨"limit", "float", some first⟩ =
      .ok ⟨"limit", .float, some firstDouble⟩ := rfl
  have reaches : first.Reaches .float firstDouble := .literalDefault rfl declared
  obtain ⟨apart, -, exact, -⟩ :=
    values_stay_apart_unless_merged .float first second firstDouble secondDouble rfl nofun
  refine ⟨⟨rfl, nofun, rfl, rfl, reaches⟩, apart rfl rfl, ?_⟩
  refine ((exact reaches).2 ?_).trans rfl
  rintro ⟨number, same, -, cut⟩
  obtain rfl := Value.int.inj same
  exact cut (by decide)

/-- The integer after 2^53 becomes that one where a literal of it is laid out, and both infinities
become the same message. -/
theorem odd_literal_is_rounded :
    let odd := Value.int 9007199254740993
    let even := Value.int 9007199254740992
    let double := Value.float ⟨0x4340000000000000⟩
    let infinity := Value.float ⟨0x7FF0000000000000⟩
    let negative := Value.float ⟨0xFFF0000000000000⟩
    (odd ≠ even ∧ odd.coerce? .float = some double ∧ even.coerce? .float = some double ∧
      coerceLiteral "show" "limit" odd .float = .ok double ∧
      odd.number? = some 9007199254740993 ∧ double.number? = some 9007199254740992) ∧
    infinity ≠ negative ∧ infinity.coerce? .message = some (.message .null) ∧
      negative.coerce? .message = some (.message .null) := by
  intro odd even double infinity negative
  refine ⟨⟨?_, rfl, rfl, rfl, rfl, ?_⟩, ?_, rfl, rfl⟩
  · intro same
    exact absurd (Value.int.inj same) (by decide)
  · have uncut : ¬ Value.IsCut 9007199254740992 := not_not.2 (by decide)
    exact (Value.number?_widened_eq_iff 9007199254740992).2 uncut
  · intro same
    exact absurd (Value.float.inj same) (by decide)

end BehaviorTree
