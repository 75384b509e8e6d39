import BehaviorTree.Proofs.Node.Fields
import BehaviorTree.Proofs.Number.Rounding

/-!
# Durations that do not fit

A number of seconds in a field becomes a duration, which exists only below a limit. Numbers that are
not finite or that are negative are refused with an error, but a number from the limit on crashes the
configuration. This is the only way in which a configuration crashes.
-/

namespace BehaviorTree

namespace Duration

variable {left right : Duration}

theorem ofNanoseconds?_eq_none_iff {nanoseconds : Nat} :
    ofNanoseconds? nanoseconds = none ↔ durationLimit ≤ nanoseconds := by
  simp [ofNanoseconds?]

theorem add?_eq_none_iff :
    left.add? right = none ↔ durationLimit ≤ left.nanoseconds + right.nanoseconds :=
  ofNanoseconds?_eq_none_iff

end Duration

namespace Binary64

/-- A number of seconds that is at least as large as the limit of durations. -/
def ReachesLimit (seconds : Binary64) : Prop :=
  seconds.denominator * 0x10000000000000000 ≤ seconds.numerator

theorem significand_lt (number : Binary64) : number.significand < 0x20000000000000 := by
  simp only [significand]
  split <;> omega

/-- A number without a fraction becomes a whole number of seconds, and one with a fraction is far
below the limit. -/
theorem ofSeconds?_eq_none_iff (seconds : Binary64) :
    Duration.ofSeconds? seconds = none ↔ seconds.ReachesLimit := by
  have small := seconds.significand_lt
  rw [Duration.ofSeconds?, Duration.ofNanoseconds?_eq_none_iff, ReachesLimit, durationLimit]
  by_cases whole : 0 ≤ seconds.exponent
  · have one : seconds.denominator = 1 := by
      simp [denominator, Int.toNat_of_nonpos (Int.neg_nonpos_of_nonneg whole)]
    rw [one, roundHalfEven_one, Nat.one_mul]
    exact Nat.mul_le_mul_right_iff (by decide)
  · have unscaled : seconds.numerator = seconds.significand := by
      simp [numerator, Int.toNat_of_nonpos (Int.le_of_not_le whole)]
    have positive : 0 < seconds.denominator := by
      simp only [denominator, Nat.shiftLeft_eq, Nat.one_mul]
      exact Nat.two_pow_pos _
    rw [unscaled]
    refine iff_of_false (fun reaches => ?_) fun reaches => ?_
    · have rounded := roundHalfEven_le (seconds.significand * nanosecondsPerSecond)
        seconds.denominator
      have divided := Nat.div_le_self (seconds.significand * nanosecondsPerSecond)
        seconds.denominator
      simp only [nanosecondsPerSecond] at reaches rounded divided
      omega
    · have scaled := Nat.mul_le_mul_right 0x10000000000000000 positive
      omega

end Binary64

namespace FieldTable

variable {fields : FieldTable} {name : String} {cause : Crash} {seconds : Binary64}

/-- The number in a field, if the field holds a constant that is one. -/
def number? (fields : FieldTable) (name : String) : Option Binary64 :=
  (fields.constant? name .float).toOption.join.bind Value.asNumber?

/-- A field holds a number of seconds that is not refused, but for which there is no duration. -/
def Overflows (fields : FieldTable) (name : String) : Prop :=
  ∃ seconds, fields.number? name = some seconds ∧ seconds.isFinite = true ∧
    0 ≤ seconds.orderKey ∧ seconds.ReachesLimit

theorem duration_eq_crash : duration name seconds = .error (.crash cause) ↔
    cause = .durationOverflow ∧ seconds.isFinite = true ∧ 0 ≤ seconds.orderKey ∧
      seconds.ReachesLimit := by
  rw [← seconds.ofSeconds?_eq_none_iff]
  unfold duration
  split
  · rename_i accepted
    simp only [Bool.and_eq_true, decide_eq_true_eq] at accepted
    cases Duration.ofSeconds? seconds with
    | none => simp [Failure.orCrash, accepted.1, accepted.2, eq_comm]
    | some duration => simp [Failure.orCrash]
  · rename_i refused
    simp only [Bool.and_eq_true, decide_eq_true_eq] at refused
    refine iff_of_false (fun impossible => by cases impossible) ?_
    rintro ⟨-, finite, positive, -⟩
    exact refused ⟨finite, positive⟩

theorem seconds?_eq_crash : fields.seconds? name = .error (.crash cause) ↔
    cause = .durationOverflow ∧ fields.Overflows name := by
  simp only [Overflows, number?, seconds?]
  cases fields.constant? name .float with
  | error error => simp [bind, Except.bind, Except.mapError, Except.toOption]
  | ok value =>
    cases held : value.bind Value.asNumber? with
    | none =>
      simp [bind, Except.bind, Except.mapError, Except.toOption, pure, Except.pure, held,
        Option.join_some]
    | some seconds =>
      have crashes : (some <$> duration name seconds) = .error (.crash cause) ↔
          duration name seconds = .error (.crash cause) := by
        cases duration name seconds <;> simp [Functor.map, Except.map]
      simp [bind, Except.bind, Except.mapError, Except.toOption, held, crashes,
        duration_eq_crash, Option.join_some]

theorem seconds_eq_crash : fields.seconds name = .error (.crash cause) ↔
    cause = .durationOverflow ∧ fields.Overflows name := by
  rw [← seconds?_eq_crash, seconds]
  cases fields.seconds? name with
  | error failure => simp [bind, Except.bind]
  | ok value => cases value <;> simp [required, bind, Except.bind, Except.mapError]

end FieldTable

namespace NodeKind

variable {kind : NodeKind} {fields : FieldTable} {cause : Crash}

theorem checkDuration_eq_crash : kind.checkDuration fields = .error (.crash cause) ↔
    cause = .durationOverflow ∧
      ∃ field, kind.durationField = some field ∧ fields.Overflows field.name := by
  unfold checkDuration
  cases found : kind.durationField with
  | none => simp
  | some field =>
    simp only [FieldSpec.checkDuration]
    split <;>
      simp [verdict_eq_error, FieldTable.seconds_eq_crash, FieldTable.seconds?_eq_crash]

/-- A configuration crashes exactly if all other fields pass their checks and the field of the
duration holds a number that does not fit. -/
theorem configure_eq_crash : kind.configure fields = .error (.crash cause) ↔
    cause = .durationOverflow ∧ kind.checkFields fields = .ok () ∧
      ∃ field, kind.durationField = some field ∧ fields.Overflows field.name := by
  rw [← verdict_eq_error, verdict_configure, check]
  cases checked : kind.checkFields fields with
  | error error =>
    simp [Except.mapError, bind, Except.bind]
  | ok =>
    rw [← and_left_comm, ← checkDuration_eq_crash]
    simp [Except.mapError, bind, Except.bind]

end NodeKind

end BehaviorTree
