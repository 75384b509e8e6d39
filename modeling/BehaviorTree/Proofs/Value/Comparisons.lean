import BehaviorTree.Proofs.Number.Integers
import BehaviorTree.Value.Comparison

/-!
# Chains of comparisons

Two comparisons that hold one after the other give a third one. The only exception are two integers
with a double between them: integers are rounded before they are compared with a double, but not
when they are compared with each other.
-/

namespace BehaviorTree

namespace Comparison

variable {comparison : Comparison}

/-- The comparison holds between equal values. -/
def IsReflexive (comparison : Comparison) : Prop := comparison.holds .eq = true

theorem isReflexive_equal : equal.IsReflexive := rfl

theorem isReflexive_atMost : atMost.IsReflexive := rfl

theorem IsReflexive.eq (reflexive : comparison.IsReflexive) :
    comparison = equal ∨ comparison = atMost ∨ comparison = atLeast := by
  cases comparison <;> simp_all [IsReflexive, holds]

theorem holds_trans {α : Type} [Ord α] [Std.TransOrd α] (reflexive : comparison.IsReflexive)
    {first second third : α} (left : comparison.holds (compare first second) = true)
    (right : comparison.holds (compare second third) = true) :
    comparison.holds (compare first third) = true := by
  rcases reflexive.eq with rfl | rfl | rfl
  · simp only [holds, beq_iff_eq] at left right ⊢
    exact Std.TransCmp.eq_trans left right
  · simp only [holds, bne_iff_ne, ← Ordering.isLE_iff_ne_gt] at left right ⊢
    exact Std.TransCmp.isLE_trans left right
  · simp only [holds, bne_iff_ne, ← Ordering.isGE_iff_ne_lt] at left right ⊢
    exact Std.TransCmp.isGE_trans left right

theorem holds_equal_iff {first second : Int} :
    equal.holds (compare first second) = true ↔ first = second := by
  simp [holds]

theorem holds_atMost_iff {first second : Int} :
    atMost.holds (compare first second) = true ↔ first ≤ second := by
  simp [holds, Int.compare_eq_gt]

theorem holds_atLeast_iff {first second : Int} :
    atLeast.holds (compare first second) = true ↔ second ≤ first := by
  simp [holds, Int.compare_eq_lt]

/-- What holds between integers holds between their doubles. -/
theorem holds_rounded (reflexive : comparison.IsReflexive) {first second : Int}
    (exact : comparison.holds (compare first second) = true) :
    comparison.holds (compare (Binary64.ofInt first).orderKey (Binary64.ofInt second).orderKey) =
      true := by
  rcases reflexive.eq with rfl | rfl | rfl
  · simp only [holds_equal_iff] at exact ⊢
    rw [exact]
  · simp only [holds_atMost_iff] at exact ⊢
    exact Binary64.orderKey_ofInt_mono exact
  · simp only [holds_atLeast_iff] at exact ⊢
    exact Binary64.orderKey_ofInt_mono exact

/-- Between integers a comparison holds in one direction, so the doubles are the same if it holds
between them in the other one only. -/
theorem ofInt_eq_of_holds (reflexive : comparison.IsReflexive) {first second : Int}
    (rounded : comparison.holds
      (compare (Binary64.ofInt first).orderKey (Binary64.ofInt second).orderKey) = true)
    (fails : ¬ comparison.holds (compare first second) = true) :
    Binary64.ofInt first = Binary64.ofInt second := by
  rw [Binary64.ofInt_eq_iff]
  rcases reflexive.eq with rfl | rfl | rfl
  · exact holds_equal_iff.1 rounded
  · simp only [holds_atMost_iff, Int.not_le] at rounded fails
    have reversed := Binary64.orderKey_ofInt_mono (Int.le_of_lt fails)
    omega
  · simp only [holds_atLeast_iff, Int.not_le] at rounded fails
    have reversed := Binary64.orderKey_ofInt_mono (Int.le_of_lt fails)
    omega

theorem ofEquality?_eq_true_iff (reflexive : comparison.IsReflexive) {same : Bool} :
    comparison.ofEquality? same = some true ↔ comparison = equal ∧ same = true := by
  rcases reflexive.eq with rfl | rfl | rfl <;> simp [ofEquality?]

end Comparison

theorem Binary64.compare?_eq_some_iff {first second : Binary64} {order : Ordering} :
    first.compare? second = some order ↔
      first.isNaN = false ∧ second.isNaN = false ∧
        compare first.orderKey second.orderKey = order := by
  cases left : first.isNaN <;> cases right : second.isNaN <;> simp [Binary64.compare?, left, right]

theorem Binary64.equal_trans {first second third : Binary64} (left : first.equal second = true)
    (right : second.equal third = true) : first.equal third = true := by
  simp only [Binary64.equal, beq_iff_eq, Binary64.compare?_eq_some_iff] at left right ⊢
  exact ⟨left.1, right.2.1, Std.TransCmp.eq_trans left.2.2 right.2.2⟩

mutual

theorem Json.same_trans {first second third : Json} (left : first.same second = true)
    (right : second.same third = true) : first.same third = true := by
  cases first <;> cases second <;> simp only [Json.same, Bool.false_eq_true] at left <;>
    cases third <;> simp only [Json.same, Bool.false_eq_true] at right ⊢
  case bool => simp_all
  case integer => simp_all
  case real => exact Binary64.equal_trans left right
  case string => simp_all
  case array => exact Json.sameItems_trans left right
  case object => exact Json.sameMembers_trans left right
termination_by structural first

theorem Json.sameItems_trans {first second third : List Json}
    (left : Json.sameItems first second = true) (right : Json.sameItems second third = true) :
    Json.sameItems first third = true := by
  cases first <;> cases second <;> simp only [Json.sameItems, Bool.false_eq_true] at left <;>
    cases third <;> simp only [Json.sameItems, Bool.false_eq_true] at right ⊢
  case cons =>
    simp only [Bool.and_eq_true] at left right ⊢
    exact ⟨Json.same_trans left.1 right.1, Json.sameItems_trans left.2 right.2⟩
termination_by structural first

theorem Json.sameMembers_trans {first second third : List (String × Json)}
    (left : Json.sameMembers first second = true)
    (right : Json.sameMembers second third = true) : Json.sameMembers first third = true := by
  cases first <;> cases second <;> simp only [Json.sameMembers, Bool.false_eq_true] at left <;>
    cases third <;> simp only [Json.sameMembers, Bool.false_eq_true] at right ⊢
  case cons member _ _ _ _ _ =>
    obtain ⟨key, value⟩ := member
    simp only [Bool.and_eq_true, beq_iff_eq] at left right ⊢
    exact ⟨⟨left.1.1.trans right.1.1, Json.same_trans left.1.2 right.1.2⟩,
      Json.sameMembers_trans left.2 right.2⟩
termination_by structural first

end

namespace Value

variable {left middle right : Value} {comparison : Comparison}

/-- The place of a value among the doubles, which only numbers have. -/
def place? (value : Value) : Option Int :=
  value.asNumber?.bind fun number => if number.isNaN then none else some number.orderKey

theorem place?_eq_some_iff {value : Value} {place : Int} :
    value.place? = some place ↔ ∃ number : Binary64,
      value.asNumber? = some number ∧ number.isNaN = false ∧ number.orderKey = place := by
  simp only [place?, Option.bind_eq_some_iff]
  apply exists_congr
  intro number
  cases number.isNaN <;> simp

theorem place?_int (number : Int64) :
    (int number).place? = some (Binary64.ofInt number.toInt).orderKey := by
  simp [place?, asNumber?, Binary64.isNaN_ofInt]

theorem compare?_of_mixed (mixed : left.asInt? = none ∨ right.asInt? = none)
    {first second : Binary64} (leftNumber : left.asNumber? = some first)
    (rightNumber : right.asNumber? = some second) :
    left.compare? comparison right = (first.compare? second).map comparison.holds := by
  cases left <;> cases right <;> simp_all [compare?, asNumber?, asInt?] <;>
    cases first.compare? second <;> rfl

/-- A comparison holds between two values. Numbers are compared as doubles unless both of them are
integers. -/
inductive Compares (comparison : Comparison) : Value → Value → Prop where
  | integers {first second : Int64}
      (holds : comparison.holds (compare first.toInt second.toInt) = true) :
      Compares comparison (int first) (int second)
  | doubles {left right : Value} {first second : Int}
      (mixed : left.asInt? = none ∨ right.asInt? = none)
      (leftPlace : left.place? = some first) (rightPlace : right.place? = some second)
      (holds : comparison.holds (compare first second) = true) : Compares comparison left right
  | texts {first second : String} (holds : comparison.holds (compare first second) = true) :
      Compares comparison (string first) (string second)
  | bools {first second : Bool} (holds : comparison.ofEquality? (first == second) = some true) :
      Compares comparison (bool first) (bool second)
  | messages {first second : Json}
      (holds : comparison.ofEquality? (first.same second) = some true) :
      Compares comparison (message first) (message second)

theorem compares_of_mixed (mixed : left.asInt? = none ∨ right.asInt? = none)
    {first second : Binary64} (leftNumber : left.asNumber? = some first)
    (rightNumber : right.asNumber? = some second)
    (holds : left.compare? comparison right = some true) : Compares comparison left right := by
  rw [compare?_of_mixed mixed leftNumber rightNumber, Option.map_eq_some_iff] at holds
  obtain ⟨order, ordered, holds⟩ := holds
  obtain ⟨leftIsNumber, rightIsNumber, rfl⟩ := Binary64.compare?_eq_some_iff.1 ordered
  exact .doubles mixed (place?_eq_some_iff.2 ⟨first, leftNumber, leftIsNumber, rfl⟩)
    (place?_eq_some_iff.2 ⟨second, rightNumber, rightIsNumber, rfl⟩) holds

theorem compare?_eq_true_iff :
    left.compare? comparison right = some true ↔ Compares comparison left right := by
  constructor
  · intro holds
    cases left <;> cases right
    case int.int => exact .integers (Option.some.inj holds)
    case int.float => exact compares_of_mixed (.inr rfl) rfl rfl holds
    case float.int => exact compares_of_mixed (.inl rfl) rfl rfl holds
    case float.float => exact compares_of_mixed (.inl rfl) rfl rfl holds
    case string.string => exact .texts (Option.some.inj holds)
    case bool.bool => exact .bools holds
    case message.message => exact .messages holds
    all_goals cases holds
  · intro holds
    cases holds with
    | integers holds => exact congrArg some holds
    | doubles mixed leftPlace rightPlace holds =>
      obtain ⟨first, leftNumber, leftIsNumber, rfl⟩ := place?_eq_some_iff.1 leftPlace
      obtain ⟨second, rightNumber, rightIsNumber, rfl⟩ := place?_eq_some_iff.1 rightPlace
      rw [compare?_of_mixed mixed leftNumber rightNumber,
        Binary64.compare?_eq_some_iff.2 ⟨leftIsNumber, rightIsNumber, rfl⟩, Option.map_some, holds]
    | texts holds => exact congrArg some holds
    | bools holds => exact holds
    | messages holds => exact holds

/-- Two integers that are rounded to the same double, and a double between them. -/
structure RoundTogether (left middle right : Value) (first last : Int64) : Prop where
  left_eq : left = int first
  middle_eq : ∃ number, middle = float number
  right_eq : right = int last
  rounded : Binary64.ofInt first.toInt = Binary64.ofInt last.toInt

theorem asInt?_eq_some_iff {value : Value} {number : Int64} :
    value.asInt? = some number ↔ value = int number := by
  cases value <;> simp [asInt?]

theorem eq_float_of_place? {value : Value} {place : Int} (placed : value.place? = some place)
    (noInteger : value.asInt? = none) : ∃ number, value = float number := by
  cases value with
  | float number => exact ⟨number, rfl⟩
  | int number => cases noInteger
  | bool value => cases placed
  | string text => cases placed
  | message content => cases placed

/-- Two values that are compared with a third one by their places are compared with each other by
their places, unless both are integers. -/
theorem compares_through_double (reflexive : comparison.IsReflexive) {first second third : Int}
    (leftPlace : left.place? = some first) (middlePlace : middle.place? = some second)
    (rightPlace : right.place? = some third) (noInteger : middle.asInt? = none)
    (before : comparison.holds (compare first second) = true)
    (after : comparison.holds (compare second third) = true) :
    Compares comparison left right ∨ ∃ start finish, RoundTogether left middle right start finish ∧
      ¬ comparison.holds (compare start.toInt finish.toInt) = true := by
  have chained := Comparison.holds_trans reflexive before after
  cases leftInteger : left.asInt? with
  | none => exact .inl (.doubles (.inl leftInteger) leftPlace rightPlace chained)
  | some start =>
    cases rightInteger : right.asInt? with
    | none => exact .inl (.doubles (.inr rightInteger) leftPlace rightPlace chained)
    | some finish =>
      rw [asInt?_eq_some_iff] at leftInteger rightInteger
      subst leftInteger rightInteger
      simp only [place?_int, Option.some.injEq] at leftPlace rightPlace
      subst leftPlace rightPlace
      by_cases exact : comparison.holds (compare start.toInt finish.toInt) = true
      · exact .inl (.integers exact)
      · exact .inr ⟨start, finish, ⟨rfl, eq_float_of_place? middlePlace noInteger, rfl,
          Comparison.ofInt_eq_of_holds reflexive chained exact⟩, exact⟩

/-- Comparisons chain unless integers are rounded together. -/
theorem Compares.chain (reflexive : comparison.IsReflexive)
    (before : Compares comparison left middle) (after : Compares comparison middle right) :
    Compares comparison left right ∨ ∃ first last, RoundTogether left middle right first last ∧
      ¬ comparison.holds (compare first.toInt last.toInt) = true := by
  cases before with
  | integers before =>
    cases after with
    | integers after => exact .inl (.integers (Comparison.holds_trans reflexive before after))
    | doubles mixed middlePlace rightPlace after =>
      simp only [place?_int, Option.some.injEq] at middlePlace
      subst middlePlace
      have noInteger : right.asInt? = none := mixed.resolve_left nofun
      exact .inl (.doubles (.inr noInteger) (place?_int _) rightPlace
        (Comparison.holds_trans reflexive (Comparison.holds_rounded reflexive before) after))
  | doubles mixed leftPlace middlePlace before =>
    cases after with
    | integers after =>
      simp only [place?_int, Option.some.injEq] at middlePlace
      subst middlePlace
      have noInteger : left.asInt? = none := mixed.resolve_right nofun
      exact .inl (.doubles (.inl noInteger) leftPlace (place?_int _)
        (Comparison.holds_trans reflexive before (Comparison.holds_rounded reflexive after)))
    | doubles otherMixed otherPlace rightPlace after =>
      obtain rfl := Option.some.inj (middlePlace.symm.trans otherPlace)
      cases middleInteger : middle.asInt? with
      | none =>
        exact compares_through_double reflexive leftPlace middlePlace rightPlace middleInteger
          before after
      | some number =>
        have noInteger : left.asInt? = none := mixed.resolve_right (by simp [middleInteger])
        exact .inl (.doubles (.inl noInteger) leftPlace rightPlace
          (Comparison.holds_trans reflexive before after))
    | texts after => cases middlePlace
    | bools after => cases middlePlace
    | messages after => cases middlePlace
  | texts before =>
    cases after with
    | texts after => exact .inl (.texts (Comparison.holds_trans reflexive before after))
    | doubles mixed middlePlace rightPlace after => cases middlePlace
  | bools before =>
    cases after with
    | bools after =>
      simp only [Comparison.ofEquality?_eq_true_iff reflexive, beq_iff_eq] at before after
      refine .inl (.bools ((Comparison.ofEquality?_eq_true_iff reflexive).2 ⟨before.1, ?_⟩))
      simp [before.2, after.2]
    | doubles mixed middlePlace rightPlace after => cases middlePlace
  | messages before =>
    cases after with
    | messages after =>
      rw [Comparison.ofEquality?_eq_true_iff reflexive] at before after
      exact .inl (.messages ((Comparison.ofEquality?_eq_true_iff reflexive).2
        ⟨before.1, Json.same_trans before.2 after.2⟩))
    | doubles mixed middlePlace rightPlace after => cases middlePlace

/-- A reflexive comparison of two values with a third one holds between the two exactly if they are
no integers that are rounded together and compare in the other way. -/
theorem compare?_chain_iff (reflexive : comparison.IsReflexive)
    (before : left.compare? comparison middle = some true)
    (after : middle.compare? comparison right = some true) :
    left.compare? comparison right = some true ↔
      ¬ ∃ first last, RoundTogether left middle right first last ∧
        ¬ comparison.holds (compare first.toInt last.toInt) = true := by
  rw [compare?_eq_true_iff] at before after
  constructor
  · rintro holds ⟨first, last, ⟨rfl, -, rfl, -⟩, fails⟩
    exact fails (Option.some.inj holds)
  · intro apart
    exact compare?_eq_true_iff.2 ((Compares.chain reflexive before after).resolve_right apart)

end Value

/-- If two values are both equal to a third one, they are equal to each other, and likewise if one
is at most and the other one at least the third one. The only exception are two integers that are
rounded to the same double, which is then the third value. One of such integers is beyond 2^53. -/
theorem comparisons_chain_unless_rounded (left middle right : Value) :
    (left.compare? .equal middle = some true → middle.compare? .equal right = some true →
      (left.compare? .equal right = some true ↔
        ¬ ∃ first last, left.RoundTogether middle right first last ∧ first ≠ last)) ∧
    (left.compare? .atMost middle = some true → middle.compare? .atMost right = some true →
      (left.compare? .atMost right = some true ↔
        ¬ ∃ first last, left.RoundTogether middle right first last ∧ last < first)) ∧
    ∀ first last, left.RoundTogether middle right first last → first ≠ last →
      0x20000000000000 < first.toInt.natAbs ∨ 0x20000000000000 < last.toInt.natAbs := by
  refine ⟨?_, ?_, ?_⟩
  · intro before after
    simp only [Value.compare?_chain_iff Comparison.isReflexive_equal before after,
      Comparison.holds_equal_iff, Int64.toInt_inj, ne_eq]
  · intro before after
    simp only [Value.compare?_chain_iff Comparison.isReflexive_atMost before after,
      Comparison.holds_atMost_iff, Int.not_le, Int64.lt_iff_toInt_lt]
  · intro first last meets different
    by_contra low
    have apart : Binary64.ofInt first.toInt ≠ Binary64.ofInt last.toInt :=
      Binary64.ofInt_ne (by rwa [Ne, Int64.toInt_inj]) (by omega) (by omega)
    exact apart meets.rounded

/-- An odd integer that is rounded down is at most the next double, through the one before. -/
theorem rounded_integer_is_below_next :
    let odd := Value.int 9007199254740993
    let before := Value.float ⟨0x4340000000000000⟩
    let after := Value.float ⟨0x4340000000000001⟩
    (odd.compare? .atMost before = some true ∧ before.compare? .atMost after = some true) ∧
      odd.compare? .atMost after = some true := by
  intro odd before after
  have chained := (comparisons_chain_unless_rounded odd before after).2.1 (by decide) (by decide)
  refine ⟨⟨by decide, by decide⟩, chained.2 ?_⟩
  rintro ⟨first, last, rounded, -⟩
  have impossible := rounded.right_eq
  simp [after] at impossible

/-- An integer, its neighbour, and the double to which both of them are rounded. -/
theorem neighbours_equal_one_double :
    let double := Value.float ⟨0x4340000000000000⟩
    let odd := Value.int 9007199254740993
    let even := Value.int 9007199254740992
    (odd.compare? .equal double = some true ∧ double.compare? .equal even = some true ∧
      odd.compare? .equal even = some false) ∧
    odd.compare? .atMost double = some true ∧ double.compare? .atMost even = some true ∧
      odd.compare? .atMost even = some false := by
  decide

end BehaviorTree
