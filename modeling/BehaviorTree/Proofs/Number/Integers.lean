import BehaviorTree.Proofs.Number.Rounding
import Mathlib.Data.Rat.Cast.Lemmas

/-!
# Integers as doubles

A natural number other than zero is brought to fifty-three binary places, by adding zeros or by
rounding the last places away. Nothing is lost up to 2^53, and beyond it exactly if the last places
are zeros. The order of integers is kept throughout, but integers that differ may become the same
double.
-/

namespace BehaviorTree

namespace Binary64

variable {number smaller greater : Nat}

/-- A number with as many binary places as asked for, of which the last ones may be cut off. -/
theorem two_pow_le_shifted (nonzero : number ≠ 0) (places : Nat) :
    2 ^ places ≤ number <<< (places - number.log2) / 1 <<< (number.log2 - places) := by
  have lower := Nat.log2_self_le nonzero
  simp only [Nat.shiftLeft_eq, Nat.one_mul]
  rw [Nat.le_div_iff_mul_le (Nat.two_pow_pos _), ← Nat.pow_add]
  have length : places + (number.log2 - places) = number.log2 + (places - number.log2) := by omega
  rw [length, Nat.pow_add]
  exact Nat.mul_le_mul_right _ lower

theorem shifted_lt_two_pow (places : Nat) :
    number <<< (places - number.log2) / 1 <<< (number.log2 - places) < 2 ^ (places + 1) := by
  have upper := @Nat.lt_log2_self number
  simp only [Nat.shiftLeft_eq, Nat.one_mul]
  rw [Nat.div_lt_iff_lt_mul (Nat.two_pow_pos _), ← Nat.pow_add]
  have length : places + 1 + (number.log2 - places) = number.log2 + 1 + (places - number.log2) := by
    omega
  rw [length, Nat.pow_add]
  exact Nat.mul_lt_mul_of_pos_right upper (Nat.two_pow_pos _)

/-- The significand of the double nearest to a natural number. -/
def roundedSignificand (number : Nat) : Nat :=
  roundHalfEven (number <<< (52 - number.log2)) (1 <<< (number.log2 - 52))

/-- The magnitude bits of the double nearest to a natural number. A significand of 2^53 is one of
2^52 with the next exponent. -/
def naturalMagnitude (number : Nat) : Nat :=
  if number = 0 then 0
  else min infinityMagnitude
    ((number.log2 + 1022) * 0x10000000000000 + roundedSignificand number)

theorem ofRatio_one (negative : Bool) (number : Nat) :
    ofRatio negative number 1 = ofMagnitude negative (naturalMagnitude number) := by
  by_cases zero : number = 0
  · simp [ofRatio, naturalMagnitude, zero, Binary64.zero]
  · have single : Nat.log2 1 = 0 := by decide
    have lowest :
        max ((number.log2 : Int) - (0 : Nat) - 53) (-1074) = (number.log2 : Int) - 53 := by
      omega
    have wide := two_pow_le_shifted zero 53
    have left : (-((number.log2 : Int) - 53)).toNat = 53 - number.log2 := by omega
    have right : ((number.log2 : Int) - 53).toNat = number.log2 - 53 := by omega
    have next : (number.log2 : Int) - 53 + 1 = (number.log2 : Int) - 52 := by omega
    have nextLeft : (-((number.log2 : Int) - 52)).toNat = 52 - number.log2 := by omega
    have nextRight : ((number.log2 : Int) - 52).toNat = number.log2 - 52 := by omega
    have biased : ((number.log2 : Int) - 52 + 1074).toNat = number.log2 + 1022 := by omega
    simp only [Nat.reducePow] at wide
    simp only [ofRatio, naturalMagnitude, roundedSignificand, zero, if_false, single, lowest, left,
      right, wide, if_true, next, nextLeft, nextRight, biased]

theorem roundedSignificand_of_le (short : number.log2 ≤ 52) :
    roundedSignificand number = number <<< (52 - number.log2) := by
  have uncut : number.log2 - 52 = 0 := by omega
  simp [roundedSignificand, uncut, roundHalfEven_one]

theorem le_roundedSignificand (nonzero : number ≠ 0) :
    0x10000000000000 ≤ roundedSignificand number :=
  Nat.le_trans (two_pow_le_shifted nonzero 52) (le_roundHalfEven _ _)

theorem roundedSignificand_le (number : Nat) : roundedSignificand number ≤ 0x20000000000000 := by
  have below : number <<< (52 - number.log2) / 1 <<< (number.log2 - 52) < 0x20000000000000 :=
    shifted_lt_two_pow 52
  exact Nat.le_trans (roundHalfEven_le _ _) below

theorem roundedSignificand_lt_of_le (short : number.log2 ≤ 52) :
    roundedSignificand number < 0x20000000000000 := by
  have below : number <<< (52 - number.log2) / 1 <<< (number.log2 - 52) < 0x20000000000000 :=
    shifted_lt_two_pow 52
  have uncut : number.log2 - 52 = 0 := by omega
  simpa [roundedSignificand_of_le short, uncut] using below

theorem log2_mono (le : smaller ≤ greater) : smaller.log2 ≤ greater.log2 := by
  by_cases zero : smaller = 0
  · simp [zero]
  · exact (Nat.le_log2 (by omega)).2 (Nat.le_trans (Nat.log2_self_le zero) le)

theorem naturalMagnitude_of_bounded (nonzero : number ≠ 0) (bounded : number.log2 ≤ 1022) :
    naturalMagnitude number =
      (number.log2 + 1022) * 0x10000000000000 + roundedSignificand number := by
  have upper := roundedSignificand_le number
  simp only [naturalMagnitude, nonzero, if_false, infinityMagnitude]
  omega

theorem naturalMagnitude_mono (le : smaller ≤ greater) :
    naturalMagnitude smaller ≤ naturalMagnitude greater := by
  by_cases zero : smaller = 0
  · simp [naturalMagnitude, zero]
  · have nonzero : greater ≠ 0 := by omega
    have upper := roundedSignificand_le smaller
    have lower := le_roundedSignificand nonzero
    simp only [naturalMagnitude, zero, nonzero, if_false]
    rcases Nat.lt_or_eq_of_le (log2_mono le) with longer | same
    · omega
    · have significands : roundedSignificand smaller ≤ roundedSignificand greater := by
        simp only [roundedSignificand, same, Nat.shiftLeft_eq]
        exact roundHalfEven_mono _ (Nat.mul_le_mul_right _ le)
      omega

/-- Up to 2^53 all natural numbers are doubles of their own. -/
theorem naturalMagnitude_lt (lt : smaller < greater) (low : greater ≤ 0x20000000000000) :
    naturalMagnitude smaller < naturalMagnitude greater := by
  have nonzero : greater ≠ 0 := by omega
  have lower := le_roundedSignificand nonzero
  have length : greater.log2 ≤ 53 := log2_mono low
  rw [naturalMagnitude_of_bounded nonzero (by omega)]
  by_cases zero : smaller = 0
  · simp only [naturalMagnitude, zero, if_true]
    omega
  · have short : smaller.log2 ≤ 52 := by
      have below := (Nat.log2_lt (k := 53) zero).2 (by omega)
      omega
    have upper := roundedSignificand_lt_of_le short
    rw [naturalMagnitude_of_bounded zero (by omega)]
    rcases Nat.lt_or_eq_of_le (log2_mono (Nat.le_of_lt lt)) with longer | same
    · omega
    · have significands : roundedSignificand smaller < roundedSignificand greater := by
        simp only [roundedSignificand_of_le short, roundedSignificand_of_le (same ▸ short), same,
          Nat.shiftLeft_eq]
        exact Nat.mul_lt_mul_of_pos_right lt (Nat.two_pow_pos _)
      omega

theorem naturalMagnitude_pos (nonzero : number ≠ 0) : 0 < naturalMagnitude number := by
  have lower := le_roundedSignificand nonzero
  simp only [naturalMagnitude, nonzero, if_false, infinityMagnitude]
  omega

theorem naturalMagnitude_le (number : Nat) : naturalMagnitude number ≤ infinityMagnitude := by
  simp only [naturalMagnitude]
  split
  · exact Nat.zero_le _
  · exact Nat.min_le_left _ _

section Signs

variable {negative : Bool} {magnitude : Nat} {first second : Int}

theorem toNat_bits_ofMagnitude (bounded : magnitude ≤ infinityMagnitude) :
    (ofMagnitude negative magnitude).bits.toNat =
      (if negative then 0x8000000000000000 else 0) + magnitude := by
  simp only [infinityMagnitude] at bounded
  apply UInt64.toNat_ofNat_of_lt'
  simp only [UInt64.size]
  split <;> omega

theorem magnitude_ofMagnitude (bounded : magnitude ≤ infinityMagnitude) :
    (ofMagnitude negative magnitude).magnitude = magnitude := by
  rw [Binary64.magnitude, toNat_bits_ofMagnitude bounded]
  simp only [infinityMagnitude] at bounded
  split <;> omega

theorem isNegative_ofMagnitude (bounded : magnitude ≤ infinityMagnitude) :
    (ofMagnitude negative magnitude).isNegative = negative := by
  rw [isNegative, toNat_bits_ofMagnitude bounded]
  simp only [infinityMagnitude] at bounded
  cases negative
  · simp
    omega
  · simp

theorem ofInt_eq (number : Int) :
    ofInt number = ofMagnitude (number < 0) (naturalMagnitude number.natAbs) :=
  ofRatio_one _ _

theorem magnitude_ofInt (number : Int) :
    (ofInt number).magnitude = naturalMagnitude number.natAbs := by
  rw [ofInt_eq, magnitude_ofMagnitude (naturalMagnitude_le _)]

theorem isNegative_ofInt (number : Int) : (ofInt number).isNegative = decide (number < 0) := by
  rw [ofInt_eq, isNegative_ofMagnitude (naturalMagnitude_le _)]

theorem isNaN_ofInt (number : Int) : (ofInt number).isNaN = false := by
  have bounded := naturalMagnitude_le number.natAbs
  simp [isNaN, magnitude_ofInt, bounded]

theorem orderKey_ofInt (number : Int) : (ofInt number).orderKey =
    if number < 0 then -(naturalMagnitude number.natAbs : Int)
    else naturalMagnitude number.natAbs := by
  simp [orderKey, magnitude_ofInt, isNegative_ofInt]

/-- Integers keep their order as doubles. -/
theorem orderKey_ofInt_mono (le : first ≤ second) :
    (ofInt first).orderKey ≤ (ofInt second).orderKey := by
  simp only [orderKey_ofInt]
  split <;> split
  · have magnitudes : naturalMagnitude second.natAbs ≤ naturalMagnitude first.natAbs :=
      naturalMagnitude_mono (by omega)
    omega
  · omega
  · omega
  · have magnitudes : naturalMagnitude first.natAbs ≤ naturalMagnitude second.natAbs :=
      naturalMagnitude_mono (by omega)
    omega

/-- Zero is the only integer that becomes a zero, and it becomes the positive one. -/
theorem ofInt_eq_iff :
    ofInt first = ofInt second ↔ (ofInt first).orderKey = (ofInt second).orderKey := by
  constructor
  · intro same
    rw [same]
  · intro same
    have firstPositive : first ≠ 0 → 0 < naturalMagnitude first.natAbs := fun nonzero =>
      naturalMagnitude_pos (by omega)
    have secondPositive : second ≠ 0 → 0 < naturalMagnitude second.natAbs := fun nonzero =>
      naturalMagnitude_pos (by omega)
    have signs : first < 0 ↔ second < 0 := by
      simp only [orderKey_ofInt] at same
      split at same <;> split at same <;> omega
    have magnitudes : naturalMagnitude first.natAbs = naturalMagnitude second.natAbs := by
      simp only [orderKey_ofInt, signs] at same
      split at same <;> omega
    simp [ofInt_eq, signs, magnitudes]

/-- Of two integers that become the same double, one is beyond 2^53. -/
theorem ofInt_ne (different : first ≠ second) (firstLow : first.natAbs ≤ 0x20000000000000)
    (secondLow : second.natAbs ≤ 0x20000000000000) : ofInt first ≠ ofInt second := by
  rw [Ne, ofInt_eq_iff]
  simp only [orderKey_ofInt]
  rcases Nat.lt_trichotomy first.natAbs second.natAbs with less | same | greater
  · have magnitudes := naturalMagnitude_lt less secondLow
    split <;> split <;> omega
  · have positive : 0 < naturalMagnitude second.natAbs := naturalMagnitude_pos (by omega)
    rw [same]
    split <;> split <;> omega
  · have magnitudes := naturalMagnitude_lt greater firstLow
    split <;> split <;> omega

end Signs

/-- The number that a finite double is. -/
def toRat (double : Binary64) : ℚ :=
  (if double.isNegative then -(double.numerator : ℚ) else double.numerator) / double.denominator

/-- Nothing is lost if the places that are rounded away are zeros. -/
theorem roundedSignificand_exact_iff (number : Nat) :
    roundedSignificand number * 2 ^ (number.log2 - 52) = number * 2 ^ (52 - number.log2) ↔
      2 ^ (number.log2 - 52) ∣ number := by
  rcases Nat.le_total number.log2 52 with short | long
  · have uncut : number.log2 - 52 = 0 := by omega
    simp [roundedSignificand_of_le short, uncut, Nat.shiftLeft_eq]
  · have unscaled : 52 - number.log2 = 0 := by omega
    simp only [roundedSignificand, unscaled, Nat.shiftLeft_eq, Nat.pow_zero, Nat.mul_one,
      Nat.one_mul]
    constructor
    · intro kept
      exact ⟨_, (Nat.mul_comm _ _).trans kept |>.symm⟩
    · rintro ⟨quotient, multiple⟩
      generalize number.log2 - 52 = places at multiple ⊢
      rw [multiple, Nat.mul_comm (2 ^ places), roundHalfEven_mul (Nat.two_pow_pos _)]

/-- The numerator and the denominator of the double nearest to a natural number. -/
theorem numerator_ofMagnitude (nonzero : number ≠ 0) (bounded : number.log2 ≤ 1022)
    (negative : Bool) :
    (ofMagnitude negative (naturalMagnitude number)).numerator =
        roundedSignificand number * 2 ^ (number.log2 - 52) ∧
      (ofMagnitude negative (naturalMagnitude number)).denominator = 2 ^ (52 - number.log2) := by
  have lower := le_roundedSignificand nonzero
  have upper := roundedSignificand_le number
  have bits : (ofMagnitude negative (naturalMagnitude number)).magnitude =
      (number.log2 + 1022) * 0x10000000000000 + roundedSignificand number := by
    rw [magnitude_ofMagnitude (naturalMagnitude_le _), naturalMagnitude_of_bounded nonzero bounded]
  have normal : ¬ (number.log2 + 1022) * 0x10000000000000 + roundedSignificand number <
      0x10000000000000 := by
    omega
  simp only [numerator, denominator, significand, exponent, bits, normal, if_false,
    Nat.shiftLeft_eq, Nat.one_mul]
  rcases Nat.lt_or_eq_of_le upper with fits | carried
  · have significand : 0x10000000000000 +
        ((number.log2 + 1022) * 0x10000000000000 + roundedSignificand number) % 0x10000000000000 =
          roundedSignificand number := by
      omega
    have quotient : ((number.log2 + 1022) * 0x10000000000000 + roundedSignificand number) /
        0x10000000000000 = number.log2 + 1023 := by
      omega
    have up : (((number.log2 + 1023 : Nat) : Int) - 1075).toNat = number.log2 - 52 := by omega
    have down : (-(((number.log2 + 1023 : Nat) : Int) - 1075)).toNat = 52 - number.log2 := by omega
    simp only [significand, quotient, up, down, and_self]
  · have long : 53 ≤ number.log2 := by
      by_contra fewer
      have short : number.log2 ≤ 52 := by omega
      have fits := roundedSignificand_lt_of_le short
      omega
    have significand : 0x10000000000000 +
        ((number.log2 + 1022) * 0x10000000000000 + 0x20000000000000) % 0x10000000000000 =
          0x10000000000000 := by
      omega
    have quotient : ((number.log2 + 1022) * 0x10000000000000 + 0x20000000000000) /
        0x10000000000000 = number.log2 + 1024 := by
      omega
    have up : (((number.log2 + 1024 : Nat) : Int) - 1075).toNat = number.log2 - 52 + 1 := by omega
    have down : (-(((number.log2 + 1024 : Nat) : Int) - 1075)).toNat = 52 - number.log2 := by omega
    simp only [carried, significand, quotient, up, down, Nat.pow_succ, and_true]
    omega

theorem isFinite_ofInt {value : Int} (bounded : value.natAbs.log2 ≤ 1022) :
    (ofInt value).isFinite = true := by
  simp only [isFinite, magnitude_ofInt, decide_eq_true_eq]
  by_cases zero : value.natAbs = 0
  · simp [naturalMagnitude, zero, infinityMagnitude]
  · have upper := roundedSignificand_le value.natAbs
    rw [naturalMagnitude_of_bounded zero bounded]
    simp only [infinityMagnitude]
    omega

/-- Integers of 64 bits, with or without a sign, are far from infinite as doubles. -/
theorem log2_le_of_wide {value : Int} (low : -0x8000000000000000 ≤ value)
    (high : value < 0x10000000000000000) : value.natAbs.log2 ≤ 1022 := by
  have short : value.natAbs.log2 ≤ Nat.log2 0x10000000000000000 := log2_mono (by omega)
  have length : Nat.log2 0x10000000000000000 = 64 := by decide
  omega

/-- An integer is kept exactly if it has no more than fifty-three binary places in front of the
zeros at its end. -/
theorem toRat_ofInt_eq_iff {value : Int} (bounded : value.natAbs.log2 ≤ 1022) :
    (ofInt value).toRat = value ↔ 2 ^ (value.natAbs.log2 - 52) ∣ value.natAbs := by
  by_cases zero : value = 0
  · subst zero
    have nothing : (ofInt 0).numerator = 0 := by decide
    exact iff_of_true (by simp [toRat, nothing]) (by simp)
  · have nonzero : value.natAbs ≠ 0 := by omega
    obtain ⟨numerator, denominator⟩ := numerator_ofMagnitude nonzero bounded (value < 0)
    rw [← roundedSignificand_exact_iff, toRat, isNegative_ofInt]
    simp only [ofInt_eq, numerator, denominator, decide_eq_true_eq]
    generalize roundedSignificand value.natAbs * 2 ^ (value.natAbs.log2 - 52) = rounded
    have positive := Nat.two_pow_pos (52 - value.natAbs.log2)
    generalize 2 ^ (52 - value.natAbs.log2) = scale at positive ⊢
    have divisor : (scale : ℚ) ≠ 0 := by
      exact_mod_cast positive.ne'
    rw [div_eq_iff divisor]
    rcases Int.lt_or_le value 0 with below | above
    · have sign : value = -(value.natAbs : Int) := by omega
      rw [if_pos below]
      generalize value.natAbs = magnitude at sign
      subst sign
      rw [Int.cast_neg, neg_mul, neg_inj]
      norm_cast
    · have sign : value = value.natAbs := by omega
      rw [if_neg (Int.not_lt.2 above)]
      generalize value.natAbs = magnitude at sign
      subst sign
      norm_cast

end Binary64

end BehaviorTree
