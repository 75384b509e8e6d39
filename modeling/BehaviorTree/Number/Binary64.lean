/-!
# Double-precision numbers

A double is kept as its 64 interchange bits, so that every operation on it is integer arithmetic.
A finite double is `significand * 2 ^ exponent`, and all rounding goes through `ofRatio`, which
takes an exact quotient of natural numbers to the nearest double, a tie to the even significand.
-/

namespace BehaviorTree

/-- The quotient rounded to the nearest integer, a tie to the even neighbour. -/
def roundHalfEven (numerator denominator : Nat) : Nat :=
  let quotient := numerator / denominator
  let doubled := 2 * (numerator % denominator)
  if doubled < denominator then quotient
  else if denominator < doubled then quotient + 1
  else if quotient % 2 = 0 then quotient
  else quotient + 1

/-- A double-precision number, given by its interchange bits. -/
structure Binary64 where
  /-- Sign, eleven exponent bits and fifty-two fraction bits, from the most significant down. -/
  bits : UInt64
deriving DecidableEq, Inhabited

namespace Binary64

def magnitude (number : Binary64) : Nat :=
  number.bits.toNat % 0x8000000000000000

def isNegative (number : Binary64) : Bool :=
  0x8000000000000000 ≤ number.bits.toNat

/-- The magnitude bits of infinity; a larger magnitude is not a number. -/
def infinityMagnitude : Nat := 0x7FF0000000000000

def ofMagnitude (negative : Bool) (magnitude : Nat) : Binary64 :=
  ⟨UInt64.ofNat ((if negative then 0x8000000000000000 else 0) + magnitude)⟩

def notANumber : Binary64 := ⟨0x7FF8000000000000⟩

def infinity (negative : Bool) : Binary64 :=
  ofMagnitude negative infinityMagnitude

def zero (negative : Bool) : Binary64 :=
  ofMagnitude negative 0

def isNaN (number : Binary64) : Bool :=
  infinityMagnitude < number.magnitude

/-- Whether the double is neither infinite nor not a number. -/
def isFinite (number : Binary64) : Bool :=
  number.magnitude < infinityMagnitude

def significand (number : Binary64) : Nat :=
  if number.magnitude < 0x10000000000000 then number.magnitude
  else 0x10000000000000 + number.magnitude % 0x10000000000000

/-- The power of two that the significand of a finite double is scaled by. -/
def exponent (number : Binary64) : Int :=
  if number.magnitude < 0x10000000000000 then -1074
  else (number.magnitude / 0x10000000000000 : Nat) - 1075

def numerator (number : Binary64) : Nat :=
  number.significand <<< number.exponent.toNat

def denominator (number : Binary64) : Nat :=
  1 <<< (-number.exponent).toNat

/-- The double nearest to an exact quotient, a tie going to the even significand. -/
def ofRatio (negative : Bool) (numerator denominator : Nat) : Binary64 :=
  if numerator = 0 then zero negative
  else
    let scaledNumerator (power : Int) := numerator <<< (-power).toNat
    let scaledDenominator (power : Int) := denominator <<< power.toNat
    let lowest := max ((numerator.log2 : Int) - denominator.log2 - 53) (-1074)
    let power :=
      if 0x20000000000000 ≤ scaledNumerator lowest / scaledDenominator lowest then lowest + 1
      else lowest
    let rounded := roundHalfEven (scaledNumerator power) (scaledDenominator power)
    ofMagnitude negative (min infinityMagnitude ((power + 1074).toNat * 0x10000000000000 + rounded))

def ofInt (number : Int) : Binary64 :=
  ofRatio (number < 0) number.natAbs 1

/-- The double nearest to `digits * 10 ^ power`. Exponents that are out of range whatever the
digits round are answered without computing the power. -/
def ofDecimal (negative : Bool) (digits : Nat) (power : Int) : Binary64 :=
  let places : Int := (Nat.toDigits 10 digits).length
  if digits = 0 then zero negative
  else if 310 ≤ places + power then infinity negative
  else if places + power ≤ -325 then zero negative
  else ofRatio negative (digits * Nat.pow 10 power.toNat) (Nat.pow 10 (-power).toNat)

def negate (number : Binary64) : Binary64 :=
  ofMagnitude (!number.isNegative) number.magnitude

/-- The rounded sum of two finite doubles that are not negative. -/
def addMagnitudes (left right : Binary64) : Binary64 :=
  ofRatio false
    (left.numerator * right.denominator + right.numerator * left.denominator)
    (left.denominator * right.denominator)

/-- The rounded product of two finite doubles that are not negative. -/
def mulMagnitudes (left right : Binary64) : Binary64 :=
  ofRatio false (left.numerator * right.numerator) (left.denominator * right.denominator)

/-- The rounded quotient of two finite doubles that are not negative, the divisor not zero. -/
def divMagnitudes (left right : Binary64) : Binary64 :=
  ofRatio false (left.numerator * right.denominator) (left.denominator * right.numerator)

/-- An integer that orders doubles as their values do; both zeros have the key zero. -/
def orderKey (number : Binary64) : Int :=
  if number.isNegative then -(number.magnitude : Int) else number.magnitude

/-- The order of two doubles, which exists unless one of them is not a number. -/
def compare? (left right : Binary64) : Option Ordering :=
  if left.isNaN || right.isNaN then none
  else some (compare left.orderKey right.orderKey)

/-- Equality of values: both zeros are equal, and nothing equals what is not a number. -/
def equal (left right : Binary64) : Bool :=
  left.compare? right == some .eq

end Binary64

end BehaviorTree
