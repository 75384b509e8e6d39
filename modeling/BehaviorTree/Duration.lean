import BehaviorTree.Number.Decimal

/-!
# Durations

A duration is a whole number of nanoseconds, and its whole seconds fit in 64 bits. Sums that do
not fit do not exist, and neither do durations of numbers of seconds that do not fit.
-/

namespace BehaviorTree

def nanosecondsPerSecond : Nat := 1000000000

def durationLimit : Nat := 0x10000000000000000 * nanosecondsPerSecond

/-- A length of time, or a time since the start of a clock. -/
structure Duration where
  nanoseconds : Nat
  inRange : nanoseconds < durationLimit
deriving DecidableEq

namespace Duration

/-- The duration of that many nanoseconds, if there is one. -/
def ofNanoseconds? (nanoseconds : Nat) : Option Duration :=
  if inRange : nanoseconds < durationLimit then some ⟨nanoseconds, inRange⟩ else none

def zero : Duration := ⟨0, by decide⟩

instance : Inhabited Duration := ⟨zero⟩

def ofMilliseconds (milliseconds : UInt32) : Duration :=
  ⟨milliseconds.toNat * 1000000, by
    have bound := milliseconds.toNat_lt
    simp only [durationLimit, nanosecondsPerSecond]
    omega⟩

def add? (left right : Duration) : Option Duration :=
  ofNanoseconds? (left.nanoseconds + right.nanoseconds)

/-- The time from one duration to another, or zero if the other is not later. -/
def since (later earlier : Duration) : Duration :=
  ⟨later.nanoseconds - earlier.nanoseconds, Nat.lt_of_le_of_lt (Nat.sub_le ..) later.inRange⟩

instance : LE Duration := ⟨fun left right => left.nanoseconds ≤ right.nanoseconds⟩
instance : LT Duration := ⟨fun left right => left.nanoseconds < right.nanoseconds⟩

instance (left right : Duration) : Decidable (left ≤ right) :=
  inferInstanceAs (Decidable (left.nanoseconds ≤ right.nanoseconds))

instance (left right : Duration) : Decidable (left < right) :=
  inferInstanceAs (Decidable (left.nanoseconds < right.nanoseconds))

/-- The duration nearest to a number of seconds that is finite and not negative, a tie going to
the even nanosecond, if it fits. -/
def ofSeconds? (seconds : Binary64) : Option Duration :=
  ofNanoseconds? (roundHalfEven (seconds.numerator * nanosecondsPerSecond) seconds.denominator)

/-- The length in seconds. Whole seconds and nanoseconds are rounded before they are added. -/
def toSeconds (duration : Duration) : Binary64 :=
  Binary64.addMagnitudes
    (Binary64.ofInt (duration.nanoseconds / nanosecondsPerSecond : Nat))
    (Binary64.divMagnitudes
      (Binary64.ofInt (duration.nanoseconds % nanosecondsPerSecond : Nat))
      (Binary64.ofInt nanosecondsPerSecond))

/-- The duration as a number of units, without zeros at the end of the fraction. -/
def inUnit (duration : Duration) (places : Nat) (unit : String) : String :=
  let whole := duration.nanoseconds / Nat.pow 10 places
  let digits := (toString (duration.nanoseconds % Nat.pow 10 places)).toList
  let padded := List.replicate (places - digits.length) '0' ++ digits
  let fraction := (padded.reverse.dropWhile (· = '0')).reverse
  let ending := if fraction.isEmpty then "" else "." ++ String.ofList fraction
  toString whole ++ ending ++ unit

/-- The duration in the largest unit of which it holds at least one. -/
def text (duration : Duration) : String :=
  if 1000000000 ≤ duration.nanoseconds then duration.inUnit 9 "s"
  else if 1000000 ≤ duration.nanoseconds then duration.inUnit 6 "ms"
  else if 1000 ≤ duration.nanoseconds then duration.inUnit 3 "µs"
  else duration.inUnit 0 "ns"

end Duration

end BehaviorTree
