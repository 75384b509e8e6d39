import BehaviorTree.Number.Binary64
import Mathlib.Tactic.Common

/-!
# Rounding to the nearest integer

A quotient is rounded to one of the two integers around it. A greater quotient is never rounded to
a smaller integer, and an integer is rounded to itself.
-/

namespace BehaviorTree

/-- The quotient is nearer to the integer above it, or that one is the even neighbour. -/
def RoundsUp (numerator denominator : Nat) : Prop :=
  denominator < 2 * (numerator % denominator) ∨
    denominator = 2 * (numerator % denominator) ∧ numerator / denominator % 2 = 1

theorem roundHalfEven_of_roundsUp {numerator denominator : Nat}
    (up : RoundsUp numerator denominator) :
    roundHalfEven numerator denominator = numerator / denominator + 1 := by
  simp only [RoundsUp] at up
  simp only [roundHalfEven]
  repeat' split
  all_goals omega

theorem roundHalfEven_of_not_roundsUp {numerator denominator : Nat}
    (down : ¬ RoundsUp numerator denominator) :
    roundHalfEven numerator denominator = numerator / denominator := by
  simp only [RoundsUp] at down
  simp only [roundHalfEven]
  repeat' split
  all_goals omega

theorem le_roundHalfEven (numerator denominator : Nat) :
    numerator / denominator ≤ roundHalfEven numerator denominator := by
  by_cases up : RoundsUp numerator denominator
  · simp [roundHalfEven_of_roundsUp up]
  · simp [roundHalfEven_of_not_roundsUp up]

theorem roundHalfEven_le (numerator denominator : Nat) :
    roundHalfEven numerator denominator ≤ numerator / denominator + 1 := by
  by_cases up : RoundsUp numerator denominator
  · simp [roundHalfEven_of_roundsUp up]
  · simp [roundHalfEven_of_not_roundsUp up]

theorem roundHalfEven_mul {denominator : Nat} (positive : 0 < denominator) (quotient : Nat) :
    roundHalfEven (quotient * denominator) denominator = quotient := by
  have down : ¬ RoundsUp (quotient * denominator) denominator := by
    simp [RoundsUp]
    omega
  simp [roundHalfEven_of_not_roundsUp down, positive]

theorem roundHalfEven_one (numerator : Nat) : roundHalfEven numerator 1 = numerator := by
  simpa using roundHalfEven_mul Nat.one_pos numerator

/-- Between the same two integers, a quotient is rounded up if a smaller one is. -/
theorem RoundsUp.mono {smaller greater denominator : Nat} (up : RoundsUp smaller denominator)
    (le : smaller ≤ greater) (same : smaller / denominator = greater / denominator) :
    RoundsUp greater denominator := by
  have first := Nat.div_add_mod smaller denominator
  have second := Nat.div_add_mod greater denominator
  simp only [RoundsUp, same] at up first ⊢
  omega

theorem roundHalfEven_mono {smaller greater : Nat} (denominator : Nat) (le : smaller ≤ greater) :
    roundHalfEven smaller denominator ≤ roundHalfEven greater denominator := by
  have upper := roundHalfEven_le smaller denominator
  have lower := le_roundHalfEven greater denominator
  rcases Nat.lt_or_eq_of_le (Nat.div_le_div_right (c := denominator) le) with apart | same
  · omega
  · by_cases up : RoundsUp smaller denominator
    · simp [roundHalfEven_of_roundsUp up, roundHalfEven_of_roundsUp (up.mono le same), same]
    · simpa [roundHalfEven_of_not_roundsUp up, same] using lower

end BehaviorTree
