/-!
# Failures

An operation fails with an error that its caller may handle, or it crashes. A crash is a defect
that no caller handles: the arithmetic or the recursion behind it has no result.
-/

namespace BehaviorTree

/-- Why an operation has no result that any caller could handle. -/
inductive Crash where
  /-- A length of time does not fit into a duration. -/
  | durationOverflow
  | unboundedRecursion
  /-- Children from a position to an earlier one are asked for. -/
  | childRange
  | handleOverflow
deriving DecidableEq, Inhabited

/-- Why an operation has no result. -/
inductive Failure (ε : Type) where
  | error (cause : ε)
  | crash (cause : Crash)

namespace Failure

def map {ε δ : Type} (change : ε → δ) : Failure ε → Failure δ
  | error cause => error (change cause)
  | crash cause => crash cause

/-- The result, or the crash for which there is none. -/
def orCrash {ε α : Type} (cause : Crash) : Option α → Except (Failure ε) α
  | some result => .ok result
  | none => .error (crash cause)

end Failure

end BehaviorTree
