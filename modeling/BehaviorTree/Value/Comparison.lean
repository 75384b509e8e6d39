import BehaviorTree.Value.Basic

/-!
# Comparisons of values

Integers are compared exactly and texts by code points. Two numbers of which one is a double are
compared as doubles. Truth values and messages are only equal or different, and values of other
kinds are not comparable.
-/

namespace BehaviorTree

/-- What a condition asks of two values. -/
inductive Comparison where
  | equal
  | different
  | less
  | greater
  | atMost
  | atLeast
deriving DecidableEq, Inhabited

namespace Comparison

def ofText? : String → Option Comparison
  | "=" | "==" | "eq" => some equal
  | "!=" | "≠" | "ne" => some different
  | "<" | "lt" => some less
  | ">" | "gt" => some greater
  | "<=" | "≤" | "le" => some atMost
  | ">=" | "≥" | "ge" => some atLeast
  | _ => none

/-- The comparison that a mathematical symbol of ASCII characters stands for. -/
def ofSymbol? : String → Option Comparison
  | "=" => some equal
  | "!=" => some different
  | "<" => some less
  | ">" => some greater
  | "<=" => some atMost
  | ">=" => some atLeast
  | _ => none

/-- Whether an order of two values is what the comparison asks for. -/
def holds (comparison : Comparison) (order : Ordering) : Bool :=
  match comparison with
  | equal => order == .eq
  | different => order != .eq
  | less => order == .lt
  | greater => order == .gt
  | atMost => order != .gt
  | atLeast => order != .lt

/-- The answer for values that are only equal or different. -/
def ofEquality? (comparison : Comparison) (same : Bool) : Option Bool :=
  match comparison with
  | equal => some same
  | different => some !same
  | _ => none

end Comparison

/-- Whether two values compare as asked, unless they are not comparable. -/
def Value.compare? (left : Value) (comparison : Comparison) (right : Value) : Option Bool :=
  match left, right with
  | .int left, .int right => some (comparison.holds (compare left.toInt right.toInt))
  | .string left, .string right => some (comparison.holds (compare left right))
  | .bool left, .bool right => comparison.ofEquality? (left == right)
  | .message left, .message right => comparison.ofEquality? (left.same right)
  | left, right => do
    let left ← left.asNumber?
    let right ← right.asNumber?
    let order ← left.compare? right
    return comparison.holds order

end BehaviorTree
