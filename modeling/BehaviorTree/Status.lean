/-!
# Statuses

What a node reports when it is ticked.
-/

namespace BehaviorTree

/-- The outcome of one tick of a node. -/
inductive Status where
  | success
  | failure
  | running
deriving DecidableEq, Inhabited

namespace Status

def text : Status → String
  | success => "success"
  | failure => "failure"
  | running => "running"

def ofText? (text : String) : Option Status :=
  match String.ofList (text.toList.map Char.toLower) with
  | "success" => some success
  | "fail" => some failure
  | "failure" => some failure
  | "running" => some running
  | _ => none

end Status

end BehaviorTree
