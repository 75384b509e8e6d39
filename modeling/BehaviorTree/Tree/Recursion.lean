import BehaviorTree.Source.Basic
import BehaviorTree.Tree.Error

/-!
# Recursion between definitions

A definition refers to another one by a node of that name. A mission in which a definition leads
back to itself would never stop expanding, so such missions are refused. References are followed
depth first; a definition whose references were all followed is not followed again.
-/

namespace BehaviorTree

mutual

/-- The definitions that a node and the nodes in it refer to, in the order in which they are
written. A node of a kind refers to none. -/
def NodeSource.references : NodeSource → List String
  | .node kind _ _ children =>
    let deeper := referencesOfAll children
    match NodeKind.ofName? kind with
    | some _ => deeper
    | none => kind :: deeper

def NodeSource.referencesOfAll : List NodeSource → List String
  | [] => []
  | source :: sources => references source ++ referencesOfAll sources

end

namespace MissionSource

def tree? (mission : MissionSource) (name : String) : Option TreeSource :=
  mission.trees.find? (·.name = name)

def referencesOf (mission : MissionSource) (name : String) : List String :=
  match mission.tree? name with
  | some tree => tree.root.references
  | none => []

/-- Follows references from the definition at the end of a path, given in reverse. A path has at
most `depth` further definitions, and those of `verified` are known not to lead back. -/
def followReferences (mission : MissionSource) (depth : Nat) (path verified : List String) :
    (targets : List String) → Except LoadError (List String)
  | [] => .ok verified
  | target :: targets =>
    if target ∈ path then .error (.infiniteRecursion target)
    else if target ∈ verified then followReferences mission depth path verified targets
    else
      match depth with
      | 0 => .error (.infiniteRecursion target)
      | depth + 1 =>
        match followReferences mission depth (target :: path) verified
          (mission.referencesOf target) with
        | .ok verified => followReferences mission (depth + 1) path (target :: verified) targets
        | .error error => .error error
termination_by targets => (depth, targets.length)

def checkRecursion (mission : MissionSource) : Except LoadError (List String) :=
  mission.trees.foldlM
    (fun verified tree =>
      (mission.followReferences mission.trees.length [tree.name] verified
        tree.root.references).map (tree.name :: ·))
    []

end MissionSource

end BehaviorTree
