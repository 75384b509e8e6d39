import BehaviorTree.Engine.Context

/-!
# Halting

A node that is over, or whose parent gives it up, is halted: its run state and those of everything
in it are forgotten, its requests are given up and its scopes are destroyed. What a reference
invoked is found by the frame of the invocation.
-/

namespace BehaviorTree

variable {σ : Type} [RemoteService σ]

/-- Forgets the run state of a node and frees what it holds. -/
def discard (key : RunKey) : Tick σ Unit :=
  modify fun context =>
    match context.runs.get? key with
    | some state => { context with runs := context.runs.erase key }.release state
    | none => context

/-- Halts a node and everything in it, which is nested less than `depth` levels deep. -/
def haltWithin (tree : Tree) : (depth : Nat) → RunKey → Tick σ Unit
  | 0, _ => throw (.crash .unboundedRecursion)
  | depth + 1, key => do
    let some node := tree.node? key.node | abortTick (.invalidNode key.node)
    discard key
    match node.configuration with
    | some (.reference target) =>
      match (← get).runs.frame? key with
      | none => return
      | some frame =>
        let some root := tree.lookup target | abortTick (.missingTree target)
        haltWithin tree depth ⟨frame, root⟩
    | _ => node.children.forM fun child => haltWithin tree depth (key.sibling child)

/-- How deep nodes can be nested in a tree in which no definition runs itself: on a way down
through children and references no node is met twice. -/
def Tree.depthLimit (tree : Tree) : Nat := tree.nodes.size + 1

def halt (tree : Tree) (key : RunKey) : Tick σ Unit :=
  haltWithin tree tree.depthLimit key

end BehaviorTree
