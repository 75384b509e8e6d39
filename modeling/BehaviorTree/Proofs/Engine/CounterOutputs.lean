import BehaviorTree.Proofs.Engine.Counting

/-!
# Counters that are put out

A repeater puts out how often its child has succeeded when that changes, and in its first turn that
nothing was counted. A retrier only puts out how often its child has failed when that changes. So as
long as nobody else changes the variable, that of a repeater always tells the number, while that of
a retrier tells it once the child has failed, and until then it holds what it held before.
-/

namespace BehaviorTree

variable {σ : Type}

/-- What a variable holds where the engine is. -/
def Context.held (context : Context σ) (name : String) : Option Value :=
  context.blackboard.get? context.scope name

variable [RemoteService σ] {key : RunKey} {node : Node} {child : NodeIndex}
  {again stop reported status : Status} {enough : Prop} {count : Nat} {name : String}
  {inner last : Context σ} {turn : PastTurn σ key} {turns : List (PastTurn σ key)}

/-- Nobody but the node changes what a variable holds, neither the child when it is ticked nor
anyone between the turns. The latest turn is in front. -/
structure LeftAlone (name : String) (turns : List (PastTurn σ key)) : Prop where
  within : ∀ turn ∈ turns, turn.exit.held name = turn.entry.held name
  between : turns.IsChain fun later earlier => later.before.held name = earlier.after.held name

theorem LeftAlone.tail (alone : LeftAlone name (turn :: turns)) : LeftAlone name turns :=
  ⟨fun turn listed => alone.within turn (List.mem_cons_of_mem _ listed),
    alone.between.of_cons⟩

omit [RemoteService σ] in
/-- A node that goes on puts out the number if the child was counted, and nothing otherwise. -/
theorem Context.Counts.held_eq
    (counts : inner.Counts key node again stop enough count reported status last)
    (differ : again ≠ .running ∧ stop ≠ .running ∧ again ≠ stop) (isRunning : status = .running)
    (mapped : node.outputs.get? node.kind.counterPort = some name) :
    last.held name =
      if reported = again then some (.int (.ofNat (count + 1))) else inner.held name := by
  cases counts with
  | waits => rw [if_neg differ.1.symm]; rfl
  | stopped => exact absurd isRunning differ.2.1
  | reached => exact absurd isRunning differ.1
  | again more published =>
    rw [if_pos rfl]
    exact published name mapped

namespace PastTurn.CountsOn

variable (countsOn : turn.CountsOn again stop enough count child reported last)
  (mapped : turn.node.outputs.get? turn.node.kind.counterPort = some name)
include countsOn mapped

/-- After a turn the variable tells the number if the child was counted in it, and otherwise it
holds what it held when the child was ticked. -/
theorem held_after (differ : again ≠ .running ∧ stop ≠ .running ∧ again ≠ stop)
    (running : turn.status = .running) (within : turn.exit.held name = turn.entry.held name) :
    turn.after.held name =
      if reported = again then some (.int (.ofNat (count + 1))) else turn.entry.held name := by
  rcases countsOn.closes.of_running running with ⟨-, blackboard, scope⟩
  rw [Context.held, blackboard, scope, ← within]
  exact countsOn.counts.held_eq differ running mapped

/-- When a repeater ticks its child, the variable tells the number if it told it before. In the
first turn it always does. -/
theorem held_entry (kind : turn.node.kind = .repeater)
    (counted : turn.before.runs.Counted key count)
    (told : turn.before.runs.get? key ≠ none →
      turn.before.held name = some (.int (.ofNat count))) :
    turn.entry.held name = some (.int (.ofNat count)) := by
  rcases countsOn.announces.elsewhere with ⟨blackboard, entered⟩
  have same : turn.entry.scope = turn.before.scope := by rw [entered]
  rcases counted with ⟨fresh, rfl⟩ | remembered
  · rw [Context.held, same]
    exact countsOn.announces.fresh kind fresh name mapped
  · have later : turn.before.runs.get? key ≠ none := by simp [remembered]
    rw [countsOn.announces.later later]
    exact told later

end PastTurn.CountsOn

section Turns

variable (activation : Activation (turn :: turns)) (running : turn.status = .running)
  (within : turn.exit.held name = turn.entry.held name)
  (mapped : turn.node.outputs.get? turn.node.kind.counterPort = some name)
include activation running within mapped

/-- A turn of a repeater keeps that the variable tells the number, and the first one achieves it. -/
theorem Activation.repeater_keeps_telling (kind : turn.node.kind = .repeater)
    (told : turn.before.runs.get? key ≠ none →
      turn.before.held name = some (.int (.ofNat (countOf .success turns)))) :
    turn.after.held name = some (.int (.ofNat (countOf .success (turn :: turns)))) := by
  have restarts : turn.node.kind.Restarts .success .failure := kind ▸ .repeater
  have counted := activation.counted restarts
  rcases PastTurn.exists_countsOn_of_running restarts running counted with
    ⟨_, child, reported, last, countsOn⟩
  rw [countsOn.held_after mapped restarts.differ running within,
    countsOn.held_entry mapped kind counted told, countOf_cons_of_ticks countsOn.ticks]
  split <;> rfl

/-- A turn of a retrier tells the number if the child fails, and otherwise it tells nothing. -/
theorem Activation.retrier_tells_change (kind : turn.node.kind = .retrier) :
    turn.after.held name =
      if countOf .failure (turn :: turns) = countOf .failure turns then turn.before.held name
      else some (.int (.ofNat (countOf .failure (turn :: turns)))) := by
  have restarts : turn.node.kind.Restarts .failure .success := kind ▸ .retrier
  have counted := activation.counted restarts
  rcases PastTurn.exists_countsOn_of_running restarts running counted with
    ⟨_, child, reported, last, countsOn⟩
  have isEntry : turn.entry = turn.before := by simp only [PastTurn.entry, kind]
  rw [countsOn.held_after mapped restarts.differ running within, isEntry,
    countOf_cons_of_ticks countsOn.ticks]
  by_cases failed : reported = .failure <;> simp [failed]

end Turns

section Activations

variable (activation : Activation (turn :: turns)) (running : turn.status = .running)
  (alone : LeftAlone name (turn :: turns))
  (mapped : turn.node.outputs.get? turn.node.kind.counterPort = some name)
include activation running alone mapped

/-- A repeater that is running tells how often its child has succeeded. -/
theorem Activation.repeater_tells (kind : turn.node.kind = .repeater) :
    turn.after.held name = some (.int (.ofNat (countOf .success (turn :: turns)))) := by
  have within := alone.within turn List.mem_cons_self
  refine activation.repeater_keeps_telling running within mapped kind ?_
  induction turns generalizing turn with
  | nil =>
    cases activation with
    | begins fresh => exact fun later => absurd fresh later
  | cons earlier turns ih =>
    cases activation with
    | goesOn activation runningBefore leaves =>
      have same := leaves.node_eq
      have withinBefore := alone.tail.within earlier List.mem_cons_self
      have told := activation.repeater_keeps_telling runningBefore withinBefore (same ▸ mapped)
        (same ▸ kind) (ih activation runningBefore alone.tail (same ▸ mapped) (same ▸ kind)
          withinBefore)
      exact fun _ => (List.isChain_cons_cons.1 alone.between).1.trans told

/-- A retrier that is running tells how often its child has failed, once it has failed. Until then
the variable holds what it held when the activation began. -/
theorem Activation.retrier_tells (kind : turn.node.kind = .retrier) :
    turn.after.held name =
      if countOf .failure (turn :: turns) = 0 then
        ((turn :: turns).getLast (List.cons_ne_nil _ _)).before.held name
      else some (.int (.ofNat (countOf .failure (turn :: turns)))) := by
  have step := activation.retrier_tells_change running (alone.within turn List.mem_cons_self)
    mapped kind
  induction turns generalizing turn with
  | nil => exact step
  | cons earlier turns ih =>
    cases activation with
    | goesOn activation runningBefore leaves =>
      have same := leaves.node_eq
      have withinBefore := alone.tail.within earlier List.mem_cons_self
      have told := ih activation runningBefore alone.tail (same ▸ mapped) (same ▸ kind)
        (activation.retrier_tells_change runningBefore withinBefore (same ▸ mapped) (same ▸ kind))
      have grows := countOf_le_cons .failure turn (earlier :: turns)
      rw [step, (List.isChain_cons_cons.1 alone.between).1, told, List.getLast_cons_cons]
      split
      · rename_i unchanged
        rw [unchanged]
      · rename_i more
        rw [if_neg (by omega)]

end Activations

end BehaviorTree
