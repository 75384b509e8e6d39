import BehaviorTree.Engine.Context
import BehaviorTree.Proofs.Blackboard.Access
import BehaviorTree.Proofs.Blackboard.Slots

/-!
# Outputs

An output goes to the nearest definition of its variable, or it defines the variable. In a rooted
scope one of the two is possible, and afterwards the scope reads what was put out.
-/

namespace BehaviorTree

namespace Blackboard

variable {blackboard after : Blackboard} {id owner : ScopeId} {name : String} {scope : Scope}
  {entry previous : Entry} {fuel : Nat}

/-- Other variables in a scope change what its handle is good for, and no other handle. -/
theorem scope?_setBindings (found : blackboard.scope? id = some scope)
    (bindings : Table String Entry) (other : ScopeId) :
    (blackboard.setBindings id bindings).scope? other =
      if other = id then some ⟨scope.parent, bindings⟩ else blackboard.scope? other := by
  rw [(replaces_setBindings found bindings).scope?_eq]
  by_cases place : other.slot = id.slot
  · by_cases same : other = id
    · simp [same]
    · have stale : id.generation ≠ other.generation := by
        intro equal
        apply same
        cases other
        cases id
        simp_all
      simp [place, same, stale, scope?, scope?_eq_some_iff.1 found]
  · have different : other ≠ id := fun same => place (by rw [same])
    simp [place, different]

theorem length_slots_setBindings (bindings : Table String Entry) :
    (blackboard.setBindings id bindings).slots.length = blackboard.slots.length := by
  unfold setBindings setSlot
  split <;> simp

theorem findDefinition_holds (located : blackboard.findDefinition name fuel id =
    .ok (owner, previous)) :
    ∃ scope, blackboard.scope? owner = some scope ∧ scope.bindings.get? name = some previous := by
  induction fuel generalizing id with
  | zero => cases located
  | succ fuel ih =>
    simp only [findDefinition] at located
    split at located
    · cases located
    · rename_i scope found
      split at located
      · rename_i held
        cases located
        exact ⟨scope, found, held⟩
      · exact ih located
      · cases located

/-- A variable that is written where it was found is found there, with what was written. -/
theorem findDefinition_setBindings (found : blackboard.scope? owner = some scope)
    (located : blackboard.findDefinition name fuel id = .ok (owner, previous)) (entry : Entry) :
    (blackboard.setBindings owner (scope.bindings.insert name entry)).findDefinition name fuel id =
      .ok (owner, entry) := by
  rcases findDefinition_holds located with ⟨same, foundToo, held⟩
  rw [found, Option.some.injEq] at foundToo
  subst foundToo
  induction fuel generalizing id with
  | zero => cases located
  | succ fuel ih =>
    simp only [findDefinition, scope?_setBindings found] at located ⊢
    by_cases here : id = owner
    · simp [here, Table.get?_insert_self]
    · rw [if_neg here]
      split at located
      · cases located
      · rename_i inner _
        split at located
        · cases located
          exact absurd rfl here
        · exact ih located
        · cases located

theorem entry_write (written : blackboard.write id name entry = .ok after) :
    after.entry id name = .ok entry := by
  unfold write definition at written
  split at written
  · rename_i owner previous located
    split at written
    · rename_i scope found
      cases written
      simp [Blackboard.entry, definition, length_slots_setBindings,
        findDefinition_setBindings found located entry, Except.map]
    · cases written
  · cases written
  · cases written

theorem entry_define (defined : blackboard.define id name entry = .ok after) :
    after.entry id name = .ok entry := by
  unfold define at defined
  split at defined
  · cases defined
  · rename_i scope found
    split at defined
    · cases defined
    · cases defined
      have inRange := (List.getElem?_eq_some_iff.1 (scope?_eq_some_iff.1 found)).1
      rcases Nat.exists_eq_succ_of_ne_zero (Nat.ne_of_gt (Nat.zero_lt_of_lt inRange)) with
        ⟨fuel, length⟩
      simp [Blackboard.entry, definition, length_slots_setBindings, length, findDefinition,
        scope?_setBindings found, Table.get?_insert_self, Except.map]

/-- What was put out is found. -/
theorem entry_outputTo (written : outputTo blackboard id name entry = .ok after) :
    after.entry id name = .ok entry := by
  unfold outputTo at written
  split at written
  · exact entry_define written
  · exact entry_write written

theorem get?_outputTo (written : outputTo blackboard id name entry = .ok after) :
    after.get? id name = some entry.value := by
  rw [get?, entry_outputTo written]

/-- An output of a rooted scope always finds its variable or defines it. -/
theorem exists_outputTo (rooted : blackboard.Rooted id) (name : String) (entry : Entry) :
    ∃ after, outputTo blackboard id name entry = .ok after := by
  unfold outputTo
  cases written : blackboard.write id name entry with
  | ok after => exact ⟨after, rfl⟩
  | error error =>
    rw [write_error_of_rooted rooted written]
    have alive := rooted.alive
    rw [isAlive, Option.isSome_iff_exists] at alive
    rcases alive with ⟨scope, found⟩
    have inRange := (List.getElem?_eq_some_iff.1 (scope?_eq_some_iff.1 found)).1
    rcases Nat.exists_eq_succ_of_ne_zero (Nat.ne_of_gt (Nat.zero_lt_of_lt inRange)) with
      ⟨fuel, length⟩
    -- A variable of the scope itself would have been written.
    have undefined : scope.bindings.contains name = false := by
      by_contra defined
      rw [Bool.not_eq_false, Table.contains_iff] at defined
      rcases defined with ⟨previous, held⟩
      simp [write, definition, length, findDefinition, found, held] at written
    simp [define, found, undefined]

end Blackboard

end BehaviorTree
