import BehaviorTree.Proofs.Blackboard.Access
import BehaviorTree.Proofs.Table

/-!
# Writes of variables

A write leaves the scopes as they are, and it stamps what it writes with the mission time. So a
variable of the root that holds something else than before was written, and says when. Creating and
destroying scopes inside of the root does not touch its variables.
-/

namespace BehaviorTree

namespace Blackboard

def rootBinding? (blackboard : Blackboard) (name : String) : Option Entry :=
  (blackboard.scope? .root).bind fun scope => scope.bindings.get? name

/-- Variables of the root hold what they held before, or something that was written at a time. -/
def Stamped (now : Duration) (before after : Blackboard) : Prop :=
  ∀ name, after.rootBinding? name = before.rootBinding? name ∨
    ∃ entry, after.rootBinding? name = some entry ∧ entry.writtenAt = now

/-- Variables are written at a time, and nothing else changes. -/
structure Writes (now : Duration) (before after : Blackboard) : Prop
    extends SameScopes before after where
  stamped : Stamped now before after

variable {now : Duration} {blackboard middle after : Blackboard} {id other : ScopeId}
  {name : String} {entry : Entry}

theorem Stamped.of_eq (same : ∀ name, after.rootBinding? name = blackboard.rootBinding? name) :
    Stamped now blackboard after :=
  fun name => Or.inl (same name)

theorem Stamped.trans (first : Stamped now blackboard middle) (second : Stamped now middle after) :
    Stamped now blackboard after := by
  intro name
  rcases second name with same | stamped
  · rw [same]
    exact first name
  · exact Or.inr stamped

theorem Writes.refl (now : Duration) (blackboard : Blackboard) : Writes now blackboard blackboard :=
  ⟨.refl blackboard, .of_eq fun _ => rfl⟩

theorem Writes.trans (first : Writes now blackboard middle) (second : Writes now middle after) :
    Writes now blackboard after :=
  ⟨first.toSameScopes.trans second.toSameScopes, first.stamped.trans second.stamped⟩

/-- A slot that looks the same holds the same scopes. -/
theorem scope?_congr (same : after.slots[id.slot]? = blackboard.slots[id.slot]?) :
    after.scope? id = blackboard.scope? id := by
  unfold scope?
  rw [same]

theorem rootBinding?_congr (same : after.slots[0]? = blackboard.slots[0]?) (name : String) :
    after.rootBinding? name = blackboard.rootBinding? name := by
  have root : after.scope? .root = blackboard.scope? .root := scope?_congr same
  unfold rootBinding?
  rw [root]

/-- A variable of the root is looked up in the root. -/
theorem Arena.definition_root (arena : blackboard.Arena) (name : String) :
    blackboard.definition .root name =
      match blackboard.rootBinding? name with
      | some entry => .ok (.root, entry)
      | none => .error (.notFound name) := by
  rcases arena.root with ⟨bindings, slot⟩
  have found : blackboard.scope? .root = some ⟨none, bindings⟩ := scope?_eq_some_iff.2 slot
  have positive : blackboard.slots.length ≠ 0 := by
    intro empty
    rw [List.length_eq_zero_iff.1 empty] at slot
    cases slot
  rcases Nat.exists_eq_succ_of_ne_zero positive with ⟨fuel, size⟩
  unfold definition rootBinding?
  rw [size, findDefinition]
  simp only [found, Option.bind_some]
  cases bindings.get? name <;> rfl

theorem Arena.entry_root_iff (arena : blackboard.Arena) :
    blackboard.entry .root name = .ok entry ↔ blackboard.rootBinding? name = some entry := by
  unfold Blackboard.entry
  rw [arena.definition_root]
  cases blackboard.rootBinding? name <;> simp [Except.map]

theorem rootBinding?_setBindings_root {scope : Scope} (found : blackboard.scope? .root = some scope)
    (bindings : Table String Entry) (name : String) :
    (blackboard.setBindings .root bindings).rootBinding? name = bindings.get? name := by
  have slot := scope?_eq_some_iff.1 found
  have inRange : 0 < blackboard.slots.length := (List.getElem?_eq_some_iff.1 slot).1
  unfold rootBinding? setBindings
  rw [found]
  simp [scope?, setSlot, ScopeId.root, inRange]

/-- A handle with another generation is not good for a scope in the slot of the root. -/
theorem scope?_root_eq_none {scope : Scope} (found : blackboard.scope? id = some scope)
    (first : id.slot = 0) (other : id ≠ .root) : blackboard.scope? .root = none := by
  have slot := scope?_eq_some_iff.1 found
  rw [first] at slot
  rcases id with ⟨index, generation⟩
  have stale : generation ≠ 0 := by
    rintro rfl
    exact other (by simp only at first; rw [first]; rfl)
  simp [scope?, ScopeId.root, slot, stale]

theorem stamped_setBindings {scope : Scope} (found : blackboard.scope? id = some scope)
    (name : String) (entry : Entry) :
    Stamped entry.writtenAt blackboard
      (blackboard.setBindings id (scope.bindings.insert name entry)) := by
  by_cases isRoot : id = .root
  · subst isRoot
    intro read
    rw [rootBinding?_setBindings_root found]
    by_cases here : read = name
    · subst here
      exact Or.inr ⟨entry, Table.get?_insert_self _ _ _, rfl⟩
    · left
      rw [Table.get?_insert_of_ne here]
      simp [rootBinding?, found]
  · have slot := scope?_eq_some_iff.1 found
    have slots : (blackboard.setBindings id (scope.bindings.insert name entry)).slots =
        blackboard.slots.set id.slot
          ⟨id.generation, some ⟨scope.parent, scope.bindings.insert name entry⟩⟩ := by
      simp [setBindings, found, setSlot]
    apply Stamped.of_eq
    intro read
    by_cases first : id.slot = 0
    · have before := scope?_root_eq_none found first isRoot
      have same : SameScopes blackboard
          (blackboard.setBindings id (scope.bindings.insert name entry)) :=
        sameScopes_setBindings _
      have stays := same.parents .root
      have after : (blackboard.setBindings id (scope.bindings.insert name entry)).scope? .root =
          none := by
        simpa [parent?, before] using stays
      simp [rootBinding?, before, after]
    · apply rootBinding?_congr
      rw [slots, List.getElem?_set_ne first]

theorem writes_define (defined : blackboard.define id name entry = .ok after) :
    Writes entry.writtenAt blackboard after := by
  refine ⟨sameScopes_define defined, ?_⟩
  unfold define at defined
  split at defined
  · cases defined
  · rename_i scope found
    split at defined
    · cases defined
    · cases defined
      exact stamped_setBindings found name entry

theorem writes_write (written : blackboard.write id name entry = .ok after) :
    Writes entry.writtenAt blackboard after := by
  refine ⟨sameScopes_write written, ?_⟩
  unfold write at written
  split at written
  · split at written
    · rename_i scope found
      cases written
      exact stamped_setBindings found name entry
    · cases written
  · cases written
  · cases written

theorem writes_outputTo (written : outputTo blackboard id name entry = .ok after) :
    Writes entry.writtenAt blackboard after := by
  unfold outputTo at written
  split at written
  · exact writes_define written
  · exact writes_write written

/-- A variable of the root that is written holds what was written. -/
theorem Arena.rootBinding?_write (arena : blackboard.Arena)
    (written : blackboard.write .root name entry = .ok after) :
    after.rootBinding? name = some entry := by
  unfold write at written
  rw [arena.definition_root] at written
  cases held : blackboard.rootBinding? name with
  | none =>
    rw [held] at written
    cases written
  | some previous =>
    rw [held] at written
    dsimp only at written
    split at written
    · rename_i scope found
      cases written
      rw [rootBinding?_setBindings_root found, Table.get?_insert_self]
    · cases written

theorem Arena.exists_write (arena : blackboard.Arena)
    (held : blackboard.rootBinding? name = some entry) (next : Entry) :
    ∃ after, blackboard.write .root name next = .ok after := by
  rcases arena.root with ⟨bindings, slot⟩
  have found : blackboard.scope? .root = some ⟨none, bindings⟩ := scope?_eq_some_iff.2 slot
  unfold write
  rw [arena.definition_root, held]
  dsimp only
  rw [found]
  exact ⟨_, rfl⟩

theorem Arena.rootBinding?_createScope (arena : blackboard.Arena)
    (created : blackboard.createScope id = .ok (other, after)) (name : String) :
    after.rootBinding? name = blackboard.rootBinding? name := by
  rcases arena.root with ⟨bindings, slot⟩
  have inRange := (List.getElem?_eq_some_iff.1 slot).1
  apply rootBinding?_congr
  unfold createScope at created
  split at created
  · split at created
    · rename_i index free isFree
      rcases arena.vacant index (by simp [isFree]) with ⟨nonzero, -⟩
      cases created
      simp [setSlot, List.getElem?_set_ne nonzero]
    · cases created
      exact List.getElem?_append_left inRange
  · cases created

theorem rootBinding?_destroyScope (name : String) :
    (blackboard.destroyScope id).2.rootBinding? name = blackboard.rootBinding? name := by
  unfold destroyScope
  split
  · rfl
  · rename_i inner
    rw [not_or] at inner
    apply rootBinding?_congr
    simp [setSlot, List.getElem?_set_ne inner.1]

theorem rootBinding?_clearNestedScopes (name : String) :
    blackboard.clearNestedScopes.rootBinding? name = blackboard.rootBinding? name := by
  unfold clearNestedScopes
  generalize List.range' 1 (blackboard.slots.length - 1) = slots
  induction slots generalizing blackboard with
  | nil => rfl
  | cons index rest ih =>
    rw [List.foldl_cons, ih]
    unfold destroySlot
    split
    · exact rootBinding?_destroyScope name
    · rfl

end Blackboard

end BehaviorTree
