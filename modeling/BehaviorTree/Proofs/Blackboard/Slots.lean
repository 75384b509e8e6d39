import BehaviorTree.Proofs.Blackboard.Scopes
import BehaviorTree.Proofs.Table

/-!
# Slots of a blackboard

Operations on scopes are looked at slot by slot: a scope is put into one slot, or the scopes in some
slots are torn down, and all other slots stay as they are. From this follows what every handle is
good for afterwards.
-/

namespace BehaviorTree

/-- The slot after the scope in it, if there is one, is torn down. -/
def ScopeSlot.tearDown (slot : ScopeSlot) : ScopeSlot :=
  if slot.scope.isSome then ⟨slot.generation + 1, none⟩ else slot

theorem ScopeSlot.scope_tearDown (slot : ScopeSlot) : slot.tearDown.scope = none := by
  simp only [tearDown]
  split
  · rfl
  · rename_i vacant
    simpa using vacant

namespace Blackboard

/-- A slot is replaced or added. -/
def Replaces (blackboard : Blackboard) (index : Nat) (slot : ScopeSlot) (after : Blackboard) :
    Prop :=
  ∀ place, after.slots[place]? = if place = index then some slot else blackboard.slots[place]?

/-- The scopes in some slots are torn down. -/
def TearsDown (blackboard : Blackboard) (indices : List Nat) (after : Blackboard) : Prop :=
  ∀ place, after.slots[place]? =
    if place ∈ indices then blackboard.slots[place]?.map ScopeSlot.tearDown
    else blackboard.slots[place]?

/-- The parent and the variables of the scope that a handle is good for. -/
def view (blackboard : Blackboard) (id : ScopeId) :
    Option (Option ScopeId × (String → Option Entry)) :=
  (blackboard.scope? id).map fun scope => (scope.parent, scope.bindings.get?)

variable {blackboard after : Blackboard} {id other parent : ScopeId} {index : Nat}
  {indices : List Nat} {slot : ScopeSlot} {name : String} {entry : Entry}

theorem isAlive_eq_isSome_view : blackboard.isAlive id = (blackboard.view id).isSome := by
  simp [isAlive, view]

theorem view_eq_none_iff : blackboard.view id = none ↔ blackboard.isAlive id = false := by
  simp [isAlive_eq_isSome_view]

theorem Replaces.scope?_eq (replaces : blackboard.Replaces index slot after) (other : ScopeId) :
    after.scope? other =
      if other.slot = index then if slot.generation = other.generation then slot.scope else none
      else blackboard.scope? other := by
  simp only [scope?, replaces other.slot]
  by_cases same : other.slot = index <;> simp [same]

theorem TearsDown.scope?_eq (tears : blackboard.TearsDown indices after) (other : ScopeId) :
    after.scope? other = if other.slot ∈ indices then none else blackboard.scope? other := by
  simp only [scope?, tears other.slot]
  by_cases listed : other.slot ∈ indices
  · cases blackboard.slots[other.slot]? with
    | none => simp [listed]
    | some slot => simp [listed, slot.scope_tearDown]
  · simp [listed]

theorem TearsDown.view_eq (tears : blackboard.TearsDown indices after) (other : ScopeId) :
    after.view other = if other.slot ∈ indices then none else blackboard.view other := by
  simp only [view, tears.scope?_eq]
  split <;> rfl

/-- No slot is taken away with its scope. -/
theorem TearsDown.length_eq (tears : blackboard.TearsDown indices after) :
    after.slots.length = blackboard.slots.length := by
  have absent : ∀ index, after.slots.length ≤ index ↔ blackboard.slots.length ≤ index := by
    intro index
    rw [← List.getElem?_eq_none_iff, ← List.getElem?_eq_none_iff, tears index]
    split <;> simp
  exact Nat.le_antisymm ((absent _).2 (Nat.le_refl _)) ((absent _).1 (Nat.le_refl _))

/-- A scope is created in a vacant slot or in a new one. -/
theorem replaces_createScope (arena : blackboard.Arena)
    (created : blackboard.createScope parent = .ok (id, after)) :
    blackboard.Replaces id.slot ⟨id.generation, some ⟨some parent, .empty⟩⟩ after ∧
      (blackboard.slots[id.slot]? = some ⟨id.generation, none⟩ ∨
        blackboard.slots[id.slot]? = none ∧ id.generation = 0) := by
  simp only [createScope] at created
  split at created
  · split at created
    · rename_i index free isFree
      rcases arena.vacant index (by simp [isFree]) with ⟨nonzero, generation, vacant⟩
      simp only [vacant, Option.map_some, Option.getD_some, Except.ok.injEq,
        Prod.mk.injEq] at created
      rcases created with ⟨rfl, rfl⟩
      refine ⟨?_, Or.inl vacant⟩
      intro place
      have inRange := (List.getElem?_eq_some_iff.1 vacant).1
      by_cases same : place = index
      · simp [setSlot, same, inRange]
      · simp [setSlot, same, List.getElem?_set_ne (Ne.symm same)]
    · simp only [Except.ok.injEq, Prod.mk.injEq] at created
      rcases created with ⟨rfl, rfl⟩
      refine ⟨?_, Or.inr ⟨by simp, rfl⟩⟩
      intro place
      by_cases same : place = blackboard.slots.length
      · simp [same]
      · simp only [if_neg same, List.getElem?_append]
        split
        · rfl
        · rw [List.getElem?_eq_none (by simp; omega), List.getElem?_eq_none (by omega)]
  · cases created

theorem replaces_setBindings {scope : Scope} (found : blackboard.scope? id = some scope)
    (bindings : Table String Entry) :
    blackboard.Replaces id.slot ⟨id.generation, some ⟨scope.parent, bindings⟩⟩
      (blackboard.setBindings id bindings) := by
  have slot := scope?_eq_some_iff.1 found
  have inRange := (List.getElem?_eq_some_iff.1 slot).1
  intro place
  by_cases same : place = id.slot
  · simp [setBindings, found, setSlot, same, inRange]
  · simp [setBindings, found, setSlot, same, List.getElem?_set_ne (Ne.symm same)]

theorem tearsDown_destroyScope (alive : blackboard.isAlive id = true) (nested : id.slot ≠ 0) :
    blackboard.TearsDown [id.slot] (blackboard.destroyScope id).2 := by
  rw [isAlive, Option.isSome_iff_exists] at alive
  rcases alive with ⟨scope, found⟩
  rcases List.getElem?_eq_some_iff.1 (scope?_eq_some_iff.1 found) with ⟨inRange, slot⟩
  intro place
  by_cases same : place = id.slot
  · simp [destroyScope, isAlive, found, nested, setSlot, same, inRange, slot, ScopeSlot.tearDown]
  · simp [destroyScope, isAlive, found, nested, setSlot, same, List.getElem?_set_ne (Ne.symm same)]

theorem tearsDown_destroySlot (nested : index ≠ 0) :
    blackboard.TearsDown [index] (blackboard.destroySlot index) := by
  simp only [destroySlot]
  split
  · rename_i slot found
    cases content : slot.scope with
    | none =>
      have vacant : blackboard.isAlive ⟨index, slot.generation⟩ = false := by
        simp [isAlive, scope?, found, content]
      intro place
      by_cases same : place = index
      · simp [destroyScope, vacant, same, found, ScopeSlot.tearDown, content]
      · simp [destroyScope, vacant, same]
    | some scope =>
      apply tearsDown_destroyScope
      · simp [isAlive, scope?, found, content]
      · exact nested
  · rename_i absent
    intro place
    by_cases same : place = index
    · simp [same, absent]
    · simp [same]

theorem tearsDown_foldl_destroySlot (nodup : indices.Nodup) (nested : 0 ∉ indices) :
    blackboard.TearsDown indices (indices.foldl destroySlot blackboard) := by
  induction indices generalizing blackboard with
  | nil =>
    intro place
    simp
  | cons first rest ih =>
    rw [List.nodup_cons] at nodup
    rw [List.mem_cons, not_or] at nested
    have now : blackboard.TearsDown [first] (blackboard.destroySlot first) :=
      tearsDown_destroySlot (Ne.symm nested.1)
    intro place
    rw [List.foldl_cons, ih nodup.2 nested.2, now]
    by_cases same : place = first
    · simp [same, nodup.1]
    · simp [same]

theorem tearsDown_clearNestedScopes :
    blackboard.TearsDown (List.range' 1 (blackboard.slots.length - 1))
      blackboard.clearNestedScopes :=
  tearsDown_foldl_destroySlot List.nodup_range' (by simp [List.mem_range'_1])

theorem view_createScope (arena : blackboard.Arena)
    (created : blackboard.createScope parent = .ok (id, after)) (other : ScopeId) :
    after.view other =
      if other = id then some (some parent, fun _ => none) else blackboard.view other := by
  rcases replaces_createScope arena created with ⟨replaces, vacant⟩
  simp only [view, replaces.scope?_eq]
  by_cases place : other.slot = id.slot
  · rw [if_pos place]
    by_cases same : other = id
    · subst same
      simp
      rfl
    · have stale : id.generation ≠ other.generation := by
        intro equal
        apply same
        cases other
        cases id
        simp_all
      have gone : blackboard.scope? other = none := by
        simp only [scope?, place]
        rcases vacant with vacant | ⟨absent, -⟩
        · simp [vacant]
        · simp [absent]
      simp [stale, same, gone]
  · have different : other ≠ id := fun same => place (by rw [same])
    simp [place, different]

/-- A variable of one scope is written, and nothing else is. -/
theorem view_setBindings {scope : Scope} (found : blackboard.scope? id = some scope)
    (name : String) (entry : Entry) (other : ScopeId) :
    (blackboard.setBindings id (scope.bindings.insert name entry)).view other =
      if other = id then
        (blackboard.view id).map fun (outer, values) =>
          (outer, Function.update values name (some entry))
      else blackboard.view other := by
  have replaces := replaces_setBindings found (scope.bindings.insert name entry)
  simp only [view, replaces.scope?_eq]
  by_cases place : other.slot = id.slot
  · rw [if_pos place]
    by_cases same : other = id
    · subst same
      have inserted : (scope.bindings.insert name entry).get? =
          Function.update scope.bindings.get? name (some entry) := by
        funext read
        rw [Table.get?_insert, Function.update_apply]
      simp [found, inserted]
    · have stale : id.generation ≠ other.generation := by
        intro equal
        apply same
        cases other
        cases id
        simp_all
      have gone : blackboard.scope? other = none := by
        simp [scope?, place, scope?_eq_some_iff.1 found, stale]
      simp [stale, same, gone]
  · have different : other ≠ id := fun same => place (by rw [same])
    simp [place, different]

end Blackboard

end BehaviorTree
