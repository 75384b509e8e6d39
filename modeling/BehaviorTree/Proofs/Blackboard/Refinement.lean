import BehaviorTree.Proofs.Blackboard.Slots
import BehaviorTree.Proofs.Blackboard.Store
import BehaviorTree.Proofs.Blackboard.Walks
import Mathlib.Data.Nat.Count
import Mathlib.Data.Finset.Card
import Mathlib.Tactic.Linarith

/-!
# Blackboards stand for stores

A blackboard uses the slots of destroyed scopes again, and it walks outwards through handles that
may be stale. As long as the generations of slots do not start over, no handle is ever returned
twice, and every handle is good for the scope that it was returned for. So every answer is that of a
store whose scopes have a number each.
-/

namespace BehaviorTree

namespace Blackboard

/-- The generation of a slot, counted from its first scope. -/
def generationOf (blackboard : Blackboard) (index : Nat) : Nat :=
  (blackboard.slots[index]?.map fun slot => slot.generation.toNat).getD 0

/-- Handles are told apart by slots and generations. A handle is good for the scope in its slot, or
the scope that it was good for was torn down. -/
structure Numbered (blackboard : Blackboard) (handles : List ScopeId) : Prop where
  arena : blackboard.Arena
  nodup : handles.Nodup
  root : handles[0]? = some .root
  issued : ∀ id ∈ handles, ∃ slot, blackboard.slots[id.slot]? = some slot ∧
    (id.generation < slot.generation ∨ id.generation = slot.generation ∧ slot.scope.isSome)
  owned : ∀ id, blackboard.isAlive id = true → id ∈ handles

variable {blackboard after : Blackboard} {handles : List ScopeId} {id other parent : ScopeId}
  {index : Nat} {indices : List Nat} {name : String} {entry : Entry}

theorem numbered_empty : empty.Numbered [.root] := by
  refine ⟨empty_arena, by simp, rfl, ?_, ?_⟩
  · intro id listed
    rw [List.mem_singleton] at listed
    subst listed
    exact ⟨_, rfl, Or.inr ⟨rfl, rfl⟩⟩
  · intro id alive
    rw [isAlive, Option.isSome_iff_exists] at alive
    rcases alive with ⟨scope, found⟩
    have slot := scope?_eq_some_iff.1 found
    have first : id.slot = 0 := by
      have inside := (List.getElem?_eq_some_iff.1 slot).1
      have one : empty.slots.length = 1 := rfl
      omega
    rw [List.mem_singleton]
    exact empty_arena.eq_root (by simp [isAlive, found]) first

/-- A new handle was never returned before. -/
theorem Numbered.created (numbered : blackboard.Numbered handles)
    (created : blackboard.createScope parent = .ok (id, after)) :
    after.Numbered (handles ++ [id]) := by
  rcases replaces_createScope numbered.arena created with ⟨replaces, vacant⟩
  have stale : ∀ old ∈ handles, old.slot = id.slot → old.generation < id.generation ∧
      blackboard.slots[id.slot]? = some ⟨id.generation, none⟩ := by
    intro old listed same
    rcases numbered.issued old listed with ⟨slot, found, order⟩
    rw [same] at found
    rcases vacant with vacant | ⟨absent, -⟩
    · rw [vacant, Option.some.injEq] at found
      subst found
      exact ⟨by simpa using order, vacant⟩
    · rw [absent] at found
      cases found
  refine ⟨(numbered.arena.created created).arena, ?_, ?_, ?_, ?_⟩
  · rw [← List.concat_eq_append, List.nodup_concat]
    refine ⟨?_, numbered.nodup⟩
    intro listed
    exact absurd (stale id listed rfl).1 (UInt32.lt_irrefl _)
  · rw [List.getElem?_append_left (List.getElem?_eq_some_iff.1 numbered.root).1]
    exact numbered.root
  · intro old listed
    rcases List.mem_append.1 listed with listed | new
    · by_cases same : old.slot = id.slot
      · refine ⟨_, (replaces _).trans (if_pos same), Or.inl (stale old listed same).1⟩
      · rcases numbered.issued old listed with ⟨slot, found, order⟩
        exact ⟨slot, by rw [replaces, if_neg same, found], order⟩
    · rw [List.mem_singleton] at new
      subst new
      exact ⟨_, (replaces _).trans (if_pos rfl), Or.inr ⟨rfl, rfl⟩⟩
  · intro old alive
    rw [isAlive_eq_isSome_view, view_createScope numbered.arena created] at alive
    by_cases same : old = id
    · simp [same]
    · rw [if_neg same, ← isAlive_eq_isSome_view] at alive
      exact List.mem_append_left _ (numbered.owned old alive)

theorem Numbered.setBindings (numbered : blackboard.Numbered handles) {scope : Scope}
    (found : blackboard.scope? id = some scope) (bindings : Table String Entry) :
    (blackboard.setBindings id bindings).Numbered handles := by
  have same : SameScopes blackboard (blackboard.setBindings id bindings) :=
    sameScopes_setBindings bindings
  have replaces := replaces_setBindings found bindings
  refine ⟨same.arena numbered.arena, numbered.nodup, numbered.root, ?_, ?_⟩
  · intro old listed
    rcases numbered.issued old listed with ⟨slot, there, order⟩
    by_cases here : old.slot = id.slot
    · rw [here, scope?_eq_some_iff.1 found, Option.some.injEq] at there
      subst there
      exact ⟨_, (replaces _).trans (if_pos here), by simpa using order⟩
    · exact ⟨slot, by rw [replaces, if_neg here, there], order⟩
  · intro old alive
    exact numbered.owned old (by rwa [same.isAlive_eq] at alive)

/-- Handles stay apart when scopes are torn down, unless the generation of a slot starts over. -/
theorem Numbered.tearsDown (numbered : blackboard.Numbered handles)
    (tears : blackboard.TearsDown indices after) (arena : after.Arena)
    (spared : ∀ place ∈ indices, blackboard.isOccupied place = true →
      blackboard.generationOf place + 1 < 2 ^ 32) : after.Numbered handles := by
  refine ⟨arena, numbered.nodup, numbered.root, ?_, ?_⟩
  · intro id listed
    rcases numbered.issued id listed with ⟨slot, found, order⟩
    by_cases torn : id.slot ∈ indices
    · refine ⟨slot.tearDown, by rw [tears, if_pos torn, found]; rfl, Or.inl ?_⟩
      cases content : slot.scope with
      | none => simpa [ScopeSlot.tearDown, content] using order
      | some scope =>
        have room := spared id.slot torn (by simp [isOccupied, found, content])
        have bound : slot.generation.toNat + 1 < 2 ^ 32 := by
          simpa [generationOf, found] using room
        have next : (slot.generation + 1).toNat = slot.generation.toNat + 1 := by
          rw [UInt32.toNat_add]
          exact Nat.mod_eq_of_lt bound
        have reached : id.generation.toNat ≤ slot.generation.toNat := by
          rcases order with less | ⟨same, -⟩
          · exact Nat.le_of_lt (UInt32.lt_iff_toNat_lt.1 less)
          · rw [same]
        simp only [ScopeSlot.tearDown, content, Option.isSome_some, ↓reduceIte,
          UInt32.lt_iff_toNat_lt, next]
        omega
    · exact ⟨slot, by rw [tears, if_neg torn, found], order⟩
  · intro id alive
    rw [isAlive_eq_isSome_view, tears.view_eq] at alive
    split at alive
    · cases alive
    · exact numbered.owned id (by rwa [isAlive_eq_isSome_view])

theorem generationOf_createScope (arena : blackboard.Arena)
    (created : blackboard.createScope parent = .ok (id, after)) (index : Nat) :
    after.generationOf index = blackboard.generationOf index := by
  rcases replaces_createScope arena created with ⟨replaces, vacant⟩
  simp only [generationOf, replaces index]
  split
  · rename_i same
    subst same
    rcases vacant with vacant | ⟨absent, first⟩
    · simp [vacant]
    · simp [absent, first]
  · rfl

theorem generationOf_setBindings {scope : Scope} (found : blackboard.scope? id = some scope)
    (bindings : Table String Entry) (index : Nat) :
    (blackboard.setBindings id bindings).generationOf index = blackboard.generationOf index := by
  simp only [generationOf, replaces_setBindings found bindings index]
  split
  · rename_i same
    simp [same, scope?_eq_some_iff.1 found]
  · rfl

/-- A generation goes up by one at most, and only when a scope is torn down. -/
theorem TearsDown.generationOf_le (tears : blackboard.TearsDown indices after) (index : Nat) :
    after.generationOf index ≤ blackboard.generationOf index + blackboard.teardown after index := by
  simp only [generationOf, teardown, isOccupied, tears index]
  by_cases torn : index ∈ indices
  · cases found : blackboard.slots[index]? with
    | none => simp [torn]
    | some slot =>
      cases content : slot.scope with
      | none => simp [torn, content, ScopeSlot.tearDown]
      | some scope =>
        simp only [torn, ↓reduceIte, Option.map_some, Option.getD_some, ScopeSlot.tearDown, content,
          Option.isSome_some, Option.bind_some, Option.isSome_none, Bool.not_false, Bool.and_self,
          UInt32.toNat_add]
        exact Nat.mod_le _ _
  · simp [torn]

theorem TearsDown.isOccupied_eq (tears : blackboard.TearsDown indices after)
    (torn : index ∈ indices) : after.isOccupied index = false := by
  simp only [isOccupied, tears index, if_pos torn]
  cases blackboard.slots[index]? with
  | none => rfl
  | some slot => simp [slot.scope_tearDown]

theorem define_eq_ok (defined : blackboard.define id name entry = .ok after) :
    ∃ scope, blackboard.scope? id = some scope ∧
      after = blackboard.setBindings id (scope.bindings.insert name entry) := by
  simp only [define] at defined
  split at defined
  · cases defined
  · rename_i scope found
    split at defined
    · cases defined
    · cases defined
      exact ⟨scope, found, rfl⟩

theorem write_eq_ok (written : blackboard.write id name entry = .ok after) :
    ∃ owner previous scope, blackboard.definition id name = .ok (owner, previous) ∧
      blackboard.scope? owner = some scope ∧
      after = blackboard.setBindings owner (scope.bindings.insert name entry) := by
  simp only [write] at written
  split at written
  · rename_i owner previous located
    split at written
    · rename_i scope found
      cases written
      exact ⟨owner, previous, scope, located, found, rfl⟩
    · cases written
  · cases written
  · cases written

/-- On the walk outwards from a scope, a variable is first defined in a certain scope. -/
inductive Nearest (blackboard : Blackboard) (name : String) : ScopeId → ScopeId → Entry → Prop
  | here {id : ScopeId} {outer : Option ScopeId} {values : String → Option Entry} {entry : Entry}
      (found : blackboard.view id = some (outer, values)) (defined : values name = some entry) :
      Nearest blackboard name id id entry
  | outside {id outer owner : ScopeId} {values : String → Option Entry} {entry : Entry}
      (found : blackboard.view id = some (some outer, values)) (undefined : values name = none)
      (nearest : Nearest blackboard name outer owner entry) :
      Nearest blackboard name id owner entry

theorem nearest_of_findDefinition {fuel : Nat}
    (located : blackboard.findDefinition name fuel id = .ok (other, entry)) :
    blackboard.Nearest name id other entry := by
  induction fuel generalizing id with
  | zero => cases located
  | succ fuel ih =>
    simp only [findDefinition] at located
    split at located
    · cases located
    · rename_i scope found
      split at located
      · rename_i defined
        cases located
        exact .here (by rw [view, found]; rfl) defined
      · rename_i outer undefined around
        exact .outside (by rw [view, found, Option.map_some, around]) undefined (ih located)
      · cases located

/-- A write changes the nearest definition of a variable, and nothing else. -/
theorem view_write (written : blackboard.write id name entry = .ok after) :
    ∃ owner previous, blackboard.Nearest name id owner previous ∧ ∀ other, after.view other =
      if other = owner then
        (blackboard.view owner).map fun (outer, values) =>
          (outer, Function.update values name (some entry))
      else blackboard.view other := by
  rcases write_eq_ok written with ⟨owner, previous, scope, located, found, rfl⟩
  exact ⟨owner, previous, nearest_of_findDefinition located, view_setBindings found name entry⟩

end Blackboard

open Blackboard

/-- What a scope of a store looks like through handles. -/
def ScopeStore.view (store : ScopeStore) (handles : List ScopeId) (number : Nat) :
    Option (Option ScopeId × (String → Option Entry)) :=
  (store.content number).map fun values =>
    ((store.parent number).bind fun outer => handles[outer]?, values)

/-- A session stands for a store. -/
structure ScopeSession.Refines (session : ScopeSession) (store : ScopeStore) : Prop where
  numbered : session.blackboard.Numbered session.handles
  count : store.count = session.handles.length
  views : ∀ number id, session.handles[number]? = some id →
    session.blackboard.view id = store.view session.handles number

namespace ScopeSession

variable {session : ScopeSession} {store : ScopeStore} {number : Nat} {id : ScopeId}
  {name : String} {entry : Entry}

theorem refines_start : start.Refines .empty := by
  refine ⟨numbered_empty, rfl, ?_⟩
  intro number id handle
  have first : number = 0 := by
    have inside := (List.getElem?_eq_some_iff.1 handle).1
    have one : start.handles.length = 1 := rfl
    omega
  subst first
  cases handle
  rfl

namespace Refines

/-- A scope exists in the session exactly if it does in the store. -/
theorem isAlive_eq (refines : session.Refines store) (handle : session.handles[number]? = some id) :
    session.blackboard.isAlive id = (store.content number).isSome := by
  rw [isAlive_eq_isSome_view, refines.views number id handle, ScopeStore.view, Option.isSome_map]

theorem root_content (refines : session.Refines store) : (store.content 0).isSome = true := by
  rw [← refines.isAlive_eq refines.numbered.root, isAlive_eq_isSome,
    refines.numbered.arena.parent?_root]
  rfl

/-- What stands in the slot of an existing scope is what the store says. -/
theorem exists_scope (refines : session.Refines store)
    (handle : session.handles[number]? = some id) {values : String → Option Entry}
    (there : store.content number = some values) :
    ∃ scope, session.blackboard.scope? id = some scope ∧ scope.bindings.get? = values ∧
      scope.parent = (store.parent number).bind fun outer => session.handles[outer]? := by
  have seen := refines.views number id handle
  rw [ScopeStore.view, there, Option.map_some, view, Option.map_eq_some_iff] at seen
  rcases seen with ⟨scope, found, same⟩
  rw [Prod.mk.injEq] at same
  exact ⟨scope, found, same.2, same.1⟩

theorem scope?_eq_none (refines : session.Refines store)
    (handle : session.handles[number]? = some id) (gone : store.content number = none) :
    session.blackboard.scope? id = none := by
  have seen := refines.views number id handle
  rwa [ScopeStore.view, gone, Option.map_none, view, Option.map_eq_none_iff] at seen

omit session in
theorem exists_outer {handles : List ScopeId} (handle : handles[number]? = some id) {outer : Nat}
    (inside : store.parent number = some outer) : ∃ around, handles[outer]? = some around := by
  have bound := (List.getElem?_eq_some_iff.1 handle).1
  have older := store.older inside
  exact ⟨_, List.getElem?_eq_getElem (by omega)⟩

/-- Scopes that exist at the same time stand in different slots. -/
theorem count_le_slots (refines : session.Refines store) (number : Nat) :
    Nat.count (fun other => (store.content other).isSome = true) number ≤
      session.blackboard.slots.length := by
  rw [Nat.count_eq_card_filter_range, ← Finset.card_range session.blackboard.slots.length]
  have placed : ∀ other, (store.content other).isSome = true →
      ∃ scope, session.handles[other]? = some (session.handles.getD other .root) ∧
        session.blackboard.slots[(session.handles.getD other .root).slot]? =
          some ⟨(session.handles.getD other .root).generation, some scope⟩ := by
    intro other there
    rcases Option.isSome_iff_exists.1 there with ⟨values, there⟩
    have bound := store.lt_count_of_content there
    rw [refines.count] at bound
    have handle : session.handles[other]? = some (session.handles.getD other .root) := by
      simp [bound]
    rcases refines.exists_scope handle there with ⟨scope, found, -⟩
    exact ⟨scope, handle, scope?_eq_some_iff.1 found⟩
  apply Finset.card_le_card_of_injOn fun other => (session.handles.getD other .root).slot
  · intro other listed
    simp only [Finset.coe_filter, Set.mem_ofPred_eq] at listed
    rcases placed other listed.2 with ⟨scope, -, slot⟩
    simpa using (List.getElem?_eq_some_iff.1 slot).1
  · intro first firstListed second secondListed same
    simp only [Finset.coe_filter, Set.mem_ofPred_eq] at firstListed secondListed
    rcases placed first firstListed.2 with ⟨scope, firstHandle, firstSlot⟩
    rcases placed second secondListed.2 with ⟨other, secondHandle, secondSlot⟩
    dsimp only at same
    rw [same, secondSlot, Option.some.injEq, ScopeSlot.mk.injEq] at firstSlot
    have equal : session.handles.getD first .root = session.handles.getD second .root := by
      rw [ScopeId.mk.injEq]
      exact ⟨same, firstSlot.1.symm⟩
    rw [equal, ← secondHandle] at firstHandle
    have inside := (List.getElem?_eq_some_iff.1 (firstHandle.trans secondHandle)).1
    exact (List.getElem?_inj inside refines.numbered.nodup).1 firstHandle

/-- The root exists whatever scope a walk starts from. -/
theorem count_pos (refines : session.Refines store) (number : Nat) :
    0 < Nat.count (fun other => (store.content other).isSome = true) (number + 1) := by
  have root : Nat.count (fun other => (store.content other).isSome = true) 1 = 1 := by
    simp [Nat.count_succ, refines.root_content]
  have more := Nat.count_monotone (fun other => (store.content other).isSome = true)
    (Nat.le_add_left 1 number)
  omega

omit session in
/-- Fewer scopes are left when a walk goes on outwards from a scope that exists. -/
theorem count_outer_le {values : String → Option Entry} {outer fuel : Nat}
    (there : store.content number = some values) (inside : store.parent number = some outer)
    (enough : Nat.count (fun other => (store.content other).isSome = true) (number + 1) ≤
      fuel + 1) :
    Nat.count (fun other => (store.content other).isSome = true) (outer + 1) ≤ fuel := by
  have older := Nat.count_monotone (fun other => (store.content other).isSome = true)
    (store.older inside)
  simp only [Nat.count_succ _ number, there, Option.isSome_some, ↓reduceIte] at enough
  exact older.trans (Nat.le_of_succ_le_succ enough)

/-- A walk passes through scopes that exist, each of them older than the one before, and through at
most one that does not. -/
theorem findDefinition_eq (refines : session.Refines store) (name : String) {fuel : Nat}
    (handle : session.handles[number]? = some id)
    (enough : Nat.count (fun other => (store.content other).isSome = true) (number + 1) ≤ fuel) :
    match store.find name number with
    | .ok (owner, entry) => ∃ place, session.handles[owner]? = some place ∧
        session.blackboard.findDefinition name fuel id = .ok (place, entry)
    | .error error => session.blackboard.findDefinition name fuel id = .error error := by
  induction fuel generalizing number id with
  | zero => exact absurd enough (Nat.not_le_of_gt (refines.count_pos number))
  | succ fuel ih =>
    rw [store.find_eq]
    cases there : store.content number with
    | none => simp only [findDefinition, refines.scope?_eq_none handle there]
    | some values =>
      rcases refines.exists_scope handle there with ⟨scope, found, rfl, around⟩
      simp only [findDefinition, found, around]
      cases scope.bindings.get? name with
      | some entry => exact ⟨id, handle, rfl⟩
      | none =>
        cases inside : store.parent number with
        | none => rfl
        | some outer =>
          rcases exists_outer handle inside with ⟨place, outside⟩
          simp only [Option.bind_some, outside]
          exact ih outside (count_outer_le there inside enough)

theorem definition_eq (refines : session.Refines store) (name : String)
    (handle : session.handles[number]? = some id) :
    match store.find name number with
    | .ok (owner, entry) => ∃ place, session.handles[owner]? = some place ∧
        session.blackboard.definition id name = .ok (place, entry)
    | .error error => session.blackboard.definition id name = .error error :=
  refines.findDefinition_eq name handle (refines.count_le_slots _)

theorem entry_eq (refines : session.Refines store) (name : String)
    (handle : session.handles[number]? = some id) :
    session.blackboard.entry id name = store.entry number name := by
  have same := refines.definition_eq name handle
  simp only [Blackboard.entry, ScopeStore.entry]
  split at same
  · rename_i owner entry found
    rcases same with ⟨place, -, located⟩
    rw [found, located]
    rfl
  · rename_i error found
    rw [found, same]
    rfl

theorem visible_eq (refines : session.Refines store)
    (handle : session.handles[number]? = some id) :
    (session.blackboard.visible id).get? = store.visible number := by
  funext name
  rw [get?_visible, refines.entry_eq name handle, ScopeStore.visible]

end Refines

end ScopeSession

end BehaviorTree
