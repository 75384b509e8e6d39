import BehaviorTree.Blackboard.Basic
import Mathlib.Tactic.Common

/-!
# Scopes of a blackboard

A blackboard is looked at through `parent?`, which says of a handle whether it is good for a scope,
and which scope is around that one. Writes and definitions do not change this view, the creation of
a scope adds one handle to it, and the destruction of a scope takes one handle away. All of this
rests on `Arena`: the slots that are to be used next are empty.
-/

namespace BehaviorTree

namespace Blackboard

/-- The scope around the one that a handle is good for, which the root does not have. -/
def parent? (blackboard : Blackboard) (id : ScopeId) : Option (Option ScopeId) :=
  (blackboard.scope? id).map Scope.parent

/-- The slots are in order: the root is in front and the free slots are empty. -/
structure Arena (blackboard : Blackboard) : Prop where
  root : ∃ bindings, blackboard.slots[0]? = some ⟨0, some ⟨none, bindings⟩⟩
  nodup : blackboard.free.Nodup
  vacant : ∀ index ∈ blackboard.free,
    index ≠ 0 ∧ ∃ generation, blackboard.slots[index]? = some ⟨generation, none⟩

/-- Two blackboards with the same scopes, perhaps with other variables in them. -/
structure SameScopes (before after : Blackboard) : Prop where
  /-- A handle is good for a scope in both or in neither, and the scope has the same parent. -/
  parents : ∀ id, after.parent? id = before.parent? id
  arena : before.Arena → after.Arena

variable {blackboard after : Blackboard} {id other parent : ScopeId}

theorem scope?_eq_some_iff {scope : Scope} :
    blackboard.scope? id = some scope ↔
      blackboard.slots[id.slot]? = some ⟨id.generation, some scope⟩ := by
  unfold scope?
  cases found : blackboard.slots[id.slot]? with
  | none => simp
  | some slot =>
    rcases slot with ⟨generation, content⟩
    by_cases same : generation = id.generation <;> simp [same]

theorem isAlive_iff :
    blackboard.isAlive id = true ↔ ∃ outer, blackboard.parent? id = some outer := by
  simp [isAlive, parent?, Option.isSome_iff_exists]

theorem isAlive_eq_isSome : blackboard.isAlive id = (blackboard.parent? id).isSome := by
  simp [isAlive, parent?]

theorem isAlive_eq_false_iff : blackboard.isAlive id = false ↔ blackboard.parent? id = none := by
  simp [isAlive_eq_isSome]

theorem parent?_eq_some_iff {outer : Option ScopeId} :
    blackboard.parent? id = some outer ↔
      ∃ bindings, blackboard.slots[id.slot]? = some ⟨id.generation, some ⟨outer, bindings⟩⟩ := by
  simp only [parent?, Option.map_eq_some_iff, scope?_eq_some_iff]
  constructor
  · rintro ⟨⟨around, bindings⟩, found, rfl⟩
    exact ⟨bindings, found⟩
  · rintro ⟨bindings, found⟩
    exact ⟨⟨outer, bindings⟩, found, rfl⟩

theorem parent?_eq_none_of_slot
    (empty : ∀ scope, blackboard.slots[id.slot]? ≠ some ⟨id.generation, some scope⟩) :
    blackboard.parent? id = none := by
  rw [Option.eq_none_iff_forall_ne_some]
  intro outer found
  rcases parent?_eq_some_iff.1 found with ⟨bindings, slot⟩
  exact empty _ slot

theorem empty_arena : empty.Arena := by
  refine ⟨⟨.empty, rfl⟩, by simp [empty], by simp [empty]⟩

namespace Arena

theorem parent?_root (arena : blackboard.Arena) : blackboard.parent? .root = some none := by
  rcases arena.root with ⟨bindings, slot⟩
  exact parent?_eq_some_iff.2 ⟨bindings, slot⟩

/-- The only scope in the first slot is the root. -/
theorem eq_root (arena : blackboard.Arena) (alive : blackboard.isAlive id = true)
    (first : id.slot = 0) : id = .root := by
  rcases isAlive_iff.1 alive with ⟨outer, found⟩
  rcases parent?_eq_some_iff.1 found with ⟨bindings, slot⟩
  rcases arena.root with ⟨rootBindings, rootSlot⟩
  rw [first, rootSlot] at slot
  simp only [Option.some.injEq, ScopeSlot.mk.injEq] at slot
  rcases id with ⟨index, generation⟩
  simp only at first slot
  simp [ScopeId.root, first, ← slot.1]

end Arena

namespace SameScopes

theorem refl (blackboard : Blackboard) : SameScopes blackboard blackboard :=
  ⟨fun _ => rfl, fun arena => arena⟩

theorem trans {first second third : Blackboard} (left : SameScopes first second)
    (right : SameScopes second third) : SameScopes first third :=
  ⟨fun id => (right.parents id).trans (left.parents id),
    fun arena => right.arena (left.arena arena)⟩

theorem isAlive_eq (same : SameScopes blackboard after) :
    after.isAlive id = blackboard.isAlive id := by
  rw [isAlive_eq_isSome, isAlive_eq_isSome, same.parents]

end SameScopes

theorem sameScopes_setBindings (bindings : Table String Entry) :
    SameScopes blackboard (blackboard.setBindings id bindings) := by
  cases found : blackboard.scope? id with
  | none =>
    simp only [setBindings, found]
    exact .refl blackboard
  | some scope =>
    have slot := scope?_eq_some_iff.1 found
    have inRange : id.slot < blackboard.slots.length := (List.getElem?_eq_some_iff.1 slot).1
    have slots : (blackboard.setBindings id bindings).slots =
        blackboard.slots.set id.slot ⟨id.generation, some ⟨scope.parent, bindings⟩⟩ := by
      simp [setBindings, found, setSlot]
    have free : (blackboard.setBindings id bindings).free = blackboard.free := by
      simp [setBindings, found, setSlot]
    constructor
    · intro handle
      simp only [parent?, scope?, slots]
      by_cases same : handle.slot = id.slot
      · simp only [same, List.getElem?_set_self inRange, slot]
        split <;> simp
      · simp [List.getElem?_set_ne (Ne.symm same)]
    · intro arena
      constructor
      · rcases arena.root with ⟨rootBindings, rootSlot⟩
        by_cases first : id.slot = 0
        · rw [first, rootSlot] at slot
          simp only [Option.some.injEq, ScopeSlot.mk.injEq] at slot
          refine ⟨bindings, ?_⟩
          rw [slots, first, List.getElem?_set_self (by omega), ← slot.1, ← slot.2]
        · exact ⟨rootBindings, by rw [slots, List.getElem?_set_ne first, rootSlot]⟩
      · rw [free]
        exact arena.nodup
      · intro index index_mem
        rw [free] at index_mem
        rcases arena.vacant index index_mem with ⟨nonzero, generation, vacantSlot⟩
        refine ⟨nonzero, generation, ?_⟩
        have different : id.slot ≠ index := by
          intro same
          rw [same, vacantSlot] at slot
          simp at slot
        rw [slots, List.getElem?_set_ne different, vacantSlot]

theorem sameScopes_define {name : String} {entry : Entry}
    (defined : blackboard.define id name entry = .ok after) : SameScopes blackboard after := by
  unfold define at defined
  split at defined
  · cases defined
  · split at defined
    · cases defined
    · simp only [Except.ok.injEq] at defined
      subst defined
      exact sameScopes_setBindings _

theorem sameScopes_write {name : String} {entry : Entry}
    (written : blackboard.write id name entry = .ok after) : SameScopes blackboard after := by
  unfold write at written
  split at written
  · split at written
    · simp only [Except.ok.injEq] at written
      subst written
      exact sameScopes_setBindings _
    · cases written
  · cases written
  · cases written

/-- A scope that is created is new, lies inside of its parent and leaves other scopes alone. -/
structure Created (blackboard : Blackboard) (parent id : ScopeId) (after : Blackboard) : Prop where
  fresh : blackboard.parent? id = none
  nested : id.slot ≠ 0
  parents : ∀ other, after.parent? other =
    if other = id then some (some parent) else blackboard.parent? other
  arena : after.Arena

theorem Arena.created_in_free_slot {index : Nat} {free : List Nat} (arena : blackboard.Arena)
    (isFree : blackboard.free = index :: free) {generation : UInt32}
    (slot : blackboard.slots[index]? = some ⟨generation, none⟩) (nonzero : index ≠ 0) :
    Created blackboard parent ⟨index, generation⟩
      { (blackboard.setSlot index ⟨generation, some ⟨some parent, .empty⟩⟩) with
        free := free } := by
  have inRange : index < blackboard.slots.length := (List.getElem?_eq_some_iff.1 slot).1
  have nodup := arena.nodup
  rw [isFree, List.nodup_cons] at nodup
  refine ⟨?_, nonzero, ?_, ?_, nodup.2, ?_⟩
  · apply parent?_eq_none_of_slot
    simp [slot]
  · intro handle
    simp only [parent?, scope?, setSlot]
    by_cases same : handle.slot = index
    · simp only [same, List.getElem?_set_self inRange, slot]
      rcases handle with ⟨position, number⟩
      simp only at same
      subst same
      by_cases current : generation = number
      · simp [current]
      · simp [current, Ne.symm current]
    · have different : handle ≠ ⟨index, generation⟩ := by
        rintro rfl
        exact same rfl
      simp [List.getElem?_set_ne (Ne.symm same), different]
  · rcases arena.root with ⟨bindings, rootSlot⟩
    exact ⟨bindings, by simp [setSlot, List.getElem?_set_ne nonzero, rootSlot]⟩
  · intro position position_mem
    have listed : position ∈ blackboard.free := by simp [isFree, position_mem]
    rcases arena.vacant position listed with ⟨positive, number, vacantSlot⟩
    have different : index ≠ position := by
      rintro rfl
      exact nodup.1 position_mem
    exact ⟨positive, number, by simp [setSlot, List.getElem?_set_ne different, vacantSlot]⟩

/-- Without free slots a new one is added at the end. -/
theorem Arena.created_at_end (arena : blackboard.Arena) (noneFree : blackboard.free = []) :
    Created blackboard parent ⟨blackboard.slots.length, 0⟩
      { blackboard with slots := blackboard.slots ++ [⟨0, some ⟨some parent, .empty⟩⟩] } := by
  rcases arena.root with ⟨bindings, rootSlot⟩
  have positive : 0 < blackboard.slots.length := (List.getElem?_eq_some_iff.1 rootSlot).1
  refine ⟨?_, Nat.ne_of_gt positive, ?_, ⟨bindings, ?_⟩, by simp [noneFree], by simp [noneFree]⟩
  · apply parent?_eq_none_of_slot
    simp
  · intro handle
    simp only [parent?, scope?]
    rcases Nat.lt_trichotomy handle.slot blackboard.slots.length with inside | same | beyond
    · have different : handle ≠ ⟨blackboard.slots.length, 0⟩ := by
        rintro rfl
        exact Nat.lt_irrefl _ inside
      simp [List.getElem?_append_left inside, different]
    · rcases handle with ⟨position, number⟩
      simp only at same
      subst same
      by_cases current : number = 0
      · simp [current]
      · simp [current, Ne.symm current]
    · have different : handle ≠ ⟨blackboard.slots.length, 0⟩ := by
        rintro rfl
        exact Nat.lt_irrefl _ beyond
      have outside : (blackboard.slots ++ [⟨0, some ⟨some parent, .empty⟩⟩])[handle.slot]? =
          none := by
        rw [List.getElem?_eq_none_iff]
        simp only [List.length_append, List.length_cons, List.length_nil]
        omega
      simp [outside, different, List.getElem?_eq_none_iff.2 (Nat.le_of_lt beyond)]
  · rw [List.getElem?_append_left positive, rootSlot]

theorem Arena.created (arena : blackboard.Arena)
    (created : blackboard.createScope parent = .ok (id, after)) :
    Created blackboard parent id after := by
  unfold createScope at created
  split at created
  · split at created
    · rename_i index free isFree
      rcases arena.vacant index (by simp [isFree]) with ⟨nonzero, generation, slot⟩
      simp only [slot, Option.map_some, Option.getD_some, Except.ok.injEq,
        Prod.mk.injEq] at created
      rcases created with ⟨rfl, rfl⟩
      exact arena.created_in_free_slot isFree slot nonzero
    · rename_i noneFree
      simp only [Except.ok.injEq, Prod.mk.injEq] at created
      rcases created with ⟨rfl, rfl⟩
      exact arena.created_at_end noneFree
  · cases created

theorem exists_createScope (alive : blackboard.isAlive parent = true) :
    ∃ id after, blackboard.createScope parent = .ok (id, after) := by
  unfold createScope
  rw [if_pos alive]
  split <;> exact ⟨_, _, rfl⟩

/-- A scope that is destroyed leaves other scopes alone. -/
structure Destroyed (blackboard : Blackboard) (id : ScopeId) (after : Blackboard) : Prop where
  parents : ∀ other, after.parent? other = if other = id then none else blackboard.parent? other
  arena : after.Arena

theorem Arena.destroyed (arena : blackboard.Arena) (nested : id.slot ≠ 0) :
    Destroyed blackboard id (blackboard.destroyScope id).2 := by
  unfold destroyScope
  split
  next absent =>
    have dead : blackboard.parent? id = none := by
      rcases absent with first | dead
      · exact absurd first nested
      · exact isAlive_eq_false_iff.1 dead
    refine ⟨?_, arena⟩
    intro handle
    by_cases same : handle = id
    · simp [same, dead]
    · simp [same]
  next present =>
    rw [not_or, Bool.not_eq_false] at present
    rcases isAlive_iff.1 present.2 with ⟨outer, found⟩
    rcases parent?_eq_some_iff.1 found with ⟨bindings, slot⟩
    have inRange : id.slot < blackboard.slots.length := (List.getElem?_eq_some_iff.1 slot).1
    refine ⟨?_, ?_, ?_, ?_⟩
    · intro handle
      simp only [parent?, scope?, setSlot]
      by_cases same : handle.slot = id.slot
      · simp only [same, List.getElem?_set_self inRange, slot]
        rcases handle with ⟨position, number⟩
        rcases id with ⟨index, generation⟩
        simp only at same
        subst same
        by_cases current : number = generation
        · simp [current]
        · simp [current, Ne.symm current]
      · have different : handle ≠ id := by
          rintro rfl
          exact same rfl
        simp [List.getElem?_set_ne (Ne.symm same), different]
    · rcases arena.root with ⟨rootBindings, rootSlot⟩
      exact ⟨rootBindings, by simp [setSlot, List.getElem?_set_ne nested, rootSlot]⟩
    · simp only [List.nodup_cons]
      refine ⟨?_, arena.nodup⟩
      intro listed
      rcases arena.vacant id.slot listed with ⟨_, generation, vacantSlot⟩
      rw [slot] at vacantSlot
      simp at vacantSlot
    · intro position position_mem
      rcases List.mem_cons.1 position_mem with rfl | listed
      · exact ⟨nested, id.generation + 1, by simp [setSlot, List.getElem?_set_self inRange]⟩
      · rcases arena.vacant position listed with ⟨positive, generation, vacantSlot⟩
        have different : id.slot ≠ position := by
          rintro rfl
          rw [slot] at vacantSlot
          simp at vacantSlot
        exact ⟨positive, generation, by simp [setSlot, List.getElem?_set_ne different, vacantSlot]⟩

/-- What is left when the scopes in some slots are destroyed. -/
structure Emptied (blackboard : Blackboard) (slots : List Nat) (after : Blackboard) : Prop where
  parents : ∀ id, after.parent? id = if id.slot ∈ slots then none else blackboard.parent? id
  arena : after.Arena

theorem Arena.emptied_slot (arena : blackboard.Arena) {index : Nat} (nonzero : index ≠ 0) :
    Emptied blackboard [index] (blackboard.destroySlot index) := by
  unfold destroySlot
  split
  · rename_i slot found
    have destroyed : Destroyed blackboard ⟨index, slot.generation⟩
        (blackboard.destroyScope ⟨index, slot.generation⟩).2 := arena.destroyed nonzero
    refine ⟨?_, destroyed.arena⟩
    intro handle
    rw [destroyed.parents]
    rcases handle with ⟨position, number⟩
    by_cases same : position = index
    · subst same
      by_cases current : number = slot.generation
      · simp [current]
      · have dead : blackboard.parent? ⟨position, number⟩ = none := by
          apply parent?_eq_none_of_slot
          intro scope
          simp only [found, ne_eq, Option.some.injEq]
          rintro rfl
          exact current rfl
        simp [dead]
    · simp [same]
  · rename_i absent
    refine ⟨?_, arena⟩
    intro handle
    by_cases same : handle.slot = index
    · have dead : blackboard.parent? handle = none := by
        apply parent?_eq_none_of_slot
        simp [same, absent]
      simp [same, dead]
    · simp [same]

theorem Arena.emptied (arena : blackboard.Arena) {slots : List Nat} (nested : 0 ∉ slots) :
    Emptied blackboard slots (slots.foldl destroySlot blackboard) := by
  induction slots generalizing blackboard with
  | nil => exact ⟨by simp, arena⟩
  | cons index slots ih =>
    rw [List.mem_cons, not_or] at nested
    have first := arena.emptied_slot (Ne.symm nested.1)
    have rest := ih first.arena nested.2
    refine ⟨?_, rest.arena⟩
    intro handle
    simp only [List.foldl_cons, rest.parents, first.parents, List.mem_cons, List.not_mem_nil,
      or_false]
    by_cases listed : handle.slot ∈ slots <;> simp [listed]

theorem Arena.parent?_clearNestedScopes (arena : blackboard.Arena) (id : ScopeId) :
    blackboard.clearNestedScopes.parent? id =
      if id.slot = 0 then blackboard.parent? id else none := by
  have emptied : Emptied blackboard (List.range' 1 (blackboard.slots.length - 1))
      blackboard.clearNestedScopes := arena.emptied (by simp [List.mem_range'_1])
  rw [emptied.parents]
  simp only [List.mem_range'_1]
  by_cases first : id.slot = 0
  · simp [first]
  · by_cases inside : id.slot < blackboard.slots.length
    · have cleared : 1 ≤ id.slot ∧ id.slot < 1 + (blackboard.slots.length - 1) := by omega
      simp [first, cleared]
    · have dead : blackboard.parent? id = none := by
        apply parent?_eq_none_of_slot
        simp [List.getElem?_eq_none_iff.2 (Nat.le_of_not_lt inside)]
      simp [dead]

theorem Arena.clearNestedScopes (arena : blackboard.Arena) :
    blackboard.clearNestedScopes.Arena :=
  (arena.emptied (by simp [List.mem_range'_1])).arena

end Blackboard

end BehaviorTree
