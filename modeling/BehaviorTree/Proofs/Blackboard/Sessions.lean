import BehaviorTree.Proofs.Blackboard.Refinement

/-!
# Sessions answer as stores do

Every operation keeps a session and a store in step, and both give the same answer. So they do in
every session in which the generations of slots do not start over, which takes 2^32 scopes that are
torn down in the same slot.
-/

namespace BehaviorTree

namespace ScopeSession

open Blackboard

variable {session : ScopeSession} {store : ScopeStore} {number : Nat} {id : ScopeId}
  {name : String} {entry : Entry} {operation : ScopeOperation} {operations : List ScopeOperation}

/-- The generation of no slot starts over. -/
def Spared (session : ScopeSession) (operations : List ScopeOperation) : Prop :=
  ∀ index, session.blackboard.generationOf index + session.teardowns index operations < 2 ^ 32

/-- Both give the same answer, and the session stands for the store afterwards. -/
def InStep (left : ScopeAnswer × ScopeSession) (right : ScopeAnswer × ScopeStore) : Prop :=
  left.1 = right.1 ∧ left.2.Refines right.2

namespace Refines

theorem eq_of_handle (refines : session.Refines store) {other : Nat}
    (handle : session.handles[number]? = some id) (same : session.handles[other]? = some id) :
    other = number :=
  (List.getElem?_inj (List.getElem?_eq_some_iff.1 same).1 refines.numbered.nodup).1
    (same.trans handle.symm)

theorem created (refines : session.Refines store) (handle : session.handles[number]? = some id)
    {new : ScopeId} {after : Blackboard} (created : session.blackboard.createScope id = .ok (new, after))
    {next : ScopeStore} (count : next.count = store.count + 1)
    (parent : next.parent = Function.update store.parent store.count (some number))
    (content : next.content = Function.update store.content store.count (some fun _ => none)) :
    Refines ⟨after, session.handles ++ [new]⟩ next := by
  have numbered := refines.numbered.created created
  refine ⟨numbered, by simp [count, refines.count], ?_⟩
  intro other place found
  dsimp only at found ⊢
  rw [view_createScope refines.numbered.arena created, ScopeStore.view, content, parent]
  rcases Nat.lt_trichotomy other session.handles.length with inside | same | beyond
  · rw [List.getElem?_append_left inside] at found
    have old : place ≠ new := by
      rintro rfl
      have fresh := numbered.nodup
      rw [← List.concat_eq_append, List.nodup_concat] at fresh
      exact fresh.1 (List.mem_of_getElem? found)
    have distinct : other ≠ store.count := by
      rw [refines.count]
      exact Nat.ne_of_lt inside
    rw [if_neg old, Function.update_of_ne distinct, Function.update_of_ne distinct,
      refines.views other place found, ScopeStore.view]
    congr 1
    funext values
    cases around : store.parent other with
    | none => rfl
    | some outer =>
      have older := store.older around
      rw [Option.bind_some, Option.bind_some, List.getElem?_append_left (by omega)]
  · subst same
    rw [List.getElem?_concat_length, Option.some.injEq] at found
    subst found
    have earlier := (List.getElem?_eq_some_iff.1 handle).1
    rw [if_pos rfl, ← refines.count, Function.update_self, Function.update_self, Option.map_some,
      Option.bind_some, List.getElem?_append_left earlier, handle]
  · rw [List.getElem?_eq_none (by simp; omega)] at found
    cases found

theorem put (refines : session.Refines store) (handle : session.handles[number]? = some id)
    {scope : Scope} (found : session.blackboard.scope? id = some scope) :
    Refines ⟨session.blackboard.setBindings id (scope.bindings.insert name entry), session.handles⟩
      (store.put number name entry) := by
  refine ⟨refines.numbered.setBindings found _, refines.count, ?_⟩
  intro other place there
  dsimp only at there ⊢
  rw [view_setBindings found, ScopeStore.view]
  dsimp only [ScopeStore.put]
  by_cases same : other = number
  · subst same
    rw [handle, Option.some.injEq] at there
    subst there
    rw [if_pos rfl, Function.update_self, refines.views other id handle, ScopeStore.view,
      Option.map_map, Option.map_map]
    rfl
  · have distinct : place ≠ id := by
      rintro rfl
      exact same (refines.eq_of_handle handle there)
    rw [if_neg distinct, Function.update_of_ne same, refines.views other place there]
    rfl

/-- Scopes that exist are told apart by their slots. -/
theorem eq_of_slot {blackboard : Blackboard} {other : ScopeId}
    (alive : blackboard.isAlive id = true) (also : blackboard.isAlive other = true)
    (same : other.slot = id.slot) : other = id := by
  rw [isAlive, Option.isSome_iff_exists] at alive also
  rcases alive with ⟨scope, found⟩
  rcases also with ⟨content, there⟩
  rw [scope?_eq_some_iff] at found there
  rw [same, found, Option.some.injEq, ScopeSlot.mk.injEq] at there
  rw [ScopeId.mk.injEq]
  exact ⟨same, there.1.symm⟩

theorem number_eq_zero_iff (refines : session.Refines store)
    (handle : session.handles[number]? = some id)
    (alive : session.blackboard.isAlive id = true) : id.slot = 0 ↔ number = 0 := by
  constructor
  · intro first
    have root := refines.numbered.arena.eq_root alive first
    subst root
    exact refines.eq_of_handle refines.numbered.root handle
  · rintro rfl
    rw [refines.numbered.root, Option.some.injEq] at handle
    rw [← handle]
    rfl

theorem destroyed (refines : session.Refines store) (handle : session.handles[number]? = some id)
    (alive : session.blackboard.isAlive id = true) (nested : id.slot ≠ 0)
    (spared : session.blackboard.generationOf id.slot + 1 < 2 ^ 32) (next : ScopeStore)
    (count : next.count = store.count) (parent : next.parent = store.parent)
    (content : next.content = Function.update store.content number none) :
    Refines ⟨(session.blackboard.destroyScope id).2, session.handles⟩ next := by
  have tears := tearsDown_destroyScope alive nested
  refine ⟨refines.numbered.tearsDown tears (refines.numbered.arena.destroyed nested).arena ?_,
    count.trans refines.count, ?_⟩
  · intro place listed _
    rw [List.mem_singleton] at listed
    rwa [listed]
  · intro other place there
    dsimp only at there ⊢
    simp only [tears.view_eq, List.mem_singleton, ScopeStore.view, content, parent]
    by_cases same : other = number
    · subst same
      rw [handle, Option.some.injEq] at there
      rw [if_pos (by rw [there]), Function.update_self, Option.map_none]
    · rw [Function.update_of_ne same, ← ScopeStore.view, ← refines.views other place there]
      split
      · rename_i sameSlot
        symm
        rw [view_eq_none_iff, ← Bool.not_eq_true]
        intro also
        rw [eq_of_slot alive also sameSlot] at there
        exact same (refines.eq_of_handle handle there)
      · rfl

theorem cleared (refines : session.Refines store)
    (spared : ∀ index, session.blackboard.isOccupied index = true → index ≠ 0 →
      session.blackboard.generationOf index + 1 < 2 ^ 32) :
    Refines ⟨session.blackboard.clearNestedScopes, session.handles⟩ store.clear := by
  have tears : session.blackboard.TearsDown _ _ := tearsDown_clearNestedScopes
  have arena := refines.numbered.arena
  refine ⟨refines.numbered.tearsDown tears arena.clearNestedScopes ?_, refines.count, ?_⟩
  · intro place listed occupied
    rw [List.mem_range'_1] at listed
    exact spared place occupied (by omega)
  · intro other place there
    dsimp only [ScopeStore.view, ScopeStore.clear] at there ⊢
    by_cases first : other = 0
    · subst first
      rw [refines.numbered.root, Option.some.injEq] at there
      subst there
      rw [tears.view_eq, if_neg (by simp [List.mem_range'_1, ScopeId.root]), if_pos rfl,
        refines.views 0 _ refines.numbered.root]
      rfl
    · rw [if_neg first, Option.map_none, view_eq_none_iff, isAlive_eq_false_iff,
        arena.parent?_clearNestedScopes]
      split
      · rename_i front
        rw [← isAlive_eq_false_iff, ← Bool.not_eq_true]
        intro alive
        exact first ((refines.number_eq_zero_iff there alive).1 front)
      · rfl

theorem isOccupied_of_isAlive {blackboard : Blackboard} (alive : blackboard.isAlive id = true) :
    blackboard.isOccupied id.slot = true := by
  rw [isAlive, Option.isSome_iff_exists] at alive
  rcases alive with ⟨scope, found⟩
  simp [isOccupied, scope?_eq_some_iff.1 found]

theorem answer_destroy (refines : session.Refines store)
    (handle : session.handles[number]? = some id)
    (spared : ∀ index, session.blackboard.isOccupied index = true →
      (session.answer id .destroy).2.blackboard.isOccupied index = false →
      session.blackboard.generationOf index + 1 < 2 ^ 32) :
    InStep (session.answer id .destroy) (store.answer number .destroy) := by
  cases alive : session.blackboard.isAlive id with
  | false =>
    have gone : (store.content number).isNone = true := by
      rw [refines.isAlive_eq handle] at alive
      simpa using alive
    simp only [ScopeSession.answer, ScopeStore.answer, destroyScope, ScopeStore.destroy, alive,
      gone, or_true, ↓reduceIte]
    exact ⟨rfl, refines⟩
  | true =>
    have there : (store.content number).isNone = false := by
      rw [refines.isAlive_eq handle] at alive
      simpa [← Option.not_isSome] using alive
    by_cases first : id.slot = 0
    · have root := (refines.number_eq_zero_iff handle alive).1 first
      simp only [ScopeSession.answer, ScopeStore.answer, destroyScope, ScopeStore.destroy, first,
        root, true_or, ↓reduceIte]
      exact ⟨rfl, refines⟩
    · have inner : number ≠ 0 := fun root =>
        first ((refines.number_eq_zero_iff handle alive).2 root)
      have tears := tearsDown_destroyScope alive first
      refine ⟨?_, refines.destroyed handle alive first (spared id.slot
        (isOccupied_of_isAlive alive) (tears.isOccupied_eq List.mem_cons_self)) _ ?_ ?_ ?_⟩
      · simp [ScopeSession.answer, ScopeStore.answer, destroyScope, ScopeStore.destroy, first, alive,
          inner, there]
      · simp [ScopeStore.answer, ScopeStore.destroy, inner, there]
      · simp [ScopeStore.answer, ScopeStore.destroy, inner, there]
      · simp [ScopeStore.answer, ScopeStore.destroy, inner, there]

theorem answer_create (refines : session.Refines store)
    (handle : session.handles[number]? = some id) :
    InStep (session.answer id .create) (store.answer number .create) := by
  have alive := refines.isAlive_eq handle
  cases there : store.content number with
  | none =>
    rw [there, Option.isSome_none] at alive
    simp only [ScopeSession.answer, ScopeStore.answer, createScope, alive,
      store.create_eq_error there]
    exact ⟨rfl, refines⟩
  | some values =>
    rw [there, Option.isSome_some] at alive
    rcases exists_createScope alive with ⟨new, after, created⟩
    rcases store.create_eq_ok there with ⟨next, added, count, parent, content⟩
    simp only [ScopeSession.answer, ScopeStore.answer, created, added]
    exact ⟨by rw [refines.count], refines.created handle created count parent content⟩

theorem answer_define (refines : session.Refines store)
    (handle : session.handles[number]? = some id) (name : String) (entry : Entry) :
    InStep (session.answer id (.define name entry)) (store.answer number (.define name entry)) := by
  simp only [ScopeSession.answer, ScopeStore.answer, Blackboard.define, ScopeStore.define]
  cases there : store.content number with
  | none =>
    simp only [refines.scope?_eq_none handle there]
    exact ⟨rfl, refines⟩
  | some values =>
    rcases refines.exists_scope handle there with ⟨scope, found, rfl, -⟩
    have told : (scope.bindings.get? name).isSome = scope.bindings.contains name := rfl
    simp only [found, told]
    cases scope.bindings.contains name with
    | true => exact ⟨rfl, refines⟩
    | false => exact ⟨rfl, refines.put handle found⟩

theorem answer_write (refines : session.Refines store)
    (handle : session.handles[number]? = some id) (name : String) (entry : Entry) :
    InStep (session.answer id (.write name entry)) (store.answer number (.write name entry)) := by
  have located := refines.definition_eq name handle
  simp only [ScopeSession.answer, ScopeStore.answer, Blackboard.write, ScopeStore.write]
  split at located
  · rename_i owner previous found
    rcases located with ⟨place, owned, located⟩
    rcases store.content_of_find found with ⟨values, there⟩
    rcases refines.exists_scope owned there with ⟨scope, content, -, -⟩
    simp only [found, located, content]
    exact ⟨rfl, refines.put owned content⟩
  · rename_i error found
    simp only [found, located]
    cases error <;> exact ⟨rfl, refines⟩

theorem answer (refines : session.Refines store) (handle : session.handles[number]? = some id)
    (request : ScopeRequest)
    (spared : ∀ index, session.blackboard.isOccupied index = true →
      (session.answer id request).2.blackboard.isOccupied index = false →
      session.blackboard.generationOf index + 1 < 2 ^ 32) :
    InStep (session.answer id request) (store.answer number request) := by
  cases request with
  | create => exact refines.answer_create handle
  | destroy => exact refines.answer_destroy handle spared
  | define name entry => exact refines.answer_define handle name entry
  | write name entry => exact refines.answer_write handle name entry
  | entry name =>
    simp only [ScopeSession.answer, ScopeStore.answer, refines.entry_eq name handle]
    exact ⟨rfl, refines⟩
  | resolve path freshness now =>
    simp only [ScopeSession.answer, ScopeStore.answer, resolve_eq, refines.entry_eq _ handle]
    exact ⟨rfl, refines⟩
  | visible =>
    simp only [ScopeSession.answer, ScopeStore.answer, refines.visible_eq handle]
    exact ⟨rfl, refines⟩

theorem step (refines : session.Refines store) (operation : ScopeOperation)
    (spared : ∀ index, session.blackboard.isOccupied index = true →
      (session.step operation).2.blackboard.isOccupied index = false →
      session.blackboard.generationOf index + 1 < 2 ^ 32) :
    InStep (session.step operation) (store.step operation) := by
  cases operation with
  | clear =>
    refine ⟨rfl, refines.cleared ?_⟩
    intro index occupied nested
    have tears : session.blackboard.TearsDown _ _ := tearsDown_clearNestedScopes
    apply spared index occupied (tears.isOccupied_eq _)
    rw [List.mem_range'_1]
    have inside : index < session.blackboard.slots.length := by
      by_contra beyond
      rw [isOccupied, List.getElem?_eq_none (by omega)] at occupied
      cases occupied
    omega
  | ask number request =>
    simp only [ScopeSession.step, ScopeStore.step, refines.count] at spared ⊢
    cases handle : session.handles[number]? with
    | none =>
      rw [if_neg (Nat.not_lt.2 (List.getElem?_eq_none_iff.1 handle))]
      exact ⟨rfl, refines⟩
    | some id =>
      rw [if_pos (List.getElem?_eq_some_iff.1 handle).1]
      rw [handle] at spared
      exact refines.answer handle request spared

end Refines

theorem generationOf_answer (arena : session.blackboard.Arena) (id : ScopeId)
    (request : ScopeRequest) (index : Nat) :
    (session.answer id request).2.blackboard.generationOf index ≤
      session.blackboard.generationOf index +
        session.blackboard.teardown (session.answer id request).2.blackboard index := by
  cases request with
  | create =>
    simp only [answer]
    split
    · rename_i new after created
      rw [generationOf_createScope arena created]
      exact Nat.le_add_right _ _
    · exact Nat.le_add_right _ _
  | destroy =>
    by_cases torn : session.blackboard.isAlive id = true ∧ id.slot ≠ 0
    · exact (tearsDown_destroyScope torn.1 torn.2).generationOf_le index
    · have kept : (session.blackboard.destroyScope id).2 = session.blackboard := by
        rw [destroyScope, if_pos]
        by_cases first : id.slot = 0
        · exact Or.inl first
        · exact Or.inr (by simpa [first] using torn)
      simp only [answer, kept]
      exact Nat.le_add_right _ _
  | define name entry =>
    simp only [answer]
    split
    · rename_i after defined
      rcases define_eq_ok defined with ⟨scope, found, rfl⟩
      rw [generationOf_setBindings found]
      exact Nat.le_add_right _ _
    · exact Nat.le_add_right _ _
  | write name entry =>
    simp only [answer]
    split
    · rename_i after written
      rcases write_eq_ok written with ⟨owner, previous, scope, -, found, rfl⟩
      rw [generationOf_setBindings found]
      exact Nat.le_add_right _ _
    · exact Nat.le_add_right _ _
  | entry name => exact Nat.le_add_right _ _
  | resolve path freshness now => exact Nat.le_add_right _ _
  | visible => exact Nat.le_add_right _ _

theorem generationOf_step (arena : session.blackboard.Arena) (operation : ScopeOperation)
    (index : Nat) :
    (session.step operation).2.blackboard.generationOf index ≤
      session.blackboard.generationOf index +
        session.blackboard.teardown (session.step operation).2.blackboard index := by
  cases operation with
  | clear => exact tearsDown_clearNestedScopes.generationOf_le index
  | ask number request =>
    simp only [step]
    cases session.handles[number]? with
    | none => exact Nat.le_add_right _ _
    | some id => exact generationOf_answer arena id request index

/-- The generations that are left suffice for this operation and for the others. -/
theorem Spared.step (spared : session.Spared (operation :: operations))
    (arena : session.blackboard.Arena) :
    (∀ index, session.blackboard.isOccupied index = true →
      (session.step operation).2.blackboard.isOccupied index = false →
      session.blackboard.generationOf index + 1 < 2 ^ 32) ∧
    (session.step operation).2.Spared operations := by
  refine ⟨?_, ?_⟩
  · intro index before after
    have room := spared index
    simp only [teardowns, teardown, before, after, Bool.not_false, Bool.and_self,
      ↓reduceIte] at room
    omega
  · intro index
    have room := spared index
    have grown := generationOf_step arena operation index
    simp only [teardowns] at room
    omega

/-- A session and a store that are in step give the same answers. -/
theorem Refines.run (refines : session.Refines store) (spared : session.Spared operations) :
    (session.run operations).1 = (store.run operations).1 ∧
      (session.run operations).2.Refines (store.run operations).2 := by
  induction operations generalizing session store with
  | nil => exact ⟨rfl, refines⟩
  | cons operation rest ih =>
    rcases spared.step refines.numbered.arena with ⟨now, later⟩
    rcases refines.step operation now with ⟨same, next⟩
    rcases ih next later with ⟨others, last⟩
    simp only [ScopeSession.run, ScopeStore.run]
    exact ⟨by rw [same, others], last⟩

theorem run_append (session : ScopeSession) (earlier later : List ScopeOperation) :
    (session.run (earlier ++ later)).2 = ((session.run earlier).2.run later).2 := by
  induction earlier generalizing session with
  | nil => rfl
  | cons operation rest ih => exact ih _

theorem teardowns_append (session : ScopeSession) (index : Nat)
    (earlier later : List ScopeOperation) :
    session.teardowns index (earlier ++ later) =
      session.teardowns index earlier + (session.run earlier).2.teardowns index later := by
  induction earlier generalizing session with
  | nil => simp [teardowns, ScopeSession.run]
  | cons operation rest ih =>
    simp only [List.cons_append, teardowns, ih, ScopeSession.run]
    omega

theorem Spared.append {earlier later : List ScopeOperation} (refines : session.Refines store)
    (spared : session.Spared (earlier ++ later)) :
    session.Spared earlier ∧ (session.run earlier).2.Spared later := by
  refine ⟨?_, ?_⟩
  · intro index
    have room := spared index
    rw [teardowns_append] at room
    omega
  · induction earlier generalizing session store with
    | nil => exact spared
    | cons operation rest ih =>
      rcases spared.step refines.numbered.arena with ⟨now, others⟩
      exact ih (refines.step operation now).2 others

/-- Every operation tears down at most one scope in a slot. -/
theorem teardowns_le_length (session : ScopeSession) (index : Nat)
    (operations : List ScopeOperation) : session.teardowns index operations ≤ operations.length := by
  induction operations generalizing session with
  | nil => exact Nat.le_refl _
  | cons operation rest ih =>
    have others := ih (session.step operation).2
    simp only [teardowns, teardown, List.length_cons]
    split <;> omega

/-- Handles are never forgotten. -/
theorem handles_run (session : ScopeSession) (operations : List ScopeOperation) :
    ∃ more, (session.run operations).2.handles = session.handles ++ more := by
  have answered : ∀ (session : ScopeSession) id request,
      ∃ more, (session.answer id request).2.handles = session.handles ++ more := by
    intro session id request
    cases request with
    | create =>
      simp only [answer]
      split
      · exact ⟨_, rfl⟩
      · exact ⟨[], by simp⟩
    | define name entry =>
      simp only [answer]
      split <;> exact ⟨[], by simp⟩
    | write name entry =>
      simp only [answer]
      split <;> exact ⟨[], by simp⟩
    | destroy => exact ⟨[], by simp [answer]⟩
    | entry name => exact ⟨[], by simp [answer]⟩
    | resolve path freshness now => exact ⟨[], by simp [answer]⟩
    | visible => exact ⟨[], by simp [answer]⟩
  induction operations generalizing session with
  | nil => exact ⟨[], by simp [ScopeSession.run]⟩
  | cons operation rest ih =>
    rcases ih (session.step operation).2 with ⟨later, last⟩
    have stepped : ∃ more, (session.step operation).2.handles = session.handles ++ more := by
      cases operation with
      | clear => exact ⟨[], by simp [step]⟩
      | ask number request =>
        simp only [step]
        split
        · exact ⟨[], by simp⟩
        · exact answered session _ request
    rcases stepped with ⟨more, next⟩
    exact ⟨more ++ later, by rw [ScopeSession.run, last, next, List.append_assoc]⟩

/-- Walks outwards lead to older scopes, and so they end. -/
theorem Refines.wellFounded (refines : session.Refines store) : WellFounded fun outer inner =>
    session.blackboard.parent? inner = some (some outer) := by
  apply Subrelation.wf _ (measure fun id => session.handles.idxOf id).wf
  intro outer inner around
  have alive : session.blackboard.isAlive inner = true := isAlive_iff.2 ⟨_, around⟩
  rcases List.getElem?_of_mem (refines.numbered.owned inner alive) with ⟨number, handle⟩
  have there := refines.isAlive_eq handle
  rw [alive, eq_comm, Option.isSome_iff_exists] at there
  rcases there with ⟨values, there⟩
  rcases refines.exists_scope handle there with ⟨scope, found, -, parent⟩
  simp only [parent?, found, Option.map_some, parent, Option.some.injEq,
    Option.bind_eq_some_iff] at around
  rcases around with ⟨older, inside, place⟩
  have first := (List.getElem?_eq_some_iff.1 place)
  have second := (List.getElem?_eq_some_iff.1 handle)
  change session.handles.idxOf outer < session.handles.idxOf inner
  rw [← first.2, ← second.2, refines.numbered.nodup.idxOf_getElem,
    refines.numbered.nodup.idxOf_getElem]
  exact store.older inside

end ScopeSession

namespace ScopeStore

variable {store : ScopeStore} {number : Nat}

/-- A scope that is gone does not come back. -/
theorem content_step (operation : ScopeOperation) (created : number < store.count)
    (gone : store.content number = none) :
    number < (store.step operation).2.count ∧
      (store.step operation).2.content number = none := by
  have put : ∀ owner name entry, (store.put owner name entry).content number = none := by
    intro owner name entry
    simp only [ScopeStore.put, Function.update_apply]
    split
    · rename_i same
      rw [← same, gone]
      rfl
    · exact gone
  cases operation with
  | clear => exact ⟨created, by simp [step, clear, gone]⟩
  | ask other request =>
    simp only [step]
    split
    · cases request with
      | create =>
        cases there : store.content other with
        | none => simp [answer, store.create_eq_error there, created, gone]
        | some values =>
          rcases store.create_eq_ok there with ⟨next, added, count, -, content⟩
          simp only [answer, added, count, content]
          refine ⟨by omega, ?_⟩
          rw [Function.update_of_ne (Nat.ne_of_lt created), gone]
      | destroy =>
        simp only [answer, destroy]
        split
        · exact ⟨created, gone⟩
        · refine ⟨created, ?_⟩
          simp only [Function.update_apply]
          split
          · rfl
          · exact gone
      | define name entry =>
        simp only [answer, define]
        split
        · rename_i defined
          split at defined
          · cases defined
          · split at defined
            · cases defined
            · cases defined
              exact ⟨created, put other name entry⟩
        · exact ⟨created, gone⟩
      | write name entry =>
        simp only [answer, write]
        split
        · rename_i written
          split at written
          · cases written
            exact ⟨created, put _ name entry⟩
          · cases written
          · cases written
        · exact ⟨created, gone⟩
      | entry name => exact ⟨created, gone⟩
      | resolve path freshness now => exact ⟨created, gone⟩
      | visible => exact ⟨created, gone⟩
    · exact ⟨created, gone⟩

theorem content_run (operations : List ScopeOperation) (created : number < store.count)
    (gone : store.content number = none) : (store.run operations).2.content number = none := by
  induction operations generalizing store with
  | nil => exact gone
  | cons operation rest ih =>
    rcases content_step operation created gone with ⟨next, still⟩
    exact ih next still

end ScopeStore

namespace ScopeSession

open Blackboard

variable {session : ScopeSession} {store : ScopeStore} {id : ScopeId}

/-- A handle whose scope is gone does not become good again. -/
theorem Refines.stays_gone {operations : List ScopeOperation} (refines : session.Refines store)
    (spared : session.Spared operations) (listed : id ∈ session.handles)
    (gone : session.blackboard.isAlive id = false) :
    (session.run operations).2.blackboard.isAlive id = false := by
  rcases List.getElem?_of_mem listed with ⟨number, handle⟩
  have inside := (List.getElem?_eq_some_iff.1 handle).1
  rw [refines.isAlive_eq handle, Option.isSome_eq_false_iff, Option.isNone_iff_eq_none] at gone
  rcases session.handles_run operations with ⟨more, kept⟩
  have still : (session.run operations).2.handles[number]? = some id := by
    rw [kept, List.getElem?_append_left inside, handle]
  rw [(refines.run spared).2.isAlive_eq still,
    store.content_run operations (by rw [refines.count]; exact inside) gone]
  rfl

theorem spared_start {operations : List ScopeOperation}
    (spared : ∀ index, start.teardowns index operations < 2 ^ 32) : start.Spared operations := by
  intro index
  have first : start.blackboard.generationOf index = 0 := by
    cases index <;> rfl
  rw [first, Nat.zero_add]
  exact spared index

theorem arena_answer (arena : session.blackboard.Arena) (id : ScopeId) (request : ScopeRequest) :
    (session.answer id request).2.blackboard.Arena := by
  cases request with
  | create =>
    simp only [answer]
    split
    · rename_i created
      exact (arena.created created).arena
    · exact arena
  | destroy =>
    by_cases root : id.slot = 0
    · simpa [answer, destroyScope, root] using arena
    · exact (arena.destroyed root).arena
  | define name entry =>
    simp only [answer]
    split
    · rename_i defined
      exact (sameScopes_define defined).arena arena
    · exact arena
  | write name entry =>
    simp only [answer]
    split
    · rename_i written
      exact (sameScopes_write written).arena arena
    · exact arena
  | entry name => exact arena
  | resolve path freshness now => exact arena
  | visible => exact arena

theorem arena_step (arena : session.blackboard.Arena) (operation : ScopeOperation) :
    (session.step operation).2.blackboard.Arena := by
  cases operation with
  | clear => exact arena.clearNestedScopes
  | ask number request =>
    simp only [step]
    split
    · exact arena
    · exact arena_answer arena _ request

theorem arena_run (arena : session.blackboard.Arena) (operations : List ScopeOperation) :
    (session.run operations).2.blackboard.Arena := by
  induction operations generalizing session with
  | nil => exact arena
  | cons operation rest ih =>
    simp only [run]
    exact ih (arena_step arena operation)

/-- New slots are only made for new scopes, so that there are no more slots than there ever were
scopes. Every handle is for one of the slots. -/
structure Slotted (session : ScopeSession) : Prop where
  arena : session.blackboard.Arena
  inside : ∀ id ∈ session.handles, id.slot < session.blackboard.slots.length
  few : session.blackboard.slots.length ≤ session.handles.length

theorem slotted_start : start.Slotted := by
  refine ⟨empty_arena, fun id listed => ?_, Nat.le_refl _⟩
  rw [List.mem_singleton.1 (listed : id ∈ [ScopeId.root])]
  exact Nat.zero_lt_one

theorem Slotted.of_length {blackboard : Blackboard} (slotted : session.Slotted)
    (arena : blackboard.Arena)
    (length : blackboard.slots.length = session.blackboard.slots.length) :
    Slotted { session with blackboard := blackboard } :=
  ⟨arena, fun id listed => length ▸ slotted.inside id listed, length ▸ slotted.few⟩

theorem Slotted.created {new : ScopeId} {after : Blackboard} (slotted : session.Slotted)
    (created : session.blackboard.createScope id = .ok (new, after)) :
    Slotted ⟨after, session.handles ++ [new]⟩ := by
  have arena := (slotted.arena.created created).arena
  have grown : new.slot < after.slots.length ∧
      session.blackboard.slots.length ≤ after.slots.length ∧
      after.slots.length ≤ session.blackboard.slots.length + 1 := by
    simp only [createScope] at created
    split at created
    · split at created
      · rename_i index free isFree
        rcases slotted.arena.vacant index (by simp [isFree]) with ⟨-, generation, vacant⟩
        have inRange := (List.getElem?_eq_some_iff.1 vacant).1
        cases created
        simp [setSlot, inRange]
      · cases created
        simp
    · cases created
  refine ⟨arena, fun other listed => ?_, ?_⟩
  · rcases List.mem_append.1 listed with old | new
    · exact Nat.lt_of_lt_of_le (slotted.inside other old) grown.2.1
    · rw [List.mem_singleton.1 new]
      exact grown.1
  · have few := slotted.few
    simp only [List.length_append, List.length_singleton]
    omega

theorem Slotted.answer (slotted : session.Slotted) (id : ScopeId) (request : ScopeRequest) :
    (session.answer id request).2.Slotted := by
  cases request with
  | create =>
    simp only [ScopeSession.answer]
    split
    · rename_i created
      exact slotted.created created
    · exact slotted
  | destroy =>
    refine slotted.of_length (arena_answer slotted.arena id .destroy) ?_
    change (session.blackboard.destroyScope id).2.slots.length = _
    unfold destroyScope
    split <;> simp [setSlot]
  | define name entry =>
    simp only [ScopeSession.answer]
    split
    · rename_i defined
      rcases define_eq_ok defined with ⟨scope, found, rfl⟩
      exact slotted.of_length ((sameScopes_define defined).arena slotted.arena)
        (by simp [setBindings, found, setSlot])
    · exact slotted
  | write name entry =>
    simp only [ScopeSession.answer]
    split
    · rename_i written
      rcases write_eq_ok written with ⟨owner, previous, scope, -, found, rfl⟩
      exact slotted.of_length ((sameScopes_write written).arena slotted.arena)
        (by simp [setBindings, found, setSlot])
    · exact slotted
  | entry name => exact slotted
  | resolve path freshness now => exact slotted
  | visible => exact slotted

theorem Slotted.run (slotted : session.Slotted) (operations : List ScopeOperation) :
    (session.run operations).2.Slotted := by
  induction operations generalizing session with
  | nil => exact slotted
  | cons operation rest ih =>
    simp only [ScopeSession.run]
    refine ih ?_
    cases operation with
    | clear =>
      exact slotted.of_length slotted.arena.clearNestedScopes tearsDown_clearNestedScopes.length_eq
    | ask number request =>
      simp only [step]
      split
      · exact slotted
      · exact slotted.answer _ request

/-- Slots have numbers of 32 bits, unless more than 2^32 scopes were created. -/
theorem toNat_slot {operations : List ScopeOperation}
    (room : (start.run operations).2.handles.length ≤ 2 ^ 32)
    (listed : id ∈ (start.run operations).2.handles) : (UInt32.ofNat id.slot).toNat = id.slot := by
  have slotted := slotted_start.run operations
  rw [UInt32.toNat_ofNat']
  exact Nat.mod_eq_of_lt
    (Nat.lt_of_lt_of_le (slotted.inside id listed) (Nat.le_trans slotted.few room))

/-- As long as no slot is torn down 2^32 times, a session gives the answers of a store whose scopes
have a number each. No handle is returned twice, and none becomes good again after its scope was
destroyed; the root stays; a write changes the nearest definition and nothing else; and walks
outwards end. -/
theorem answers_as_store (operations : List ScopeOperation)
    (spared : ∀ index, start.teardowns index operations < 2 ^ 32) :
    let last := (start.run operations).2
    (start.run operations).1 = (ScopeStore.empty.run operations).1 ∧
      last.handles.Nodup ∧
      (∀ earlier later, operations = earlier ++ later → ∀ id ∈ (start.run earlier).2.handles,
        (start.run earlier).2.blackboard.isAlive id = false →
        last.blackboard.isAlive id = false) ∧
      last.blackboard.isAlive .root = true ∧
      (∀ id name entry after, last.blackboard.write id name entry = .ok after →
        ∃ owner previous, last.blackboard.Nearest name id owner previous ∧
          ∀ other, after.view other =
            if other = owner then
              (last.blackboard.view owner).map fun (outer, values) =>
                (outer, Function.update values name (some entry))
            else last.blackboard.view other) ∧
      WellFounded fun outer inner => last.blackboard.parent? inner = some (some outer) := by
  rcases refines_start.run (spared_start spared) with ⟨same, refines⟩
  refine ⟨same, refines.numbered.nodup, ?_, ?_, ?_, refines.wellFounded⟩
  · rintro earlier later rfl id listed gone
    rcases (spared_start spared).append refines_start with ⟨first, rest⟩
    rw [run_append]
    exact (refines_start.run first).2.stays_gone rest listed gone
  · rw [isAlive_eq_isSome, refines.numbered.arena.parent?_root]
    rfl
  · exact fun id name entry after written => view_write written

/-- A scope is destroyed before the one in it, and its slot is used again. -/
def reuse : List ScopeOperation :=
  [.ask 0 .create, .ask 1 .create, .ask 1 .destroy, .ask 0 .create,
    .ask 3 (.define "battery" ⟨.int 80, .zero, none⟩), .ask 2 (.entry "battery"),
    .ask 1 (.entry "battery"), .clear, .ask 3 .visible]

theorem answers_reuse :
    (start.run reuse).2.handles = [.root, ⟨1, 0⟩, ⟨2, 0⟩, ⟨1, 1⟩] ∧
      (start.run reuse).1 = (ScopeStore.empty.run reuse).1 := by
  refine ⟨rfl, (answers_as_store reuse ?_).1⟩
  intro index
  have few : reuse.length < 2 ^ 32 := by decide
  exact Nat.lt_of_le_of_lt (teardowns_le_length start index reuse) few

end ScopeSession

end BehaviorTree
