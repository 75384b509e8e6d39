import BehaviorTree.Proofs.Blackboard.Outputs
import BehaviorTree.Proofs.Blackboard.Refinement
import BehaviorTree.Proofs.Blackboard.Walks
import Mathlib.Data.List.TakeWhile

/-!
# Bindings of scopes

What a scope holds for a variable is told by `binding?`. A write puts an entry into the scope with
the nearest definition of a variable, and a definition puts it into a scope without one; all other
bindings of all scopes stay as they are. Which definition of a variable is the nearest one depends
on the scopes that define it and not on what they hold, so that does not change with what is
written.
-/

namespace BehaviorTree

namespace Blackboard

/-- What a scope holds for a variable, if there is such a scope and it defines the variable. -/
def binding? (blackboard : Blackboard) (id : ScopeId) (name : String) : Option Entry :=
  (blackboard.scope? id).bind fun scope => scope.bindings.get? name

/-- One variable of one scope holds an entry, and nothing else changes. -/
structure Puts (before : Blackboard) (owner : ScopeId) (name : String) (entry : Entry)
    (after : Blackboard) : Prop where
  scopes : SameScopes before after
  size : after.slots.length = before.slots.length
  held : after.binding? owner name = some entry
  kept : ∀ id other, id ≠ owner ∨ other ≠ name → after.binding? id other = before.binding? id other

variable {blackboard before middle after : Blackboard} {id owner : ScopeId} {name : String}
  {entry previous : Entry} {scope : Scope}

theorem puts_setBindings (found : blackboard.scope? owner = some scope) (name : String)
    (entry : Entry) :
    blackboard.Puts owner name entry
      (blackboard.setBindings owner (scope.bindings.insert name entry)) := by
  refine ⟨sameScopes_setBindings _, length_slots_setBindings _, ?_, ?_⟩
  · simp [binding?, scope?_setBindings found]
  · intro id other elsewhere
    rw [binding?, scope?_setBindings found]
    by_cases here : id = owner
    · have different : other ≠ name := elsewhere.resolve_left (not_not_intro here)
      simp [here, binding?, found, Table.get?_insert_of_ne different]
    · simp [here, binding?]

theorem binding?_of_view {outer : Option ScopeId} {values : String → Option Entry}
    (found : blackboard.view id = some (outer, values)) :
    blackboard.parent? id = some outer ∧ ∀ name, blackboard.binding? id name = values name := by
  rcases Option.map_eq_some_iff.1 found with ⟨scope, present, same⟩
  cases same
  simp [parent?, binding?, present]

theorem exists_view_of_parent? {outer : Option ScopeId}
    (around : blackboard.parent? id = some outer) :
    ∃ values, blackboard.view id = some (outer, values) := by
  rcases Option.map_eq_some_iff.1 around with ⟨scope, present, rfl⟩
  exact ⟨scope.bindings.get?, by simp [view, present]⟩

theorem nearest_here (held : blackboard.binding? id name = some entry) :
    blackboard.Nearest name id id entry := by
  rcases Option.bind_eq_some_iff.1 held with ⟨scope, present, holds⟩
  exact .here (by rw [view, present]; rfl) holds

theorem nearest_outside {outer : ScopeId} (around : blackboard.parent? id = some (some outer))
    (undefined : blackboard.binding? id name = none)
    (nearest : blackboard.Nearest name outer owner entry) :
    blackboard.Nearest name id owner entry := by
  rcases exists_view_of_parent? around with ⟨values, found⟩
  exact .outside found ((binding?_of_view found).2 name ▸ undefined) nearest

theorem Nearest.binding?_eq (nearest : blackboard.Nearest name id owner entry) :
    blackboard.binding? owner name = some entry := by
  induction nearest with
  | here found defined => rw [(binding?_of_view found).2, defined]
  | outside _ _ _ ih => exact ih

/-- The nearest definition is the same one on every blackboard with the same definitions. -/
theorem Nearest.transfer (parents : ∀ id, after.parent? id = before.parent? id)
    (defined : ∀ id, (after.binding? id name).isSome = (before.binding? id name).isSome)
    (nearest : before.Nearest name id owner previous) :
    ∃ entry, after.Nearest name id owner entry := by
  induction nearest with
  | @here id outer values entry found holds =>
    have there : (after.binding? id name).isSome := by
      rw [defined, (binding?_of_view found).2, holds, Option.isSome_some]
    rcases Option.isSome_iff_exists.1 there with ⟨other, held⟩
    exact ⟨other, nearest_here held⟩
  | @outside id outer owner values entry found undefined _ ih =>
    rcases ih with ⟨other, nearest⟩
    have around := (parents id).trans (binding?_of_view found).1
    have absent : after.binding? id name = none := by
      rw [← Option.isNone_iff_eq_none, ← Option.not_isSome, defined, (binding?_of_view found).2,
        undefined]
      rfl
    exact ⟨other, nearest_outside around absent nearest⟩

/-- A variable that is defined on the way outwards is found there. -/
theorem exists_findDefinition (nearest : blackboard.Nearest name id owner entry) :
    ∃ fuel, blackboard.findDefinition name fuel id = .ok (owner, entry) := by
  induction nearest with
  | here found defined =>
    rcases Option.map_eq_some_iff.1 found with ⟨scope, present, same⟩
    cases same
    exact ⟨1, by simp [findDefinition, present, defined]⟩
  | outside found undefined _ ih =>
    rcases ih with ⟨fuel, located⟩
    rcases Option.map_eq_some_iff.1 found with ⟨scope, present, same⟩
    rw [Prod.mk.injEq] at same
    rcases same with ⟨around, rfl⟩
    exact ⟨fuel + 1, by simp [findDefinition, present, undefined, around, located]⟩

theorem findDefinition_add {fuel : Nat} (located : blackboard.findDefinition name fuel id =
    .ok (owner, entry)) (extra : Nat) :
    blackboard.findDefinition name (fuel + extra) id = .ok (owner, entry) := by
  rw [findDefinition_of_ended ?_ extra, located]
  refine Nat.lt_of_le_of_ne length_passed_le fun unended => ?_
  rw [findDefinition_of_unended unended] at located
  cases located

/-- The search for a variable finds its nearest definition. -/
theorem Arena.definition_eq_ok_iff (arena : blackboard.Arena) :
    blackboard.definition id name = .ok (owner, entry) ↔
      blackboard.Nearest name id owner entry := by
  refine ⟨nearest_of_findDefinition, fun nearest => ?_⟩
  rcases exists_findDefinition nearest with ⟨fuel, located⟩
  rw [← arena.findDefinition_enough name id fuel, Nat.add_comm]
  exact findDefinition_add located _

theorem Arena.entry_eq_ok_iff (arena : blackboard.Arena) :
    blackboard.entry id name = .ok entry ↔ ∃ owner, blackboard.Nearest name id owner entry := by
  simp only [Blackboard.entry, ← arena.definition_eq_ok_iff]
  cases blackboard.definition id name with
  | error error => simp [Except.map]
  | ok located => simp [Except.map, Prod.ext_iff]

theorem puts_write (written : blackboard.write id name entry = .ok after) :
    ∃ owner previous, blackboard.Nearest name id owner previous ∧
      blackboard.Puts owner name entry after := by
  rcases write_eq_ok written with ⟨owner, previous, scope, located, found, rfl⟩
  exact ⟨owner, previous, nearest_of_findDefinition located, puts_setBindings found name entry⟩

theorem puts_define (defined : blackboard.define id name entry = .ok after) :
    blackboard.binding? id name = none ∧ blackboard.Puts id name entry after := by
  unfold define at defined
  split at defined
  · cases defined
  · rename_i scope found
    split at defined
    · cases defined
    · rename_i absent
      cases defined
      refine ⟨?_, puts_setBindings found name entry⟩
      simpa [binding?, found, Table.contains] using absent

namespace Puts

variable (puts : before.Puts owner name entry after)
include puts

/-- What is put where a variable was defined changes nothing about what is defined. -/
theorem isSome_binding? (held : before.binding? owner name = some previous) (id : ScopeId)
    (other : String) : (after.binding? id other).isSome = (before.binding? id other).isSome := by
  by_cases here : id = owner ∧ other = name
  · rw [here.1, here.2, puts.held, held, Option.isSome_some, Option.isSome_some]
  · rw [puts.kept id other (not_and_or.1 here)]

/-- What is put into the nearest definition of a variable is what the variable holds then. -/
theorem nearest (nearest : before.Nearest name id owner previous) :
    after.Nearest name id owner entry := by
  rcases nearest.transfer puts.scopes.parents
    fun other => puts.isSome_binding? nearest.binding?_eq other name with ⟨held, nearestAfter⟩
  have same := nearestAfter.binding?_eq
  rw [puts.held, Option.some.injEq] at same
  exact same ▸ nearestAfter

theorem findDefinition_eq {other : String} (different : other ≠ name) (fuel : Nat) (id : ScopeId) :
    after.findDefinition other fuel id = before.findDefinition other fuel id := by
  induction fuel generalizing id with
  | zero => rfl
  | succ fuel ih =>
    have around := puts.scopes.parents id
    have holds := puts.kept id other (Or.inr different)
    unfold parent? at around
    unfold binding? at holds
    cases found : before.scope? id with
    | none =>
      rw [found, Option.map_none, Option.map_eq_none_iff] at around
      simp only [findDefinition, found, around]
    | some scope =>
      rw [found, Option.map_some, Option.map_eq_some_iff] at around
      rcases around with ⟨same, foundAfter, parent⟩
      rw [found, foundAfter, Option.bind_some, Option.bind_some] at holds
      simp only [findDefinition, found, foundAfter, holds, parent]
      split <;> first | rfl | exact ih _

/-- Other variables are found as before. -/
theorem entry_eq {other : String} (different : other ≠ name) (id : ScopeId) :
    after.entry id other = before.entry id other := by
  rw [Blackboard.entry, definition, puts.size, puts.findDefinition_eq different]
  rfl

end Puts

/-- What is put out is put into the nearest definition of the variable, or else into the scope. -/
theorem puts_outputTo (written : outputTo blackboard id name entry = .ok after) :
    ∃ owner, after.Nearest name id owner entry ∧ blackboard.Puts owner name entry after ∧
      ((∃ previous, blackboard.Nearest name id owner previous) ∨
        owner = id ∧ blackboard.binding? id name = none) := by
  unfold outputTo at written
  split at written
  · rcases puts_define written with ⟨undefined, puts⟩
    exact ⟨id, nearest_here puts.held, puts, Or.inr ⟨rfl, undefined⟩⟩
  · rcases puts_write written with ⟨owner, previous, nearest, puts⟩
    exact ⟨owner, puts.nearest nearest, puts, Or.inl ⟨previous, nearest⟩⟩

/-- The name of a path is what stands before its first dot. -/
theorem toList_splitPath (path : String) :
    (splitPath path).1.toList = path.toList.takeWhile (· ≠ '.') := by
  unfold splitPath splitAt
  dsimp only
  rw [String.toList_ofList]
  induction path.toList with
  | nil => rfl
  | cons character rest ih =>
    rw [List.foldr_cons, List.takeWhile_cons]
    by_cases separates : character = '.'
    · simp [separates]
    · simp [separates, ih]

theorem not_mem_splitPath (path : String) : '.' ∉ (splitPath path).1.toList := by
  rw [toList_splitPath]
  intro listed
  simpa using List.mem_takeWhile_imp listed

/-- A path without a dot is the name of a variable. -/
theorem splitPath_of_not_mem {path : String} (plain : '.' ∉ path.toList) :
    splitPath path = (path, []) := by
  refine Prod.ext ?_ ?_
  · rw [← String.toList_inj, toList_splitPath, List.takeWhile_eq_self_iff]
    intro character listed
    rw [decide_eq_true_eq]
    rintro rfl
    exact plain listed
  · unfold splitPath splitAt
    dsimp only
    generalize path.toList = characters at plain
    induction characters with
    | nil => rfl
    | cons character rest ih =>
      rw [List.mem_cons, not_or] at plain
      rw [List.foldr_cons, if_neg (Ne.symm plain.1)]
      exact ih plain.2

theorem resolveValue_eq (blackboard : Blackboard) (id : ScopeId) (path : String) :
    blackboard.resolveValue id path =
      (blackboard.entry id (splitPath path).1).bind
        (followPath (splitPath path).1 (splitPath path).2) := rfl

theorem followPath_nil (name : String) (entry : Entry) :
    followPath name [] entry = .ok entry.value := rfl

/-- Nobody finds a variable too old that is written just now. -/
theorem resolve_just_written (entry : Entry) (path : String) (freshness : Freshness) :
    entry.resolve path freshness entry.writtenAt =
      (followPath (splitPath path).1 (splitPath path).2 entry).map .value := by
  have fresh : ∀ maxAge, ¬ maxAge < entry.writtenAt.since entry.writtenAt := by
    intro maxAge older
    exact Nat.not_lt_zero _ (Nat.lt_of_lt_of_eq older (Nat.sub_self _))
  unfold Entry.resolve
  cases freshness.maxAge with
  | none => rfl
  | some maxAge => simp only [fresh, if_false]

/-- A variable that has just been written is fresh enough for every reader. -/
theorem resolve_of_just_written {path : String} (plain : '.' ∉ path.toList)
    (found : blackboard.entry id path = .ok entry) (freshness : Freshness) :
    blackboard.resolve id path freshness entry.writtenAt = .ok (.value entry.value) ∧
      blackboard.resolveValue id path = .ok entry.value := by
  rw [Blackboard.resolve_eq, resolveValue_eq, splitPath_of_not_mem plain, found]
  refine ⟨?_, rfl⟩
  rw [Except.bind, resolve_just_written, splitPath_of_not_mem plain, followPath_nil, Except.map]

/-- What is read at a path is the same unless the variable of the path is written. -/
theorem Puts.resolve_eq (puts : before.Puts owner name entry after) {path : String}
    (different : (splitPath path).1 ≠ name) (id : ScopeId) (freshness : Freshness)
    (now : Duration) :
    after.resolve id path freshness now = before.resolve id path freshness now ∧
      after.resolveValue id path = before.resolveValue id path := by
  simp only [Blackboard.resolve_eq, resolveValue_eq, puts.entry_eq different, and_self]

/-- Variables are written from a scope, each into its nearest definition, and nothing else
changes. -/
structure Assigns (before : Blackboard) (id : ScopeId) (values : String → Option Entry)
    (after : Blackboard) : Prop where
  scopes : SameScopes before after
  written : ∀ name entry, values name = some entry → ∃ owner previous,
    before.Nearest name id owner previous ∧ after.binding? owner name = some entry
  kept : ∀ other name, (values name = none ∨ ∀ previous, ¬ before.Nearest name id other previous) →
    after.binding? other name = before.binding? other name

theorem Nearest.unique {other : ScopeId} {held : Entry}
    (nearest : blackboard.Nearest name id owner entry)
    (also : blackboard.Nearest name id other held) : other = owner := by
  induction nearest with
  | here found defined =>
    cases also with
    | here => rfl
    | outside foundToo undefined _ =>
      rw [found] at foundToo
      cases foundToo
      rw [defined] at undefined
      cases undefined
  | outside found undefined _ ih =>
    cases also with
    | here foundToo defined =>
      rw [found] at foundToo
      cases foundToo
      rw [defined] at undefined
      cases undefined
    | outside foundToo _ nearest =>
      rw [found] at foundToo
      cases foundToo
      exact ih nearest

namespace Assigns

variable {values : String → Option Entry}

theorem refl (blackboard : Blackboard) (id : ScopeId) :
    blackboard.Assigns id (fun _ => none) blackboard :=
  ⟨.refl blackboard, fun _ _ impossible => (by cases impossible), fun _ _ _ => rfl⟩

variable (assigns : before.Assigns id values middle)
include assigns

/-- No variable is defined and no definition is lost. -/
theorem isSome_binding? (other : ScopeId) (name : String) :
    (middle.binding? other name).isSome = (before.binding? other name).isSome := by
  by_cases kept : values name = none ∨ ∀ previous, ¬ before.Nearest name id other previous
  · rw [assigns.kept other name kept]
  · simp only [not_or, not_forall, not_not] at kept
    rcases kept with ⟨present, previous, nearest⟩
    rcases Option.ne_none_iff_exists'.1 present with ⟨entry, given⟩
    rcases assigns.written name entry given with ⟨owner, _, nearestToo, held⟩
    cases nearest.unique nearestToo
    rw [held, nearest.binding?_eq, Option.isSome_some, Option.isSome_some]

/-- One more variable is written. -/
theorem write (wrote : middle.write id name entry = .ok after) :
    before.Assigns id (Function.update values name (some entry)) after := by
  rcases puts_write wrote with ⟨owner, held, nearestLater, puts⟩
  rcases nearestLater.transfer (fun other => (assigns.scopes.parents other).symm)
    (fun other => (assigns.isSome_binding? other name).symm) with ⟨previous, nearest⟩
  refine ⟨assigns.scopes.trans puts.scopes, ?_, ?_⟩
  · intro other given
    rw [Function.update_apply]
    split
    · rename_i same
      rintro ⟨⟩
      exact ⟨owner, previous, same ▸ nearest, same ▸ puts.held⟩
    · rename_i different
      intro given
      rcases assigns.written other _ given with ⟨place, before, nearest, held⟩
      exact ⟨place, before, nearest, (puts.kept place other (Or.inr different)).trans held⟩
  · intro place other
    rw [Function.update_apply]
    split
    · rename_i same
      subst same
      intro elsewhere
      have away := elsewhere.resolve_left (Option.some_ne_none entry)
      have different : place ≠ owner := fun same => away previous (same ▸ nearest)
      rw [puts.kept place other (Or.inl different)]
      exact assigns.kept place other (Or.inr away)
    · rename_i different
      intro elsewhere
      rw [puts.kept place other (Or.inr different)]
      exact assigns.kept place other elsewhere

/-- A variable that was defined before can be written, whatever was written meanwhile. -/
theorem exists_write (arena : before.Arena) (nearest : before.Nearest name id owner previous)
    (entry : Entry) : ∃ after, middle.write id name entry = .ok after := by
  rcases nearest.transfer assigns.scopes.parents
    (fun other => assigns.isSome_binding? other name) with ⟨held, nearestLater⟩
  have located := (assigns.scopes.arena arena).definition_eq_ok_iff.2 nearestLater
  rcases Option.bind_eq_some_iff.1 nearestLater.binding?_eq with ⟨scope, found, -⟩
  exact ⟨_, by rw [Blackboard.write, located]; simp only [found]; rfl⟩

end Assigns

end Blackboard

end BehaviorTree
