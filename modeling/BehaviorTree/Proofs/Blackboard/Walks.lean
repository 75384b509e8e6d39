import BehaviorTree.Proofs.Blackboard.Scopes
import BehaviorTree.Proofs.Table
import Mathlib.Data.List.Nodup
import Mathlib.Data.List.Perm.Subperm
import Mathlib.Logic.Relation

/-!
# Walks outwards

A variable is searched for through as many scopes as there are slots. That is always enough: a walk
that ends meets no slot twice and stops before the root is left, and a walk that never ends finds
nothing, however long it is. The visible variables are collected on the same walk, so they are those
that are found.
-/

namespace BehaviorTree

namespace Blackboard

/-- Where the search for a variable goes on if it is not found in a scope. -/
def outward (blackboard : Blackboard) (name : String) (id : ScopeId) : Option ScopeId :=
  match blackboard.scope? id with
  | none => none
  | some scope =>
    match scope.bindings.get? name with
    | some _ => none
    | none => scope.parent

/-- The scopes in which a search for a variable does not find it, at most `fuel` of them. -/
def passed (blackboard : Blackboard) (name : String) : (fuel : Nat) → ScopeId → List ScopeId
  | 0, _ => []
  | fuel + 1, id =>
    match blackboard.outward name id with
    | none => []
    | some outer => id :: passed blackboard name fuel outer

variable {blackboard : Blackboard} {id outer : ScopeId} {name : String} {fuel : Nat}

theorem passed_of_outward (goesOn : blackboard.outward name id = some outer) :
    blackboard.passed name (fuel + 1) id = id :: blackboard.passed name fuel outer := by
  simp only [passed, goesOn]

theorem findDefinition_of_outward (goesOn : blackboard.outward name id = some outer) :
    blackboard.findDefinition name (fuel + 1) id = blackboard.findDefinition name fuel outer := by
  unfold outward at goesOn
  split at goesOn
  · cases goesOn
  · rename_i scope found
    split at goesOn
    · cases goesOn
    · rename_i missing
      simp only [findDefinition, found, missing, goesOn]

/-- A search that goes on nowhere has the same result however long it may take. -/
theorem findDefinition_of_stays (stays : blackboard.outward name id = none) (extra : Nat) :
    blackboard.findDefinition name (fuel + 1 + extra) id =
      blackboard.findDefinition name (fuel + 1) id := by
  rw [Nat.succ_add]
  unfold outward at stays
  split at stays
  · rename_i gone
    simp only [findDefinition, gone]
  · rename_i scope found
    split at stays
    · rename_i entry bound
      simp only [findDefinition, found, bound]
    · rename_i missing
      simp only [findDefinition, found, missing, stays]

theorem length_passed_le : (blackboard.passed name fuel id).length ≤ fuel := by
  induction fuel generalizing id with
  | zero => exact Nat.le_refl 0
  | succ fuel ih =>
    unfold passed
    split
    · exact Nat.zero_le _
    · exact Nat.succ_le_succ ih

/-- A search that does not use all of its fuel has the same result with more of it. -/
theorem findDefinition_of_ended (ended : (blackboard.passed name fuel id).length < fuel)
    (extra : Nat) :
    blackboard.findDefinition name (fuel + extra) id = blackboard.findDefinition name fuel id := by
  induction fuel generalizing id with
  | zero => exact absurd ended (Nat.not_lt_zero _)
  | succ fuel ih =>
    cases goesOn : blackboard.outward name id with
    | none => exact findDefinition_of_stays goesOn extra
    | some outer =>
      rw [passed_of_outward goesOn, List.length_cons, Nat.succ_lt_succ_iff] at ended
      rw [Nat.succ_add, findDefinition_of_outward goesOn, findDefinition_of_outward goesOn]
      exact ih ended

theorem findDefinition_of_unended (unended : (blackboard.passed name fuel id).length = fuel) :
    blackboard.findDefinition name fuel id = .error (.notFound name) := by
  induction fuel generalizing id with
  | zero => rfl
  | succ fuel ih =>
    cases goesOn : blackboard.outward name id with
    | none =>
      simp only [passed, goesOn] at unended
      cases unended
    | some outer =>
      rw [passed_of_outward goesOn, List.length_cons, Nat.succ_inj] at unended
      rw [findDefinition_of_outward goesOn]
      exact ih unended

/-- A search may come from one scope to another one. -/
def LeadsOutward (blackboard : Blackboard) (name : String) (outer inner : ScopeId) : Prop :=
  blackboard.outward name inner = some outer

/-- From a scope, the search for a variable comes to an end. -/
def SearchEnds (blackboard : Blackboard) (name : String) (id : ScopeId) : Prop :=
  Acc (blackboard.LeadsOutward name) id

theorem searchEnds_of_ended (ended : (blackboard.passed name fuel id).length < fuel) :
    blackboard.SearchEnds name id := by
  induction fuel generalizing id with
  | zero => exact absurd ended (Nat.not_lt_zero _)
  | succ fuel ih =>
    refine ⟨id, fun outer goesOn => ih ?_⟩
    rw [passed_of_outward goesOn, List.length_cons, Nat.succ_lt_succ_iff] at ended
    exact ended

theorem leads_of_mem_passed {other : ScopeId} (listed : other ∈ blackboard.passed name fuel id) :
    Relation.ReflTransGen (blackboard.LeadsOutward name) other id ∧
      ∃ outer, blackboard.outward name other = some outer := by
  induction fuel generalizing id with
  | zero => cases listed
  | succ fuel ih =>
    cases goesOn : blackboard.outward name id with
    | none =>
      simp only [passed, goesOn] at listed
      cases listed
    | some outer =>
      rw [passed_of_outward goesOn] at listed
      rcases List.mem_cons.1 listed with rfl | later
      · exact ⟨.refl, outer, goesOn⟩
      · exact ⟨(ih later).1.tail goesOn, (ih later).2⟩

theorem not_cycle_of_searchEnds (ends : blackboard.SearchEnds name id) :
    ¬ Relation.TransGen (blackboard.LeadsOutward name) id id := by
  have descends := ends.transGen
  clear ends
  induction descends with
  | intro id _ ih => exact fun cycle => ih id cycle cycle

/-- A search that ends passes no scope twice. -/
theorem nodup_passed (ends : blackboard.SearchEnds name id) :
    (blackboard.passed name fuel id).Nodup := by
  induction fuel generalizing id with
  | zero => exact List.nodup_nil
  | succ fuel ih =>
    cases goesOn : blackboard.outward name id with
    | none =>
      simp only [passed, goesOn]
      exact List.nodup_nil
    | some outer =>
      rw [passed_of_outward goesOn, List.nodup_cons]
      refine ⟨fun again => ?_, ih (ends.inv goesOn)⟩
      exact not_cycle_of_searchEnds ends (.tail' (leads_of_mem_passed again).1 goesOn)

/-- A search leaves a scope other than the root, in a slot of its own. -/
theorem Arena.slot_of_outward (arena : blackboard.Arena)
    (goesOn : blackboard.outward name id = some outer) :
    id.slot ≠ 0 ∧ ∃ scope, blackboard.slots[id.slot]? = some ⟨id.generation, some scope⟩ := by
  unfold outward at goesOn
  split at goesOn
  · cases goesOn
  · rename_i scope found
    split at goesOn
    · cases goesOn
    · have alive : blackboard.isAlive id = true := by rw [isAlive, found, Option.isSome_some]
      refine ⟨fun first => ?_, scope, scope?_eq_some_iff.1 found⟩
      have root := arena.parent?_root
      rw [← arena.eq_root alive first, parent?, found, Option.map_some, Option.some.injEq] at root
      rw [root] at goesOn
      cases goesOn

/-- A search that ends passes fewer scopes than there are slots. -/
theorem Arena.length_passed_lt (arena : blackboard.Arena) (ends : blackboard.SearchEnds name id) :
    (blackboard.passed name fuel id).length < blackboard.slots.length := by
  rcases arena.root with ⟨bindings, rootSlot⟩
  have positive : 0 < blackboard.slots.length := (List.getElem?_eq_some_iff.1 rootSlot).1
  have slotOf : ∀ other ∈ blackboard.passed name fuel id, other.slot ≠ 0 ∧
      ∃ scope, blackboard.slots[other.slot]? = some ⟨other.generation, some scope⟩ := by
    intro other listed
    rcases (leads_of_mem_passed listed).2 with ⟨outer, goesOn⟩
    exact arena.slot_of_outward goesOn
  have apart : ((blackboard.passed name fuel id).map ScopeId.slot).Nodup := by
    refine List.Nodup.map_on ?_ (nodup_passed ends)
    rintro ⟨place, first⟩ listed ⟨_, second⟩ otherListed rfl
    rcases slotOf _ listed with ⟨-, scope, slot⟩
    rcases slotOf _ otherListed with ⟨-, other, same⟩
    rw [slot] at same
    simp only [Option.some.injEq, ScopeSlot.mk.injEq] at same
    rw [same.1]
  have inside : (blackboard.passed name fuel id).map ScopeId.slot ⊆
      List.range' 1 (blackboard.slots.length - 1) := by
    intro place listed
    rcases List.mem_map.1 listed with ⟨other, passes, rfl⟩
    rcases slotOf other passes with ⟨nonzero, scope, slot⟩
    have bound := (List.getElem?_eq_some_iff.1 slot).1
    rw [List.mem_range'_1]
    omega
  have fewer := (apart.subperm inside).length_le
  rw [List.length_map, List.length_range'] at fewer
  omega

/-- A variable is found through as many scopes as there are slots, or not at all. -/
theorem Arena.findDefinition_enough (arena : blackboard.Arena) (name : String) (id : ScopeId)
    (extra : Nat) :
    blackboard.findDefinition name (blackboard.slots.length + extra) id =
      blackboard.definition id name := by
  by_cases ends : blackboard.SearchEnds name id
  · exact findDefinition_of_ended (arena.length_passed_lt ends) extra
  · have unended : ∀ fuel, (blackboard.passed name fuel id).length = fuel := fun fuel =>
      Nat.le_antisymm length_passed_le
        (Nat.le_of_not_lt fun ended => ends (searchEnds_of_ended ended))
    rw [findDefinition_of_unended (unended _), definition, findDefinition_of_unended (unended _)]

/-- The entry of a name in a list of variables. -/
def lookUp (bindings : List (String × Entry)) (name : String) : Option Entry :=
  (bindings.find? fun entry => entry.1 = name).map Prod.snd

theorem lookUp_see (seen : List (String × Entry)) (found : String × Entry) (name : String) :
    lookUp (see seen found) name =
      (lookUp seen name).or (if found.1 = name then some found.2 else none) := by
  unfold see lookUp
  split
  · rename_i already
    rcases List.any_eq_true.1 already with ⟨other, listed, named⟩
    by_cases same : found.1 = name
    · have found? : (seen.find? fun entry => entry.1 = name).isSome = true := by
        rw [List.find?_isSome]
        refine ⟨other, listed, ?_⟩
        simpa [same] using named
      rcases Option.isSome_iff_exists.1 found? with ⟨entry, isEntry⟩
      simp [isEntry]
    · simp [same]
  · rw [List.find?_append, List.find?_singleton]
    by_cases same : found.1 = name
    · cases seen.find? fun entry => entry.1 = name <;> simp [same]
    · simp [same]

/-- A variable that is not hidden yet gets the value of the first entry with its name. -/
theorem lookUp_foldl_see (bindings seen : List (String × Entry)) (name : String) :
    lookUp (bindings.foldl see seen) name = (lookUp seen name).or (lookUp bindings name) := by
  induction bindings generalizing seen with
  | nil => simp [lookUp]
  | cons first rest ih =>
    rw [List.foldl_cons, ih, lookUp_see, Option.or_assoc]
    by_cases same : first.1 = name <;> simp [lookUp, same]

@[simp]
theorem collectVisible_none (seen : List (String × Entry)) (fuel : Nat) :
    blackboard.collectVisible seen fuel none = seen := by
  cases fuel <;> rfl

/-- A collection holds what it began with, and besides what a search finds that goes as far. Where
a search fails because a scope is gone, the collection ends. -/
theorem lookUp_collectVisible (seen : List (String × Entry)) (fuel : Nat) (id : ScopeId)
    (name : String) :
    lookUp (blackboard.collectVisible seen fuel (some id)) name =
      (lookUp seen name).or ((blackboard.findDefinition name fuel id).map Prod.snd).toOption := by
  induction fuel generalizing seen id with
  | zero => simp [collectVisible, findDefinition, Except.map, Except.toOption]
  | succ fuel ih =>
    cases found : blackboard.scope? id with
    | none => simp [collectVisible, findDefinition, found, Except.map, Except.toOption]
    | some scope =>
      have collected := lookUp_foldl_see scope.bindings.entries seen name
      rw [show lookUp scope.bindings.entries name = scope.bindings.get? name from rfl] at collected
      cases defined : scope.bindings.get? name with
      | some entry =>
        -- the definition is found here, and hides the ones that the collection goes on to
        simp only [collectVisible, findDefinition, Option.bind_some, found, defined, Except.map,
          Except.toOption]
        rw [defined] at collected
        cases around : scope.parent with
        | none => rw [collectVisible_none, collected]
        | some outer =>
          rw [ih, collected]
          cases lookUp seen name <;> rfl
      | none =>
        rw [defined, Option.or_none] at collected
        cases around : scope.parent with
        | none =>
          simp [collectVisible, findDefinition, found, defined, around, collected, Except.map,
            Except.toOption]
        | some outer =>
          simp only [collectVisible, findDefinition, Option.bind_some, found, defined, around]
          rw [ih, collected]

theorem get?_visible (id : ScopeId) (name : String) :
    (blackboard.visible id).get? name = (blackboard.entry id name).toOption := by
  change lookUp (blackboard.collectVisible [] blackboard.slots.length (some id)) name = _
  rw [lookUp_collectVisible, Blackboard.entry, definition]
  exact Option.none_or

/-- To collect through more scopes than there are slots finds nothing else. -/
theorem Arena.lookUp_collectVisible_enough (arena : blackboard.Arena) (id : ScopeId)
    (name : String) (extra : Nat) :
    lookUp (blackboard.collectVisible [] (blackboard.slots.length + extra) (some id)) name =
      (blackboard.visible id).get? name := by
  rw [lookUp_collectVisible, arena.findDefinition_enough, get?_visible, Blackboard.entry]
  exact Option.none_or

end Blackboard

end BehaviorTree
