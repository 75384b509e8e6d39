import BehaviorTree.Engine.Context
import BehaviorTree.Proofs.Blackboard.Scopes

/-!
# Access to variables

A scope is rooted if it exists and every walk outwards leads to the root. From a rooted scope,
variables are read, written and defined without ever meeting a scope that was destroyed, whatever
else goes wrong.
-/

namespace BehaviorTree

namespace Blackboard

/-- A scope from which every walk outwards ends at the root. -/
structure Rooted (blackboard : Blackboard) (id : ScopeId) : Prop where
  alive : blackboard.isAlive id = true
  closed : ∀ inner outer, blackboard.parent? inner = some (some outer) →
    blackboard.isAlive outer = true

variable {blackboard after : Blackboard} {id : ScopeId} {name : String}

theorem Rooted.of_sameScopes (rooted : blackboard.Rooted id)
    (same : SameScopes blackboard after) : after.Rooted id := by
  refine ⟨by rw [same.isAlive_eq, rooted.alive], ?_⟩
  intro inner outer around
  rw [same.parents] at around
  rw [same.isAlive_eq, rooted.closed inner outer around]

/-- A variable is not found, or it is found in a scope that exists. -/
theorem findDefinition_of_rooted (rooted : blackboard.Rooted id) (name : String) (fuel : Nat) :
    match blackboard.findDefinition name fuel id with
    | .ok (owner, _) => blackboard.isAlive owner = true
    | .error error => error = .notFound name := by
  induction fuel generalizing id with
  | zero => simp [findDefinition]
  | succ fuel ih =>
    have alive := rooted.alive
    rw [isAlive, Option.isSome_iff_exists] at alive
    rcases alive with ⟨scope, found⟩
    simp only [findDefinition, found]
    cases scope.bindings.get? name with
    | some entry => exact rooted.alive
    | none =>
      cases around : scope.parent with
      | none => rfl
      | some outer =>
        have outerAlive := rooted.closed id outer (by simp [parent?, found, around])
        exact ih ⟨outerAlive, rooted.closed⟩

theorem entry_error_of_rooted (rooted : blackboard.Rooted id) {error : BlackboardError}
    (failed : blackboard.entry id name = .error error) : error = .notFound name := by
  have found := findDefinition_of_rooted rooted name blackboard.slots.length
  unfold entry definition at failed
  split at found
  · rename_i located
    simp [located, Except.map] at failed
  · rename_i missing
    simp only [missing, Except.map, Except.error.injEq] at failed
    rw [← failed, found]

theorem write_error_of_rooted (rooted : blackboard.Rooted id) {entry : Entry}
    {error : BlackboardError} (failed : blackboard.write id name entry = .error error) :
    error = .undefinedVariable name := by
  have found := findDefinition_of_rooted rooted name blackboard.slots.length
  unfold write definition at failed
  split at found
  · rename_i owner previous located
    rw [isAlive, Option.isSome_iff_exists] at found
    rcases found with ⟨scope, found⟩
    simp [located, found] at failed
  · rename_i missing
    subst found
    simpa [missing] using failed.symm

theorem define_error_of_alive (alive : blackboard.isAlive id = true) {entry : Entry}
    {error : BlackboardError} (failed : blackboard.define id name entry = .error error) :
    error = .duplicateDefinition name := by
  rw [isAlive, Option.isSome_iff_exists] at alive
  rcases alive with ⟨scope, found⟩
  simp only [define, found] at failed
  split at failed
  · simpa using failed.symm
  · cases failed

theorem followPath_error {segments : List String} {entry : Entry} {error : BlackboardError}
    (failed : followPath name segments entry = .error error) :
    ∃ segment, error = .invalidPath name segment := by
  unfold followPath at failed
  cases field : entry.value.field segments with
  | ok value => simp [field, Except.mapError] at failed
  | error position =>
    simp only [field, Except.mapError, Except.error.injEq] at failed
    exact ⟨_, failed.symm⟩

theorem resolveValue_ne_scopeGone (rooted : blackboard.Rooted id) (path : String) :
    blackboard.resolveValue id path ≠ .error .scopeGone := by
  intro failed
  simp only [resolveValue, bind, Except.bind] at failed
  split at failed
  · rename_i missing
    simp only [Except.error.injEq] at failed
    subst failed
    cases entry_error_of_rooted rooted missing
  · rcases followPath_error failed with ⟨segment, impossible⟩
    cases impossible

theorem resolve_ne_scopeGone (rooted : blackboard.Rooted id) (path : String)
    (freshness : Freshness) (now : Duration) :
    blackboard.resolve id path freshness now ≠ .error .scopeGone := by
  have pathFails : ∀ name segments entry,
      (followPath name segments entry).map Lookup.value ≠ .error .scopeGone := by
    intro name segments entry failed
    cases followed : followPath name segments entry with
    | ok value => simp [followed, Except.map] at failed
    | error error =>
      simp only [followed, Except.map, Except.error.injEq] at failed
      subst failed
      rcases followPath_error followed with ⟨segment, impossible⟩
      cases impossible
  intro failed
  simp only [resolve, bind, Except.bind, throw, throwThe, MonadExceptOf.throw, pure,
    Except.pure] at failed
  split at failed
  · rename_i missing
    simp only [Except.error.injEq] at failed
    subst failed
    cases entry_error_of_rooted rooted missing
  · split at failed
    · exact pathFails _ _ _ failed
    · split at failed
      · split at failed
        · exact pathFails _ _ _ failed
        · cases failed
        · cases failed
      · exact pathFails _ _ _ failed

theorem bind_ne_scopeGone {α β : Type} {first : ExceptT BlackboardError Id α}
    {next : α → ExceptT BlackboardError Id β} (firstFails : first.run ≠ .error .scopeGone)
    (nextFails : ∀ result, (next result).run ≠ .error .scopeGone) :
    (first >>= next).run ≠ .error .scopeGone := by
  cases ran : first.run with
  | ok result =>
    have continued : (first >>= next).run = (next result).run := by
      simp only [bind, ExceptT.bind, ExceptT.mk, ExceptT.run, ExceptT.bindCont] at ran ⊢
      rw [ran]
    rw [continued]
    exact nextFails result
  | error error =>
    have stopped : (first >>= next).run = .error error := by
      simp only [bind, ExceptT.bind, ExceptT.mk, ExceptT.run, ExceptT.bindCont] at ran ⊢
      rw [ran]
      rfl
    rw [stopped]
    intro failed
    cases failed
    exact firstFails ran

/-- A template whose variables can be looked up fails for a reason of its own. -/
theorem renderPieces_ne_scopeGone {lookup : String → ExceptT BlackboardError Id Value}
    (found : ∀ path, (lookup path).run ≠ .error .scopeGone) (pieces : List TemplatePiece) :
    (Template.renderPieces lookup pieces).run ≠ .error .scopeGone := by
  have valueFails : ∀ path places value,
      Template.valueText path places value ≠ .error .scopeGone := by
    intro path places value failed
    unfold Template.valueText at failed
    split at failed <;> cases failed
  have pieceFails : ∀ piece, (Template.renderPiece lookup piece).run ≠ .error .scopeGone := by
    intro piece
    cases piece with
    | literal character =>
      intro failed
      cases failed
    | placeholder path places =>
      exact bind_ne_scopeGone (found path) (valueFails path places)
  induction pieces with
  | nil =>
    intro failed
    cases failed
  | cons piece pieces ih =>
    apply bind_ne_scopeGone (pieceFails piece)
    intro front
    apply bind_ne_scopeGone ih
    intro back failed
    cases failed

theorem format_ne_scopeGone (rooted : blackboard.Rooted id) (template : String) :
    blackboard.format id template ≠ .error .scopeGone := by
  intro failed
  simp only [format, Template.render] at failed
  split at failed
  · exact renderPieces_ne_scopeGone (resolveValue_ne_scopeGone rooted) _ failed
  · cases failed

/-- An output that cannot be written leads to no variable that could be defined either. -/
theorem outputTo_ne_scopeGone (rooted : blackboard.Rooted id) (entry : Entry) :
    outputTo blackboard id name entry ≠ .error .scopeGone := by
  intro failed
  unfold outputTo at failed
  split at failed
  · cases define_error_of_alive rooted.alive failed
  · cases write_error_of_rooted rooted failed

end Blackboard

end BehaviorTree
