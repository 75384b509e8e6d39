import BehaviorTree.Proofs.Runner.History

/-!
# Guarantees of runners

What holds at any time of any history of a mission: only nodes that are running are remembered,
requests and scopes are neither leaked nor shared, and a tree that the loader accepts runs without
faults of the engine.
-/

namespace BehaviorTree

namespace Site

variable {σ π : Type} [RemoteService σ] [LeaseProvider π]

/-- After a tick a node has a run state only if it ran in this very tick, and so did everything on
the way on which it was invoked. Whenever a node is over, nothing in its subtree has one. -/
theorem active_nodes_ran (config : MissionConfig) (provider : π) (history : History σ π)
    (now : Duration) (wallClock : WallClock) :
    match (start config provider : Site σ π).follow history with
    | .error _ => True
    | .ok site => ∀ tree, site.runner.tree = some tree →
      (match site.runner.tick now wallClock site.provider with
        | (.error _, _, _) => True
        | (.ok _, after, _) => ∀ key, after.runs.isActive key = true →
          (site.runner.engineTick tree now wallClock).2.RunsThrough tree ⟨0, tree.main⟩ key) ∧
      ∀ (setting : Setting) (depth : Nat) (index : NodeIndex) (context : Context σ),
        setting.tree = tree →
        Ends (tickWithin setting depth index) context
          (fun status after => status ≠ .running → ∀ lower,
            tree.Reaches after.runs ⟨context.frame, index⟩ lower →
              after.runs.isActive lower = false)
          fun _ _ => True := by
  have orderly := orderly_history config provider history
  revert orderly
  cases (start config provider : Site σ π).follow history with
  | error cause => exact fun _ => trivial
  | ok site =>
    intro orderly tree loaded
    refine ⟨?_, ?_⟩
    · have ticked := orderly.ticked now wallClock site.provider
      revert ticked
      rcases site.runner.tick now wallClock site.provider with ⟨result, after, provider⟩
      intro ticked
      cases ticked with
      | refused leases cause => trivial
      | crashed other overflow => trivial
      | ran leases same ran advances active goesOn =>
        rw [loaded, Option.some.injEq] at same
        subst same
        rw [ran]
        exact fun key isActive => (active key isActive).2
    · rintro setting depth index context rfl
      have wellFormed := (orderly.loaded _ loaded).wellFormed
      exact ends_tickWithin_cleared wellFormed depth index context

/-- At any time every request of the client is held by the run state of exactly one node, and run
states hold no others. The same goes for scopes of the blackboard other than the root. -/
theorem resources_have_one_owner (config : MissionConfig) (provider : π) (history : History σ π) :
    match (start config provider : Site σ π).follow history with
    | .error _ => True
    | .ok site =>
      (∀ handle, site.runner.client.Holds handle →
        ∃! key, site.runner.runs.callAt key = some handle) ∧
      (∀ key handle, site.runner.runs.callAt key = some handle →
        site.runner.client.Holds handle) ∧
      (∀ id, site.runner.blackboard.isAlive id = true → id ≠ .root →
        ∃! key, site.runner.runs.scopeAt key = some id) ∧
      ∀ key id, site.runner.runs.scopeAt key = some id →
        site.runner.blackboard.isAlive id = true ∧ id ≠ .root := by
  have orderly := orderly_history config provider history
  revert orderly
  cases (start config provider : Site σ π).follow history with
  | error cause => exact fun _ => trivial
  | ok site =>
    intro orderly
    have calls := orderly.accounted.calls
    have scopes := orderly.accounted.scopes
    refine ⟨?_, ?_, ?_, ?_⟩
    · intro handle holds
      rcases (calls.used_iff handle).1 holds with ⟨key, stored⟩
      exact ⟨key, stored, fun other held => calls.alone other key handle held stored⟩
    · exact fun key handle stored => (calls.used_iff handle).2 ⟨key, stored⟩
    · intro id alive notRoot
      rcases (scopes.used_iff id).1 ⟨alive, notRoot⟩ with ⟨key, stored⟩
      exact ⟨key, stored, fun other held => scopes.alone other key id held stored⟩
    · exact fun key id stored => (scopes.used_iff id).2 ⟨key, stored⟩

/-- A tree that the loader accepts runs without faults: a tick ends with a status, no node misses a
scope, and every node can be halted. Only a number that does not fit crashes the program. -/
theorem accepted_trees_run (config : MissionConfig) (provider : π) (history : History σ π) :
    match (start config provider : Site σ π).follow history with
    | .error cause => cause = .durationOverflow ∨ cause = .handleOverflow
    | .ok site => ∀ tree, site.runner.tree = some tree → ∀ now wallClock,
      (match site.runner.engineTick tree now wallClock with
        | (.error failure, _) => failure.IsOverflow
        | (.ok _, context) => ∀ visit ∈ context.visits, ∀ cause, visit.cause = some cause →
          ¬ cause.IsScopeGone) ∧
      (match site.runner.tick now wallClock site.provider with
        | (.error (.error (.engine error)), _, _) => ∃ fault, error = .leaseBookkeeping fault
        | _ => True) ∧
      ∀ key context, (tree.node? key.node).isSome →
        (outcome (halt tree key : Tick σ Unit) context).1 = .ok () := by
  have orderly := orderly_history config provider history
  revert orderly
  cases (start config provider : Site σ π).follow history with
  | error cause => exact fun overflow => overflow
  | ok site =>
    intro orderly tree loaded now wallClock
    have ends := orderly.ends_engineTick loaded now wallClock
    unfold Ends at ends
    refine ⟨?_, ?_, ?_⟩
    · unfold Runner.engineTick
      revert ends
      rcases outcome (BehaviorTree.tick (site.runner.setting tree now wallClock) tree.main)
        site.runner.context with ⟨failure | status, context⟩
      · exact fun overflow => overflow
      · exact fun ended => ended.1.sound.calm
    · have ticked := orderly.ticked now wallClock site.provider
      revert ticked
      rcases site.runner.tick now wallClock site.provider with ⟨result, after, provider⟩
      intro ticked
      cases ticked with
      | refused leases cause =>
        rcases cause with rfl | rfl | ⟨fault, rfl⟩
        · trivial
        · trivial
        · exact ⟨fault, rfl⟩
      | crashed other overflow => trivial
      | ran leases same ran advances active goesOn => trivial
    · intro key context isNode
      have halted := ends_halt (orderly.loaded tree loaded).wellFormed isNode context
      unfold Ends at halted
      split at halted
      · rename_i same
        rw [same]
      · exact halted.elim

end Site

end BehaviorTree
