import BehaviorTree.Lease.Counterfeit
import BehaviorTree.Proofs.Lease.Registry
import BehaviorTree.Proofs.Runner.Leases
import BehaviorTree.Remote.Script
import Mathlib

/-!
# Ticks without leases

A mission starts playing only with all leases that its tree needs. A tick that cannot renew one of
them goes on without it, and so do the ticks after it, until the mission is played again. There is
no other way in which a tick comes to lack a lease, provided that leases name the resources for
which they were given.
-/

namespace BehaviorTree

variable {σ π : Type} [RemoteService σ] [LeaseProvider π]

namespace Site

variable {first site middle after : Site σ π} {now : Duration} {operation : Operation σ π}
  {history : History σ π} {resource : String}

/-- The mission is playing whenever something happens. -/
def PlaysThroughout : Site σ π → History σ π → Prop
  | _, [] => True
  | site, (now, operation) :: rest => site.runner.state = .playing ∧
      ∀ next, site.perform now operation = .ok next → next.PlaysThroughout rest

/-- A resource was lost in the renewal of a tick, and the mission has been playing since. -/
def LostBy (first : Site σ π) (history : History σ π) (resource : String) : Prop :=
  ∃ earlier now wallClock later before, history = earlier ++ (now, .tick wallClock) :: later ∧
    first.follow earlier = .ok before ∧
    before.PlaysThroughout ((now, .tick wallClock) :: later) ∧
    before.runner.leases.Loses before.provider resource

theorem playsThroughout_snoc (followed : site.follow history = .ok middle) :
    site.PlaysThroughout (history ++ [(now, operation)]) ↔
      site.PlaysThroughout history ∧ middle.runner.state = .playing := by
  induction history generalizing site with
  | nil =>
    cases followed
    simp [PlaysThroughout]
  | cons entry rest ih =>
    rcases follow_cons_eq_ok.1 followed with ⟨next, performed, followed⟩
    simp only [List.cons_append, PlaysThroughout, performed, Except.ok.injEq, forall_eq', ih followed]
    rw [and_assoc]

/-- What was lost at the end of a history was lost in its last operation, or before that. -/
theorem lostBy_snoc (followed : first.follow history = .ok middle) :
    first.LostBy (history ++ [(now, operation)]) resource ↔
      middle.runner.state = .playing ∧
        ((∃ wallClock, operation = .tick wallClock) ∧
            middle.runner.leases.Loses middle.provider resource ∨
          first.LostBy history resource) := by
  constructor
  · rintro ⟨earlier, moment, wallClock, later, before, split, reached, plays, loses⟩
    rcases List.eq_nil_or_concat later with rfl | ⟨front, entry, rfl⟩
    · rw [List.append_inj_left' split rfl] at followed
      rcases reached.symm.trans followed with ⟨⟩
      have same := List.append_inj_right' split rfl
      simp only [List.cons.injEq, Prod.mk.injEq, and_true] at same
      exact ⟨plays.1, Or.inl ⟨⟨wallClock, same.2⟩, loses⟩⟩
    · rw [List.concat_eq_append, ← List.cons_append, ← List.append_assoc] at split
      have same := List.append_inj_left' split rfl
      have last := List.append_inj_right' split rfl
      rw [List.cons.injEq] at last
      rw [same] at followed
      rcases follow_append_eq_ok.1 followed with ⟨start, begun, went⟩
      rcases reached.symm.trans begun with ⟨⟩
      rw [List.concat_eq_append, ← List.cons_append, ← last.1, playsThroughout_snoc went] at plays
      exact ⟨plays.2, Or.inr ⟨earlier, moment, wallClock, front, before, same, begun, plays.1, loses⟩⟩
  · rintro ⟨playing, ⟨⟨wallClock, rfl⟩, loses⟩ |
      ⟨earlier, moment, wallClock, later, before, rfl, reached, plays, loses⟩⟩
    · exact ⟨history, now, wallClock, [], middle, rfl, followed, ⟨playing, fun _ _ => trivial⟩, loses⟩
    · rcases follow_append_eq_ok.1 followed with ⟨start, begun, went⟩
      rcases reached.symm.trans begun with ⟨⟩
      refine ⟨earlier, moment, wallClock, later ++ [(now, operation)], before, by simp, reached, ?_,
        loses⟩
      rw [← List.cons_append, playsThroughout_snoc went]
      exact ⟨plays, playing⟩

/-- While a mission is playing, its runner holds the leases of the tree except for those lost. -/
theorem isHeld_iff_not_lostBy (names : LeaseProvider.NamesResources π)
    (idle : first.runner.state ≠ .playing) (followed : first.follow history = .ok site)
    (playing : site.runner.state = .playing) {tree : Tree}
    (loaded : site.runner.tree = some tree) (needed : resource ∈ tree.leaseResources) :
    site.runner.leases.isHeld resource = true ↔ ¬ first.LostBy history resource := by
  induction history using List.reverseRecOn generalizing site with
  | nil =>
    cases followed
    exact absurd playing idle
  | append_singleton history entry ih =>
    rcases entry with ⟨now, operation⟩
    rcases follow_snoc_eq_ok.1 followed with ⟨middle, reached, performed⟩
    rw [lostBy_snoc reached]
    cases leasing_perform performed with
    | kept leases provider plays quiet =>
      rcases plays playing with ⟨before, tree⟩
      rw [leases, ih reached before (tree ▸ loaded)]
      simp [before, quiet before]
    | competed change =>
      have before : middle.runner.state = .playing := playing
      rw [ih reached playing loaded]
      simp [before]
    | released released notPlaying => exact absurd playing notPlaying
    | acquired waiting before same granted =>
      rw [loaded, Option.some.injEq] at same
      subst same
      simp [waiting, LeaseHolder.isHeld_of_acquireAll names granted needed]
    | refused waiting denied => exact absurd playing waiting
    | renewed before renewed tree =>
      rw [Prod.mk.injEq] at renewed
      rw [renewed.1, LeaseHolder.isHeld_retainAll, ih reached before (tree ▸ loaded)]
      simp [before, and_comm]
    | ended renewed released notPlaying => exact absurd playing notPlaying

/-- A tick that evaluates the tree holds a lease on every resource that the tree needs, except
exactly for those that a renewal has lost since the mission was last played. -/
theorem evaluates_with_all_but_lost (names : LeaseProvider.NamesResources π)
    (config : MissionConfig) (provider : π) (history : History σ π) (now : Duration)
    (wallClock : WallClock) :
    match (start config provider : Site σ π).follow history with
    | .error _ => True
    | .ok site => ∀ tree leases later, site.runner.Evaluates site.provider tree leases later →
        ∀ resource ∈ tree.leaseResources, leases.isHeld resource = true ↔
          ¬ (start config provider : Site σ π).LostBy (history ++ [(now, .tick wallClock)])
            resource := by
  cases followed : (start config provider : Site σ π).follow history with
  | error cause => trivial
  | ok site =>
    rintro tree leases later ⟨playing, loaded, refusals, renewed⟩ resource needed
    have kept := site.runner.leases.isHeld_retainAll site.provider resource
    rw [renewed] at kept
    rw [kept, lostBy_snoc followed,
      isHeld_iff_not_lostBy names (by simp [start, Runner.create]) followed playing loaded needed]
    simp [playing, and_comm]

def journey : MissionSource :=
  ⟨[⟨"main", [], .node "NavigateRoute" none
    [⟨.input, "waypoint_ids", .constant (.string "hall,dock")⟩] []⟩]⟩

set_option maxRecDepth 100000 in
def journeyTree : AcceptedTree where
  source := journey
  tree := (Tree.ofSource journey).toOption.getD default
  accepted := by cbv

/-- While a robot is on its way, the lease on its body is revoked and given to an operator. -/
def seizure : History ScriptedService LeaseRegistry :=
  [(.zero, .load journeyTree), (.zero, .register "graph-nav" (.ofScript .empty)), (.zero, .play),
    (.zero, .compete fun registry => registry.revoke "body"),
    (.zero, .compete fun registry => (registry.acquire "body" "operator").2)]

def afterSeizure : Site ScriptedService LeaseRegistry :=
  ((start .standard .empty).follow seizure).toOption.getD (start .standard .empty)

set_option maxRecDepth 100000 in
theorem leaseResources_journeyTree : journeyTree.tree.leaseResources = ["body"] := by cbv

set_option maxRecDepth 100000 in
theorem evaluates_afterSeizure : afterSeizure.runner.Evaluates afterSeizure.provider
    journeyTree.tree (.empty "mission-runner") afterSeizure.provider :=
  ⟨by cbv, by cbv, [.unavailable "body" "operator"], by cbv⟩

set_option maxRecDepth 100000 in
theorem follow_seizure : (start .standard .empty).follow seizure = .ok afterSeizure := by cbv

set_option maxRecDepth 100000 in
/-- The tree is evaluated although an operator holds the body of the robot. -/
theorem evaluates_without_lease :
    (start .standard .empty).follow seizure = .ok afterSeizure ∧
      (∃ tree leases later, afterSeizure.runner.Evaluates afterSeizure.provider tree leases later ∧
        ∃ resource ∈ tree.leaseResources, leases.isHeld resource = false) ∧
      (afterSeizure.runner.tick .zero default afterSeizure.provider).1 = .ok .running := by
  refine ⟨follow_seizure, ⟨_, _, _, evaluates_afterSeizure, "body", ?_, rfl⟩, by cbv⟩
  simp [leaseResources_journeyTree]

/-- The mission after it was given a lease that names another resource. -/
def misled : Site ScriptedService CounterfeitLeases :=
  ((start .standard .wrongResource).follow
    [(.zero, .load journeyTree), (.zero, .play)]).toOption.getD (start .standard .wrongResource)

set_option maxRecDepth 100000 in
/-- A lease that names another resource leaves the tree without the one that it needs, although
nothing was lost. -/
theorem evaluates_with_misnamed_lease : misled.runner.leases.resources = ["bogus-body"] ∧
    (misled.runner.tick .zero default misled.provider).1 = .ok .failure := ⟨by cbv, by cbv⟩

/-- What the robot lacks on its way was lost by the tick. -/
theorem lostBy_seizure :
    (start .standard .empty : Site ScriptedService LeaseRegistry).LostBy
      (seizure ++ [(.zero, .tick default)]) "body" := by
  have exact_loss := evaluates_with_all_but_lost (σ := ScriptedService)
    LeaseRegistry.namesResources .standard .empty seizure .zero default
  rw [follow_seizure] at exact_loss
  by_contra kept
  have held := (exact_loss _ _ _ evaluates_afterSeizure "body"
    (by simp [leaseResources_journeyTree])).2 kept
  cases held

end Site

end BehaviorTree
