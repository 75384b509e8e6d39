import BehaviorTree.Proofs.Runner.LeasedTicks
import BehaviorTree.Proofs.Runner.Quiescence

/-!
# Faults of the engine

An error of the engine ends a tick in two ways. If the tree cannot be evaluated, the runner is
stopped and gives up everything that it has outside of itself. If a lease is filed wrongly, the tick
ends before the tree is evaluated, and nothing is given up: the mission goes on playing, and so does
every later tick end, because the lease stays filed as it is.
-/

namespace BehaviorTree

variable {σ π : Type} [RemoteService σ] [LeaseProvider π]

namespace Runner

variable {runner : Runner σ} {provider : π} {now : Duration} {wallClock : WallClock}

/-- A runner that is stopped while it is playing has nothing outside of itself. -/
theorem stop_releases (provider : π) (playing : runner.state = .playing) :
    (runner.stop provider).1.state = .stopped ∧
      (runner.stop provider).1.client.outstanding = 0 ∧
      (runner.stop provider).1.leases.resources = [] := by
  refine ⟨by simp [state_stop, playing], ?_, resources_stop⟩
  simp only [stop, dropLeases, dropCalls, playing]
  exact Client.outstanding_cancelAll _

/-- A tick of a mission that is playing ends with a fault of the leases if a lease is filed wrongly,
which it leaves as it is, together with everything else that the runner has. -/
theorem tick_misfiled (now : Duration) (wallClock : WallClock) (provider : π)
    (playing : runner.state = .playing) {resource : String}
    (misfiled : runner.leases.Misfiled resource) :
    ∃ fault leases later, runner.tick now wallClock provider =
        (.error (.error (.engine (.leaseBookkeeping fault))), { runner with leases := leases },
          later) ∧
      leases.held.get? fault.filedUnder = some fault.lease := by
  rcases (runner.leases.retainAll_faults_iff provider).2 ⟨resource, misfiled⟩ with ⟨fault, faulty⟩
  rcases renewed : runner.leases.retainAll provider with ⟨outcome, leases, later⟩
  rw [renewed] at faulty
  dsimp only at faulty
  subst faulty
  exact ⟨fault, leases, later, by simp [tick, playing, renewed],
    LeaseHolder.retainEach_eq_error renewed⟩

theorem conclude_error {result : Except (Failure EngineError) Status} {active : Option RunKey}
    {error : EngineError} {after : Runner σ} {later : π} (playing : runner.state = .playing)
    (failed : runner.conclude provider result active =
      (.error (.error (.engine error)), after, later)) :
    after.state = .stopped ∧ after.client.outstanding = 0 ∧ after.leases.resources = [] := by
  cases result with
  | error failure =>
    simp only [conclude, Prod.mk.injEq] at failed
    rcases failed with ⟨-, stopped⟩
    have released := stop_releases provider playing
    rwa [stopped] at released
  | ok status =>
    simp only [conclude] at failed
    split at failed <;> cases failed

/-- While all leases are filed correctly, an error of the engine stops the runner. -/
theorem tick_filed (filed : ¬ ∃ resource, runner.leases.Misfiled resource) {error : EngineError}
    {after : Runner σ} {later : π}
    (failed : runner.tick now wallClock provider =
      (.error (.error (.engine error)), after, later)) :
    after.state = .stopped ∧ after.client.outstanding = 0 ∧ after.leases.resources = [] := by
  have renewal : ∃ refusals leases last,
      runner.leases.retainAll provider = (.ok refusals, leases, last) := by
    rcases renewed : runner.leases.retainAll provider with ⟨fault | refusals, leases, last⟩
    · exact absurd ((runner.leases.retainAll_faults_iff provider).1 ⟨fault, by rw [renewed]⟩) filed
    · exact ⟨refusals, leases, last, rfl⟩
  rcases renewal with ⟨refusals, leases, last, renewed⟩
  rcases runner.tick_evaluates_cases now wallClock provider with
    ⟨-, refused⟩ | ⟨playing, never, -⟩ | ⟨tree, _, _, ⟨playing, -⟩, evaluated⟩
  · rw [refused] at failed
    cases failed
  · have unloaded : runner.tree = none := by
      rw [Option.eq_none_iff_forall_ne_some]
      exact fun tree loaded => never tree leases last ⟨playing, loaded, refusals, renewed⟩
    simp [tick, playing, renewed, unloaded] at failed
  · rw [evaluated] at failed
    refine conclude_error ?_ failed
    exact playing

/-- An error of the engine stops the runner, which then waits for no request and holds no lease,
unless a lease is filed wrongly when the tick begins. Then the mission goes on playing, with all its
requests and with the lease that is filed wrongly. There is no other case, as a tick that finds such
a lease while the mission is playing never has another result. -/
theorem faults_stop_unless_misfiled (runner : Runner σ) (now : Duration) (wallClock : WallClock)
    (provider : π) :
    match runner.tick now wallClock provider with
    | (.error (.error (.engine error)), after, _) =>
      ((∃ resource, runner.leases.Misfiled resource) ∧ after.state = .playing ∧
        after = { runner with leases := after.leases } ∧
        ∃ fault, error = .leaseBookkeeping fault ∧
          after.leases.held.get? fault.filedUnder = some fault.lease) ∨
      ((¬ ∃ resource, runner.leases.Misfiled resource) ∧ after.state = .stopped ∧
        after.client.outstanding = 0 ∧ after.leases.resources = [])
    | _ => ¬ (runner.state = .playing ∧ ∃ resource, runner.leases.Misfiled resource) := by
  by_cases playing : runner.state = .playing
  · by_cases misfiled : ∃ resource, runner.leases.Misfiled resource
    · rcases misfiled with ⟨resource, misfiled⟩
      rcases tick_misfiled now wallClock provider playing misfiled with
        ⟨fault, leases, later, ticked, kept⟩
      rw [ticked]
      exact Or.inl ⟨⟨resource, misfiled⟩, playing, rfl, fault, rfl, kept⟩
    · split
      · rename_i error after later ticked
        exact Or.inr ⟨misfiled, tick_filed misfiled ticked⟩
      · exact fun both => misfiled both.2
  · rw [show runner.tick now wallClock provider = (.error (.error .notPlaying), runner, provider) by
      simp [tick, playing]]
    exact fun both => playing both.1

end Runner

namespace Site

/-- A robot is sent on its way with a lease that names another resource, which the first tick
replaces by a lease that names yet another one. -/
def misrouting : History ScriptedService CounterfeitLeases :=
  [(.zero, .load journeyTree), (.zero, .register "graph-nav" (.ofScript .empty)), (.zero, .play),
    (.zero, .tick default)]

def misrouted : Site ScriptedService CounterfeitLeases :=
  ((start .standard .wrongResource).follow misrouting).toOption.getD
    (start .standard .wrongResource)

set_option maxRecDepth 100000 in
/-- The tick that finds the lease filed wrongly leaves the robot on its way, with its request and
its lease. -/
theorem misfiled_lease_does_not_stop :
    (start .standard .wrongResource).follow misrouting = .ok misrouted ∧
      match misrouted.runner.tick .zero default misrouted.provider with
      | (.error (.error (.engine _)), after, _) =>
        after.state = .playing ∧ after.client.outstanding = 1 ∧
          after.leases.resources = ["bogus-body"]
      | _ => False := ⟨by cbv, by cbv⟩

end Site

end BehaviorTree
