import BehaviorTree.Proofs.Engine.ClientUse
import BehaviorTree.Proofs.Remote.Handles
import BehaviorTree.Proofs.Runner.Interruptions

/-!
# Services in the course of missions

Whatever a runner is told to do, services are only used through its client, which notes every
exchange. So whatever happened to a mission, a service is what it was registered as, after the
exchanges that were noted with it since then. What the journal says of requests and cancellations is
what the services were told. And a service that is asked for something stays known, so that every
request can be cancelled.
-/

namespace BehaviorTree

variable {σ π : Type} [RemoteService σ]

namespace Runner

variable {runner after : Runner σ} {provider later : π} {now : Duration}

theorem used_foldl_release (states : List RunState) (runner : Runner σ) :
    runner.client.Used (states.foldl release runner).client := by
  induction states generalizing runner with
  | nil => exact .unused
  | cons state rest ih =>
    have released : runner.client.Used (runner.release state).client :=
      runner.context.used_release state
    exact released.trans (ih (runner.release state))

theorem used_reset (runner : Runner σ) : runner.client.Used runner.reset.client := by
  rw [reset_eq]
  exact used_foldl_release _ { runner with runs := .empty }

theorem used_dropCalls (runner : Runner σ) : runner.client.Used runner.dropCalls.client :=
  (Client.used_foldl_cancel _ _).trans (Client.used_foldl_cancel _ _)

theorem used_restart (runner : Runner σ) (now : Duration) :
    runner.client.Used (runner.restart now).client := by
  simp only [restart]
  split <;> exact runner.used_reset

theorem used_prepare (runner : Runner σ) : runner.client.Used runner.prepare.client := by
  have again : runner.client.Used { runner with pauses := runner.pauses + 1 }.reset.client :=
    used_reset { runner with pauses := runner.pauses + 1 }
  simp only [prepare]
  split
  · exact runner.used_reset
  · split
    · exact again
    · exact .unused
  · split
    · exact again
    · exact .unused
  · exact .unused
  · exact .unused

variable [LeaseProvider π]

theorem used_stop (runner : Runner σ) (provider : π) :
    runner.client.Used (runner.stop provider).1.client := by
  simp only [stop]
  split <;> exact runner.used_dropCalls

theorem used_play (played : runner.play now provider = (.ok after, later)) :
    runner.client.Used after.client := by
  cases played_of_play played with
  | already => exact .unused
  | @started tree leases => exact used_prepare { runner with leases := leases }

omit [LeaseProvider π] in
theorem Ticked.used {wallClock : WallClock} {result : Except (Failure MissionError) Status}
    (ticked : runner.Ticked now wallClock result after) (orderly : runner.Orderly)
    (calm : ∀ cause, result ≠ .error (.crash cause)) : runner.client.Used after.client := by
  cases ticked with
  | refused leases cause => exact .unused
  | crashed loaded overflow => exact absurd rfl (calm _)
  | @ran tree _ context _ leases loaded ticked advances active goesOn =>
    have governs := orderly.loaded tree loaded
    have dealing : Ends (BehaviorTree.tick (runner.setting tree now wallClock) tree.main)
        runner.context
        (fun _ after => runner.context.Deals (runner.setting tree now wallClock) after)
        fun _ _ => True :=
      ends_tick_deals governs.wellFormed ⟨0, tree.main⟩ governs.wellFormed.rooted rfl governs.fits
    exact (dealing.of_eq_ok ticked).used

end Runner

/-- A deed makes a service known under a name. -/
def Deed.Registers (name : String) : Deed σ π → Prop
  | .perform _ (.register other _) => other = name
  | _ => False

namespace Site

variable [LeaseProvider π] {site after : Site σ π} {deed : Deed σ π} {deeds : List (Deed σ π)}

/-- Whatever happens to a mission but that a service is registered, the client is only used, or its
sessions are forgotten. -/
theorem used_undergo (orderly : site.runner.Orderly) (happened : site.undergo deed = .ok after)
    (uses : ∀ now name service, deed ≠ .perform now (.register name service)) :
    ∃ client : Client σ, site.runner.client.Used client ∧
      (after.runner.client = client ∨ after.runner.client = client.resetSessions) := by
  cases deed with
  | resetSessions =>
    cases happened
    exact ⟨_, .unused, Or.inr rfl⟩
  | perform now operation =>
    change site.perform now operation = .ok after at happened
    cases operation with
    | register name service => exact absurd rfl (uses now name service)
    | load accepted =>
      cases happened
      have stopped := site.runner.used_stop site.provider
      exact ⟨_, stopped.trans (Runner.used_reset _), Or.inr rfl⟩
    | define name value =>
      rcases perform_define_eq_ok happened with ⟨blackboard, rfl⟩
      exact ⟨_, .unused, Or.inl rfl⟩
    | write name value =>
      rcases perform_write_eq_ok happened with ⟨blackboard, rfl⟩
      exact ⟨_, .unused, Or.inl rfl⟩
    | play =>
      simp only [perform] at happened
      split at happened
      · rename_i played
        cases happened
        exact ⟨_, Runner.used_play played, Or.inl rfl⟩
      · cases happened
        exact ⟨_, .unused, Or.inl rfl⟩
    | pause =>
      cases happened
      refine ⟨_, .unused, Or.inl ?_⟩
      dsimp only
      unfold Runner.pause
      split <;> rfl
    | stop =>
      cases happened
      exact ⟨_, site.runner.used_stop _, Or.inl rfl⟩
    | restart =>
      cases happened
      exact ⟨_, site.runner.used_restart now, Or.inl rfl⟩
    | tick wallClock =>
      rcases perform_tick_eq_ok happened with ⟨same, calm⟩
      rw [same]
      exact ⟨_, (orderly.ticked now wallClock site.provider).used orderly calm, Or.inl rfl⟩
    | compete change =>
      cases happened
      exact ⟨_, .unused, Or.inl rfl⟩

/-- Services are used as it is noted. -/
theorem exists_uses_undergo (orderly : site.runner.Orderly)
    (happened : site.undergo deed = .ok after)
    (uses : ∀ now name service, deed ≠ .perform now (.register name service)) :
    ∃ exchanges, site.runner.client.Uses exchanges after.runner.client := by
  rcases used_undergo orderly happened uses with ⟨client, used, same | same⟩ <;> rw [same]
  · exact used.exists_uses
  · exact Client.exists_uses_trans used.exists_uses ⟨[], .of_eq rfl rfl⟩

/-- Whatever happens to a mission, every service that is asked for something stays known. -/
theorem registered_undergo (orderly : site.runner.Orderly)
    (registered : site.runner.client.Registered) (happened : site.undergo deed = .ok after) :
    after.runner.client.Registered := by
  by_cases registers : ∃ now name service, deed = .perform now (.register name service)
  · rcases registers with ⟨now, name, service, rfl⟩
    cases happened
    exact Client.registered_turn registered (.register name service)
  · have uses : ∀ now name service, deed ≠ .perform now (.register name service) :=
      fun now name service same => registers ⟨now, name, service, same⟩
    rcases used_undergo orderly happened uses with ⟨client, used, same | same⟩ <;> rw [same]
    · exact used.registered registered
    · exact Client.registered_turn (used.registered registered) .resetSessions

theorem registered_undergoAll (config : MissionConfig) (provider : π)
    (happened : (start config provider : Site σ π).undergoAll deeds = .ok after) :
    after.runner.client.Registered := by
  have atStart : (start config provider : Site σ π).runner.Orderly ∧
      (start config provider : Site σ π).runner.client.Registered :=
    ⟨Runner.orderly_create config, fun _ _ found => by cases found⟩
  exact (kept_undergoAll
    (fun site : Site σ π => site.runner.Orderly ∧ site.runner.client.Registered)
    (fun kept happened =>
      ⟨orderly_undergo kept.1 happened, registered_undergo kept.1 kept.2 happened⟩)
    atStart happened).2

/-- In the course of some deeds a service was registered under a name, not replaced since then, and
turned into another state by the exchanges with it that were noted since then. -/
def Replays (site : Site σ π) (deeds : List (Deed σ π)) (journal : List Exchange) (name : String)
    (state : σ) : Prop :=
  ∃ earlier now service later middle exchanges,
    deeds = earlier ++ .perform now (.register name service) :: later ∧
    (∀ deed ∈ later, ¬ deed.Registers name) ∧
    site.undergoAll earlier = .ok middle ∧
    journal = exchanges.reverse ++ middle.runner.client.journal ∧
    state = Exchange.replay exchanges name service

theorem Replays.snoc {journal : List Exchange} {name : String} {state : σ}
    (replays : site.Replays deeds journal name state) (elsewhere : ¬ deed.Registers name)
    (recent : List Exchange) : site.Replays (deeds ++ [deed]) (recent.reverse ++ journal) name
      (Exchange.replay recent name state) := by
  rcases replays with
    ⟨earlier, now, service, later, middle, exchanges, rfl, spare, reached, rfl, rfl⟩
  refine ⟨earlier, now, service, later ++ [deed], middle, exchanges ++ recent, by simp, ?_, reached,
    by simp, (Exchange.replay_append _ _ _ _).symm⟩
  intro other listed
  rcases List.mem_append.1 listed with old | new
  · exact spare other old
  · rw [List.mem_singleton.1 new]
    exact elsewhere

/-- Whatever happened to a mission, a service is what it was registered as the last time, after all
exchanges with it that were noted since then. -/
theorem replays_undergoAll (config : MissionConfig) (provider : π)
    (happened : (start config provider : Site σ π).undergoAll deeds = .ok after) {name : String}
    {state : σ} (known : after.runner.client.services.get? name = some state) :
    (start config provider : Site σ π).Replays deeds after.runner.client.journal name state := by
  induction deeds using List.reverseRecOn generalizing after state with
  | nil =>
    cases happened
    cases known
  | append_singleton deeds deed ih =>
    rcases bind_eq_ok.1 (undergoAll_append.symm.trans happened) with ⟨before, reached, last⟩
    rcases undergoAll_cons_eq_ok.1 last with ⟨other, last, done⟩
    cases done
    by_cases registers : ∃ now other service, deed = .perform now (.register other service)
    · rcases registers with ⟨now, other, service, rfl⟩
      cases last
      have found := known
      simp only [Client.register, Table.get?_insert] at found
      split at found
      · rename_i same
        cases found
        subst same
        exact ⟨deeds, now, state, [], before, [], rfl, by simp, reached, rfl, rfl⟩
      · rename_i different
        have elsewhere : ¬ Deed.Registers name (.perform now (.register other service) : Deed σ π) :=
          Ne.symm different
        exact (ih reached found).snoc elsewhere []
    · have uses : ∀ now name service, deed ≠ .perform now (.register name service) :=
        fun now name service same => registers ⟨now, name, service, same⟩
      have orderly := kept_undergoAll (fun site : Site σ π => site.runner.Orderly) orderly_undergo
        (Runner.orderly_create config) reached
      rcases exists_uses_undergo orderly last uses with ⟨exchanges, used⟩
      rw [used.services, Option.map_eq_some_iff] at known
      rcases known with ⟨state, knownBefore, rfl⟩
      have elsewhere : ¬ deed.Registers name := by
        cases deed with
        | resetSessions => exact id
        | perform now operation =>
          cases operation with
          | register other service => exact absurd rfl (uses now other service)
          | _ => exact id
      rw [used.journal]
      exact (ih reached knownBefore).snoc elsewhere exchanges

end Site

end BehaviorTree
