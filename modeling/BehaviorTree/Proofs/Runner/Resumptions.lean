import BehaviorTree.Proofs.Engine.Approaches
import BehaviorTree.Proofs.Engine.Restarts
import BehaviorTree.Proofs.Runner.Chronicles
import BehaviorTree.Proofs.Runner.Quiescence
import BehaviorTree.Proofs.Runner.Services

/-!
# Missions that are played on

A mission that was paused or stopped is played on, and the runner counts how often. In between
everything that nodes remember may be forgotten, but where it is not, a node that starts its child
afresh after a pause can tell from the count whether the mission was played on since its last turn.
So its child is started afresh if and only if that is so, whatever else happened to the mission.
-/

namespace BehaviorTree

theorem RunState.detach_detach (state : RunState) : state.detach.detach = state.detach := by
  cases state with
  | remote run => cases held : run.call <;> simp [detach, held]
  | _ => rfl

namespace RunStore

variable {before after : RunStore} {key : RunKey}

/-- Everything that was remembered is kept, though without requests that were given up. -/
def Sheds (before after : RunStore) : Prop :=
  ∀ key, after.get? key = before.get? key ∨
    after.get? key = (before.get? key).map RunState.detach

theorem isActive_of_remembered {runs : RunStore} (remembered : runs.get? key ≠ none) :
    runs.isActive key = true := by
  rw [← Bool.not_eq_false, isActive_eq_false_iff.not]
  exact remembered

namespace Sheds

theorem refl (runs : RunStore) : runs.Sheds runs := fun _ => Or.inl rfl

theorem detached (sheds : before.Sheds after) : before.Sheds after.detachCalls.2 := by
  intro key
  refine Or.inr ?_
  rw [get?_detachCalls]
  rcases sheds key with same | detached
  · rw [same]
  · rw [detached, Option.map_map, Function.comp_def, funext RunState.detach_detach]

theorem get?_eq_none_iff (sheds : before.Sheds after) :
    after.get? key = none ↔ before.get? key = none := by
  rcases sheds key with same | detached
  · rw [same]
  · rw [detached, Option.map_eq_none_iff]

theorem get?_of_plain (sheds : before.Sheds after) {state : RunState}
    (stored : before.get? key = some state) (plain : state.IsPlain) :
    after.get? key = some state := by
  rcases sheds key with same | detached
  · rw [same, stored]
  · rw [detached, stored, Option.map_some, plain.detach_eq]

theorem scopeAt_eq (sheds : before.Sheds after) : after.scopeAt key = before.scopeAt key := by
  unfold scopeAt
  rcases sheds key with same | detached
  · rw [same]
  · rw [detached]
    cases before.get? key with
    | none => rfl
    | some state => exact state.scope?_detach

theorem callAt (sheds : before.Sheds after) {handle : CallHandle}
    (stored : after.callAt key = some handle) : before.callAt key = some handle := by
  unfold RunStore.callAt at stored ⊢
  rcases sheds key with same | detached
  · rwa [← same]
  · rw [detached] at stored
    cases remembered : before.get? key with
    | none => simp [remembered] at stored
    | some state => simp [remembered, RunState.call?_detach] at stored

/-- A request that is not kept is given up. -/
theorem callAt_or {σ : Type} {client clientToo : Client σ} (sheds : before.Sheds after)
    (owned : Owned client.Holds before.callAt) (ownedToo : Owned clientToo.Holds after.callAt)
    {handle : CallHandle} (made : before.callAt key = some handle) :
    after.callAt key = some handle ∨ ¬ clientToo.Holds handle := by
  by_cases held : clientToo.Holds handle
  · rcases (ownedToo.used_iff handle).1 held with ⟨holder, stored⟩
    obtain rfl := owned.alone holder key handle (sheds.callAt stored) made
    exact Or.inl stored
  · exact Or.inr held

end Sheds

end RunStore

variable {σ π : Type} [RemoteService σ] [LeaseProvider π]

namespace Runner

variable {runner : Runner σ} {now : Duration} {wallClock : WallClock} {provider : π}
  {status : Status}

omit [LeaseProvider π] in
theorem pauses_reset (runner : Runner σ) : runner.reset.pauses = runner.pauses := by rw [reset_eq]

omit [LeaseProvider π] in
/-- To get a mission ready counts if it was paused or stopped. -/
theorem pauses_prepare (runner : Runner σ) :
    (runner.state = .paused ∨ runner.state = .stopped →
      runner.prepare.pauses = runner.pauses + 1) ∧
    (¬ (runner.state = .paused ∨ runner.state = .stopped) →
      runner.prepare.pauses = runner.pauses) := by
  have again : { runner with pauses := runner.pauses + 1 }.reset.pauses = runner.pauses + 1 :=
    pauses_reset _
  unfold prepare
  split
  · rename_i finished
    exact ⟨by simp [finished], fun _ => pauses_reset runner⟩
  · rename_i paused
    refine ⟨fun _ => ?_, by simp [paused]⟩
    dsimp only
    split <;> first | exact again | rfl
  · rename_i stopped
    refine ⟨fun _ => ?_, by simp [stopped]⟩
    dsimp only
    split <;> first | exact again | rfl
  · rename_i idle
    exact ⟨by simp [idle], fun _ => rfl⟩
  · rename_i playing
    exact ⟨by simp [playing], fun _ => rfl⟩

theorem pauses_stop (runner : Runner σ) (provider : π) :
    (runner.stop provider).1.pauses = runner.pauses := by
  simp only [stop]
  split <;> rfl

theorem client_stop (runner : Runner σ) (provider : π) : (runner.stop provider).1.client =
    (runner.runs.detachCalls.1.foldl Client.cancel runner.client).cancelAll := by
  simp only [stop]
  split <;> rfl

/-- To stop gives the request of a node up, and its service is asked to cancel it. -/
theorem exists_cancelled_of_stop {key : RunKey} {handle : CallHandle} {call : OutstandingCall}
    (made : runner.runs.callAt key = some handle)
    (outstanding : runner.client.calls.get? handle = some call)
    (known : runner.client.services.contains call.service = true) (provider : π) :
    ∃ exchanges, runner.client.Uses exchanges (runner.stop provider).1.client ∧
      .cancelled call.service call.call ∈ exchanges := by
  have listed : handle ∈ runner.runs.detachCalls.1 := by
    rcases Option.bind_eq_some_iff.1 made with ⟨state, stored, holds⟩
    exact List.mem_filterMap.2 ⟨state, Table.mem_values_iff.2 ⟨key, stored⟩, holds⟩
  rcases Client.exists_uses_of_mem listed outstanding known with ⟨early, used, cancelled⟩
  rcases (runner.runs.detachCalls.1.foldl Client.cancel runner.client).uses_foldl_cancel
    (runner.runs.detachCalls.1.foldl Client.cancel runner.client).calls.keys with ⟨late, more⟩
  rw [client_stop]
  exact ⟨_, used.trans more, List.mem_append_left _ cancelled⟩

theorem pauses_tick (runner : Runner σ) (now : Duration) (wallClock : WallClock) (provider : π) :
    (runner.tick now wallClock provider).2.1.pauses = runner.pauses := by
  rcases runner.tick_cases now wallClock provider with
    ⟨error, leases, later, ticked, -⟩ | ⟨tree, leases, later, -, -, ticked⟩
  · rw [ticked]
  · rw [ticked]
    unfold conclude
    split
    · exact pauses_stop _ _
    · dsimp only
      split <;> rfl

/-- A tick that has a status is one of a mission that is playing, and goes on playing if it is not
over. -/
theorem playing_of_tick (ran : (runner.tick now wallClock provider).1 = .ok status) :
    runner.state = .playing ∧
      (status = .running → (runner.tick now wallClock provider).2.1.state = .playing) := by
  rcases runner.tick_cases now wallClock provider with
    ⟨error, leases, later, ticked, -⟩ | ⟨tree, leases, later, loaded, playing, ticked⟩
  · rw [ticked] at ran
    cases ran
  · refine ⟨playing, ?_⟩
    rintro rfl
    rw [ticked] at ran ⊢
    unfold conclude at ran ⊢
    split at ran
    · cases ran
    · dsimp only at ran ⊢
      split at ran
      · rename_i running
        rw [if_pos running]
        exact playing
      · rename_i isOver
        cases ran
        exact absurd rfl isOver

end Runner

namespace Site

variable {site middle after left later : Site σ π} {deed : Deed σ π}
  {deeds between : List (Deed σ π)} {key : RunKey}

/-- A deed plays a mission on that was paused or stopped. -/
def Resumes (site : Site σ π) (deed : Deed σ π) : Prop :=
  (site.runner.state = .paused ∨ site.runner.state = .stopped) ∧
    ∃ now runner, deed = .perform now .play ∧
      (site.runner.play now site.provider).1 = .ok runner

/-- A deed ticks the mission, and the tick visits a node. -/
def Visits (key : RunKey) (site : Site σ π) (deed : Deed σ π) : Prop :=
  ∃ now wallClock status tree, deed = .perform now (.tick wallClock) ∧
    (site.runner.tick now wallClock site.provider).1 = .ok status ∧
    site.runner.tree = some tree ∧
    ∃ visit ∈ (site.runner.engineTick tree now wallClock).2.visits, visit.key = key

/-- One of some deeds is of a kind, where it happens. -/
def Encounters (site : Site σ π) (kind : Site σ π → Deed σ π → Prop) (deeds : List (Deed σ π)) :
    Prop :=
  ∃ earlier deed later middle, deeds = earlier ++ deed :: later ∧
    site.undergoAll earlier = .ok middle ∧ kind middle deed

theorem encounters_cons {kind : Site σ π → Deed σ π → Prop} :
    site.Encounters kind (deed :: deeds) ↔ kind site deed ∨
      ∃ middle, site.undergo deed = .ok middle ∧ middle.Encounters kind deeds := by
  constructor
  · rintro ⟨earlier, other, later, middle, same, happened, isKind⟩
    cases earlier with
    | nil =>
      cases happened
      cases same
      exact Or.inl isKind
    | cons first earlier =>
      cases same
      rcases undergoAll_cons_eq_ok.1 happened with ⟨next, first, rest⟩
      exact Or.inr ⟨next, first, earlier, other, later, middle, rfl, rest, isKind⟩
  · rintro (isKind | ⟨next, first, earlier, other, later, middle, rfl, happened, isKind⟩)
    · exact ⟨[], deed, deeds, site, rfl, rfl, isKind⟩
    · exact ⟨deed :: earlier, other, later, middle, rfl,
        undergoAll_cons_eq_ok.2 ⟨next, first, happened⟩, isKind⟩

theorem encounters_snoc {kind : Site σ π → Deed σ π → Prop}
    (reached : left.undergoAll between = .ok site) :
    left.Encounters kind (between ++ [deed]) ↔
      left.Encounters kind between ∨ kind site deed := by
  induction between generalizing left with
  | nil =>
    cases reached
    rw [List.nil_append, encounters_cons, or_comm]
    simp [Encounters]
  | cons first rest ih =>
    rcases undergoAll_cons_eq_ok.1 reached with ⟨middle, happened, reached⟩
    simp only [List.cons_append, encounters_cons, happened, Except.ok.injEq, exists_eq_left',
      ih reached, or_assoc]

/-- The runner counts how often the mission is played on. -/
theorem pauses_undergo (happened : site.undergo deed = .ok after) :
    (site.Resumes deed → after.runner.pauses = site.runner.pauses + 1) ∧
      (¬ site.Resumes deed → after.runner.pauses = site.runner.pauses) := by
  have still : (∀ now, deed ≠ .perform now .play) → after.runner.pauses = site.runner.pauses →
      (site.Resumes deed → after.runner.pauses = site.runner.pauses + 1) ∧
        (¬ site.Resumes deed → after.runner.pauses = site.runner.pauses) := by
    intro other same
    refine ⟨?_, fun _ => same⟩
    rintro ⟨-, now, runner, played, -⟩
    exact absurd played (other now)
  cases deed with
  | resetSessions =>
    cases happened
    exact still (fun _ same => by cases same) rfl
  | perform now operation =>
    change site.perform now operation = .ok after at happened
    cases operation with
    | register name service =>
      cases happened
      exact still (fun _ same => by cases same) rfl
    | load accepted =>
      cases happened
      refine still (fun _ same => by cases same) ?_
      exact (Runner.pauses_reset _).trans (Runner.pauses_stop _ _)
    | define name value =>
      rcases perform_define_eq_ok happened with ⟨blackboard, rfl⟩
      exact still (fun _ same => by cases same) rfl
    | write name value =>
      rcases perform_write_eq_ok happened with ⟨blackboard, rfl⟩
      exact still (fun _ same => by cases same) rfl
    | play =>
      have counts : ∀ runner, (site.runner.play now site.provider).1 = .ok runner →
          (site.Resumes (.perform now .play) ↔
            site.runner.state = .paused ∨ site.runner.state = .stopped) := by
        intro runner played
        exact ⟨And.left, fun waiting => ⟨waiting, now, runner, rfl, played⟩⟩
      simp only [perform] at happened
      split at happened
      · rename_i runner provider played
        cases happened
        rw [counts runner (by rw [played])]
        cases Runner.played_of_play played with
        | already playing => simp [playing]
        | @started tree leases => exact Runner.pauses_prepare { site.runner with leases := leases }
      · rename_i error provider refused
        cases happened
        refine ⟨?_, fun _ => rfl⟩
        rintro ⟨-, nowToo, runner, same, played⟩
        cases same
        rw [refused] at played
        cases played
    | pause =>
      cases happened
      refine still (fun _ same => by cases same) ?_
      dsimp only
      unfold Runner.pause
      split <;> rfl
    | stop =>
      cases happened
      exact still (fun _ same => by cases same) (Runner.pauses_stop _ _)
    | restart =>
      cases happened
      refine still (fun _ same => by cases same) ?_
      simp only [Runner.restart]
      split <;> exact Runner.pauses_reset _
    | tick wallClock =>
      refine still (fun _ same => by cases same) ?_
      rw [(perform_tick_eq_ok happened).1]
      exact Runner.pauses_tick _ _ _ _
    | compete change =>
      cases happened
      exact still (fun _ same => by cases same) rfl

instance : DecidablePred (Deed.Plays : Deed σ π → Prop)
  | .perform _ .play => .isTrue trivial
  | .perform _ (.register _ _) | .perform _ (.load _) | .perform _ (.define _ _)
  | .perform _ (.write _ _) | .perform _ .pause | .perform _ .stop | .perform _ .restart
  | .perform _ (.tick _) | .perform _ (.compete _) | .resetSessions => .isFalse id

/-- Whatever happens, the count tells modulo its size how often the mission was played on. -/
theorem pauses_undergoAll (happened : site.undergoAll deeds = .ok after) :
    ∃ times ≤ deeds.countP (·.Plays), after.runner.pauses =
      site.runner.pauses + BitVec.ofNat 64 times ∧ (site.Encounters Resumes deeds ↔ 0 < times) := by
  induction deeds generalizing site with
  | nil =>
    cases happened
    refine ⟨0, Nat.zero_le _, (BitVec.add_zero _).symm, ?_⟩
    simp [Encounters]
  | cons deed rest ih =>
    rcases undergoAll_cons_eq_ok.1 happened with ⟨middle, first, happened⟩
    rcases ih happened with ⟨times, atMost, counted, encounters⟩
    have here := pauses_undergo first
    have next : (∃ middle, site.undergo deed = .ok middle ∧ middle.Encounters Resumes rest) ↔
        middle.Encounters Resumes rest := by simp [first]
    rw [encounters_cons, next, encounters, List.countP_cons]
    by_cases resumes : site.Resumes deed
    · have plays : deed.Plays := by
        rcases resumes with ⟨-, now, runner, rfl, -⟩
        trivial
      refine ⟨times + 1, by simp [plays, atMost], ?_, by simp [resumes]⟩
      rw [counted, here.1 resumes]
      simp only [BitVec.ofNat_add, BitVec.add_assoc, BitVec.add_comm 1]
      rfl
    · exact ⟨times, by omega, by rw [counted, here.2 resumes], by simp [resumes]⟩

/-- The count is the same if the mission was not played on, and another one if it was, unless it
was played so often that the count is back where it was. -/
theorem pauses_of_encounters (happened : site.undergoAll deeds = .ok after) :
    (¬ site.Encounters Resumes deeds → after.runner.pauses = site.runner.pauses) ∧
      (site.Encounters Resumes deeds → deeds.countP (·.Plays) < 2 ^ 64 →
        after.runner.pauses ≠ site.runner.pauses) := by
  rcases pauses_undergoAll happened with ⟨times, atMost, counted, encounters⟩
  rw [encounters, counted]
  refine ⟨fun never => ?_, fun some few same => ?_⟩
  · obtain rfl : times = 0 := by omega
    exact BitVec.add_zero _
  · have zero : BitVec.ofNat 64 times = 0 := by simpa using same
    have small := congrArg BitVec.toNat zero
    rw [BitVec.toNat_ofNat, Nat.mod_eq_of_lt (by omega)] at small
    simp at small
    omega

/-- A node that remembers something after a tick of the mission had its turn in this tick. -/
theorem visits_of_remembered (orderly : site.runner.Orderly) {now : Duration}
    {wallClock : WallClock} {status : Status}
    (happened : site.undergo (.perform now (.tick wallClock)) = .ok after)
    (ran : (site.runner.tick now wallClock site.provider).1 = .ok status)
    (remembered : after.runner.runs.get? key ≠ none) :
    site.Visits key (.perform now (.tick wallClock)) := by
  have ticked := orderly.ticked now wallClock site.provider
  rw [← (perform_tick_eq_ok happened).1] at ticked
  rw [ran] at ticked
  generalize after.runner = left at ticked remembered
  cases ticked with
  | @ran tree _ context _ leases loaded ticked advances active goesOn =>
    refine ⟨now, wallClock, status, tree, rfl, ran, loaded, ?_⟩
    rw [ticked]
    cases (active key (RunStore.isActive_of_remembered remembered)).2 with
    | first ran => exact ⟨_, ran, rfl⟩
    | next above invokes ran => exact ⟨_, ran, rfl⟩

/-- A node waits for a request, of a service that is known. -/
structure Awaits (site : Site σ π) (lower : RunKey) (handle : CallHandle)
    (call : OutstandingCall) : Prop where
  made : site.runner.runs.callAt lower = some handle
  outstanding : site.runner.client.calls.get? handle = some call
  known : site.runner.client.services.contains call.service = true

/-- In a deed the service of a request is asked to cancel it. -/
def Cancels (call : OutstandingCall) (site : Site σ π) (deed : Deed σ π) : Prop :=
  ∃ after exchanges, site.undergo deed = .ok after ∧
    site.runner.client.Uses exchanges after.runner.client ∧
    .cancelled call.service call.call ∈ exchanges

/-- What becomes of a node that has no turn: it is forgotten, or it waits, and everything is kept,
though a stop takes requests away, which are cancelled. Unless the mission is played on nothing
changes. -/
inductive Waits (key : RunKey) (left : Site σ π) (between : List (Deed σ π)) (site : Site σ π) :
    Prop where
  | forgotten (none : site.runner.runs.get? key = none)
  | waits (frames : site.runner.runs.frames = left.runner.runs.frames)
      (kept : left.runner.runs.Sheds site.runner.runs)
      (requests : ∀ lower handle call, left.Awaits lower handle call →
        site.Awaits lower handle call ∨ left.Encounters (Cancels call) between)
      (state : site.runner.state = .stopped ∨
        (site.runner.state = .playing ∨ site.runner.state = .paused) ∧
          (¬ left.Encounters Resumes between → site.runner.runs = left.runner.runs))

namespace Waits

section Steps

variable (waits : Waits key left between site) (reached : left.undergoAll between = .ok site)
include waits reached

theorem of_same (runs : after.runner.runs = site.runner.runs)
    (state : after.runner.state = site.runner.state)
    (calls : after.runner.client.calls = site.runner.client.calls)
    (services : ∀ name, site.runner.client.services.contains name = true →
      after.runner.client.services.contains name = true) :
    Waits key left (between ++ [deed]) after := by
  cases waits with
  | forgotten none => exact .forgotten (by rw [runs, none])
  | waits frames kept requests goesOn =>
    refine .waits ?_ ?_ (fun lower handle call awaits => ?_) ?_
    · rw [runs, frames]
    · rw [runs]
      exact kept
    · rw [encounters_snoc reached]
      rcases requests lower handle call awaits with ⟨made, outstanding, known⟩ | cancelled
      · exact Or.inl ⟨by rw [runs, made], by rw [calls, outstanding], services _ known⟩
      · exact Or.inr (Or.inl cancelled)
    · rw [runs, state, encounters_snoc reached]
      exact goesOn.imp_right (And.imp_right fun goesOn never => goesOn (never ∘ Or.inl))

theorem paused : Waits key left (between ++ [deed]) { site with runner := site.runner.pause } := by
  unfold Runner.pause
  split
  · rename_i playing
    cases waits with
    | forgotten none => exact .forgotten none
    | waits frames kept requests goesOn =>
      refine .waits frames kept (fun lower handle call awaits => ?_) (Or.inr ⟨Or.inr rfl, ?_⟩)
      · rw [encounters_snoc reached]
        exact (requests lower handle call awaits).imp
          (fun awaits => ⟨awaits.made, awaits.outstanding, awaits.known⟩) Or.inl
      · rw [encounters_snoc reached]
        exact fun never => (goesOn.resolve_left (by simp [playing])).2 (never ∘ Or.inl)
  · exact waits.of_same reached rfl rfl rfl fun _ => id

theorem stopped (happened : site.undergo deed = .ok after)
    (stops : (site.runner.stop site.provider).1 = after.runner) :
    Waits key left (between ++ [deed]) after := by
  have runs : after.runner.runs = site.runner.runs.detachCalls.2 := by
    rw [← stops]
    exact Runner.stop_runs.1
  cases waits with
  | forgotten none =>
    refine .forgotten ?_
    rw [runs, RunStore.get?_detachCalls, none, Option.map_none]
  | waits frames kept requests goesOn =>
    refine .waits ?_ ?_ (fun lower handle call awaits => Or.inr ?_) (Or.inl ?_)
    · rw [runs]
      exact frames
    · rw [runs]
      exact kept.detached
    · rw [encounters_snoc reached]
      refine (requests lower handle call awaits).symm.imp_right fun awaits => ?_
      rcases Runner.exists_cancelled_of_stop awaits.made awaits.outstanding awaits.known site.provider with
        ⟨exchanges, used, cancelled⟩
      exact ⟨after, exchanges, happened, stops ▸ used, cancelled⟩
    · rw [← stops, Runner.state_stop]
      rcases goesOn with stopped | ⟨playing | paused, -⟩ <;> simp [*]

theorem played {runner : Runner σ} {now : Duration} {provider : π}
    (played : site.runner.play now site.provider = (.ok runner, provider)) :
    Waits key left (between ++ [.perform now .play]) ⟨runner, provider⟩ := by
  cases Runner.played_of_play played with
  | already playing => exact waits.of_same reached rfl rfl rfl fun _ => id
  | @started tree leases _ waiting loaded granted =>
    rcases Runner.prepare_runs_or { site.runner with leases := leases } with
      ⟨runs, client⟩ | runs
    · cases waits with
      | forgotten none => exact .forgotten ((congrArg (RunStore.get? · key) runs).trans none)
      | waits frames kept requests goesOn =>
        have resumes : site.Resumes (.perform now .play) := by
          refine ⟨?_, now, _, rfl, by rw [played]⟩
          rcases goesOn with stopped | ⟨playing | paused, -⟩
          · exact Or.inr stopped
          · exact absurd playing waiting
          · exact Or.inl paused
        refine .waits ?_ ?_ (fun lower handle call awaits => ?_) (Or.inr ⟨Or.inl rfl, ?_⟩)
        · exact (congrArg RunStore.frames runs).trans frames
        · rw [runs]
          exact kept
        · rw [encounters_snoc reached]
          refine (requests lower handle call awaits).imp (fun awaits => ?_) Or.inl
          refine ⟨?_, ?_, ?_⟩
          · rw [runs]
            exact awaits.made
          · rw [client]
            exact awaits.outstanding
          · rw [client]
            exact awaits.known
        · rw [encounters_snoc reached]
          exact fun never => absurd (Or.inr resumes) never
    · exact .forgotten (by rw [runs]; rfl)

/-- A node that has no turn goes on waiting, unless it is forgotten. -/
theorem undergo (orderly : site.runner.Orderly) (happened : site.undergo deed = .ok after)
    (unvisited : ¬ site.Visits key deed) : Waits key left (between ++ [deed]) after := by
  have of_empty : after.runner.runs = .empty → Waits key left (between ++ [deed]) after :=
    fun runs => .forgotten (by rw [runs]; rfl)
  cases deed with
  | resetSessions =>
    cases happened
    exact waits.of_same reached rfl rfl rfl fun _ => id
  | perform now operation =>
    have performed : site.perform now operation = .ok after := happened
    cases operation with
    | register name service =>
      cases performed
      refine waits.of_same reached rfl rfl rfl fun other known => ?_
      simp only [Client.register, Table.contains, Table.get?_insert]
      split
      · rfl
      · exact known
    | load accepted =>
      cases performed
      exact of_empty Runner.load_runs.1
    | define name value =>
      rcases perform_define_eq_ok performed with ⟨blackboard, rfl⟩
      exact waits.of_same reached rfl rfl rfl fun _ => id
    | write name value =>
      rcases perform_write_eq_ok performed with ⟨blackboard, rfl⟩
      exact waits.of_same reached rfl rfl rfl fun _ => id
    | play =>
      simp only [perform] at performed
      split at performed
      · rename_i played
        cases performed
        exact waits.played reached played
      · cases performed
        exact waits.of_same reached rfl rfl rfl fun _ => id
    | pause =>
      cases performed
      exact waits.paused reached
    | stop =>
      cases performed
      exact waits.stopped reached happened rfl
    | restart =>
      cases performed
      exact of_empty Runner.restart_runs.1
    | tick wallClock =>
      rcases perform_tick_eq_ok performed with ⟨same, calm⟩
      cases result : (site.runner.tick now wallClock site.provider).1 with
      | ok status =>
        refine .forgotten ?_
        by_contra remembered
        exact unvisited (visits_of_remembered orderly happened result remembered)
      | error failure =>
        have ticked := orderly.ticked now wallClock site.provider
        rw [← same, result] at ticked
        rw [result] at calm
        have refused : ∃ leases, after.runner = { site.runner with leases := leases } := by
          generalize after.runner = later at ticked
          cases ticked with
          | refused leases cause => exact ⟨leases, rfl⟩
          | crashed loaded overflow => exact absurd rfl (calm _)
        rcases refused with ⟨leases, refused⟩
        exact waits.of_same reached (by rw [refused]) (by rw [refused]) (by rw [refused])
          (by rw [refused]; exact fun _ => id)
    | compete change =>
      cases performed
      exact waits.of_same reached rfl rfl rfl fun _ => id

end Steps

/-- Whatever happens to a mission, a node that has no turn goes on waiting or is forgotten. -/
theorem undergoAll (waits : Waits key left [] left) (kempt : left.Kempt)
    (happened : left.undergoAll between = .ok later)
    (unvisited : ¬ left.Encounters (Visits key) between) : Waits key left between later := by
  induction between using List.reverseRecOn generalizing later with
  | nil =>
    cases happened
    exact waits
  | append_singleton deeds deed ih =>
    rcases bind_eq_ok.1 (undergoAll_append.symm.trans happened) with ⟨middle, earlier, last⟩
    rcases undergoAll_cons_eq_ok.1 last with ⟨other, last, done⟩
    cases done
    rw [encounters_snoc earlier, not_or] at unvisited
    have kemptMiddle := kept_undergoAll Kempt Kempt.undergo kempt earlier
    exact (ih earlier unvisited.1).undergo earlier kemptMiddle.orderly last unvisited.2

end Waits

/-- A tick of the mission has a status, and the engine arrives at a node in it. -/
structure Arrives (site : Site σ π) (tree : Tree) (now : Duration) (wallClock : WallClock)
    (key : RunKey) (depth : Nat) (before : Context σ) : Prop where
  loaded : site.runner.tree = some tree
  ran : ∃ status, (site.runner.tick now wallClock site.provider).1 = .ok status
  ticks : ∃ invocations, BehaviorTree.Ticks (site.runner.setting tree now wallClock)
    site.runner.context invocations depth key.node before
  frame : before.frame = key.frame

section Arrives

variable {tree : Tree} {now : Duration} {wallClock : WallClock} {depth : Nat} {status : Status}
  {before after : Context σ} {final : RunStore} {lower : RunKey} {node : Node}
  (kempt : site.Kempt) (distinct : final.Distinct)
  (framesIn : (site.runner.engineTick tree now wallClock).2.runs.FramesIn final)
include kempt distinct framesIn

theorem Arrives.excursion (arrives : site.Arrives tree now wallClock key depth before) :
    (site.runner.setting tree now wallClock).Excursion final key.node
    site.runner.context before
    (outcome (tickWithin (site.runner.setting tree now wallClock) depth key.node) before).2
    (site.runner.engineTick tree now wallClock).2 := by
  rcases kempt.accepted tree arrives.loaded with ⟨source, accepted⟩
  rcases arrives.ticks with ⟨invocations, ticks⟩
  exact ticks.excursion (Tree.wellFormed_ofSource accepted) (Tree.branches_ofSource accepted)
    distinct framesIn

/-- A node has one turn at most in a tick of the mission. -/
theorem Arrives.unique (arrives : site.Arrives tree now wallClock key depth before)
    {depthToo : Nat} {beforeToo : Context σ}
    (arrivesToo : site.Arrives tree now wallClock key depthToo beforeToo) :
    depth = depthToo ∧ before = beforeToo := by
  rcases kempt.accepted tree arrives.loaded with ⟨source, accepted⟩
  rcases arrives.ticks with ⟨invocations, ticks⟩
  rcases arrivesToo.ticks with ⟨invocationsToo, ticksToo⟩
  exact ticks.unique (Tree.wellFormed_ofSource accepted) (Tree.branches_ofSource accepted)
    distinct framesIn ticksToo (by rw [arrives.frame, arrivesToo.frame])

/-- A node that is remembered finds its subtree as it was before the tick. -/
theorem Arrives.finds (arrives : site.Arrives tree now wallClock key depth before)
    (remembered : before.runs.get? key ≠ none)
    (reaches : tree.Reaches final key lower) :
    before.runs.get? lower = site.runner.runs.get? lower := by
  have there := (arrives.excursion kempt distinct framesIn).there key
  rw [arrives.frame] at there
  exact (there (.refl key)).kept remembered reaches

/-- A node that is remembered leaves its subtree as it is after the tick. -/
theorem Arrives.leaves (arrives : site.Arrives tree now wallClock key depth before)
    (remembered : (site.runner.engineTick tree now wallClock).2.runs.get? key ≠ none)
    (reaches : tree.Reaches final key lower) :
    (site.runner.engineTick tree now wallClock).2.runs.get? lower =
      (outcome (tickWithin (site.runner.setting tree now wallClock) depth key.node)
        before).2.runs.get? lower := by
  have back := (arrives.excursion kempt distinct framesIn).back key
  rw [arrives.frame] at back
  exact (back (.refl key)).kept remembered reaches

/-- A node that starts its child afresh after a pause remembers until when it counted the pauses. -/
theorem Arrives.epoch
    (arrives : site.Arrives tree now wallClock key (depth + 1) before)
    (found : tree.node? key.node = some node) (kind : node.kind = .restartWhenPaused)
    (ran : outcome (tickWithin (site.runner.setting tree now wallClock) (depth + 1) key.node)
      before = (.ok status, after))
    (remembered : (site.runner.engineTick tree now wallClock).2.runs.get? key ≠ none) :
    (site.runner.engineTick tree now wallClock).2.runs.get? key =
      some (.epoch site.runner.pauses) := by
  have wellFormed := (kempt.orderly.loaded tree arrives.loaded).wellFormed
  have same := arrives.leaves kempt distinct framesIn remembered (.refl key)
  rw [ran] at same
  rw [same] at remembered ⊢
  exact get?_of_restartWhenPaused wellFormed
    found kind arrives.frame ran remembered

/-- A halt of what is below a node that is remembered leaves nothing of it. -/
theorem Arrives.empties {halted : Context σ} {child : NodeIndex}
    (arrives : site.Arrives tree now wallClock key depth before)
    (remembered : before.runs.get? key ≠ none)
    (below : tree.ReachesBelow final key (key.sibling child))
    (reaches : tree.Reaches final (key.sibling child) lower)
    (halts : before.Halts tree [key.sibling child] halted) : before.Empties lower halted := by
  have excursion := arrives.excursion kempt distinct framesIn
  have stays : site.runner.context.Stays (site.runner.engineTick tree now wallClock).2 :=
    staying_tickWithin (kempt.orderly.loaded tree arrives.loaded).wellFormed _ _ _
  have found := arrives.finds kempt distinct framesIn remembered (below.then reaches).reaches
  by_cases known : tree.Reaches before.runs (key.sibling child) lower
  · refine halts.empties known fun id opened => ?_
    have stored : site.runner.runs.scopeAt lower = some id :=
      (congrArg (Option.bind · RunState.scope?) found).symm.trans opened
    exact kempt.orderly.accounted.slot_ne_zero stored
  · -- What is not known yet has nothing to be forgotten.
    refine halts.empties_of_none ?_
    by_contra state
    rw [found] at state
    rcases Option.ne_none_iff_exists'.1 state with ⟨state, stored⟩
    have knows := kempt.housed.states lower state stored
    exact known ((kempt.housed.reaches_of_later (stays.grows.framesIn.trans framesIn) distinct knows
      reaches).mono excursion.framesThere)

end Arrives

/-- A request that a node remembers when the engine arrives there is the one that it waited for when
the tick began. -/
theorem Arrives.waits_for {tree : Tree} {now : Duration} {wallClock : WallClock} {depth : Nat}
    {before : Context σ} {lower : RunKey} {handle : CallHandle} {call : OutstandingCall}
    (arrives : site.Arrives tree now wallClock key depth before) (kempt : site.Kempt)
    (awaits : site.Awaits lower handle call) (made : before.runs.callAt lower = some handle) :
    before.client.calls.get? handle = some call ∧
      before.client.services.contains call.service = true := by
  rcases kempt.accepted tree arrives.loaded with ⟨source, accepted⟩
  have wellFormed := Tree.wellFormed_ofSource accepted
  rcases wellFormed.ranked with ⟨rank, ranking⟩
  rcases arrives.ticks with ⟨invocations, ticks⟩
  have ready := kempt.orderly.ready kempt.housed arrives.loaded
  have approach := ticks.approach wellFormed (Tree.branches_ofSource accepted) ranking ready
  rcases approach.deals.used.exists_uses with ⟨exchanges, used⟩
  exact ⟨approach.get?_calls ready.sound awaits.outstanding made,
    (used.contains_eq call.service).trans awaits.known⟩

/-- Nothing is remembered when the mission is over. -/
theorem Kempt.get?_of_isOver (kempt : site.Kempt) {tree : Tree} {now : Duration}
    {wallClock : WallClock} {status : Status} (loaded : site.runner.tree = some tree)
    (ran : (site.runner.tick now wallClock site.provider).1 = .ok status)
    (isOver : status ≠ .running) (key : RunKey) :
    (site.runner.engineTick tree now wallClock).2.runs.get? key = none := by
  have wellFormed := (kempt.orderly.loaded tree loaded).wellFormed
  have evaluated := kempt.outcome_eq loaded ran
  have cleared := (ends_tickWithin_cleared wellFormed _ _ _).of_eq_ok evaluated isOver
  have active := ((kempt.orderly.ends_engineTick loaded now wallClock).of_eq_ok evaluated).2 key
  by_contra remembered
  have live := active (RunStore.isActive_of_remembered remembered)
  exact remembered (RunStore.isActive_eq_false_iff.1 (cleared key live.1.reaches))

/-- What a tick that has a status leaves: whatever is remembered waits for the next tick. -/
theorem Kempt.left_of_tick (kempt : site.Kempt) {tree : Tree} {now : Duration}
    {wallClock : WallClock} {status : Status} (loaded : site.runner.tree = some tree)
    (ran : (site.runner.tick now wallClock site.provider).1 = .ok status)
    (ticked : site.undergo (.perform now (.tick wallClock)) = .ok left) :
    left.runner.runs = (site.runner.engineTick tree now wallClock).2.runs ∧
      left.runner.pauses = site.runner.pauses ∧ ∀ key, Waits key left [] left := by
  have same := (perform_tick_eq_ok ticked).1
  rcases (kempt.orderly.ticked now wallClock site.provider).runs_of_ok ran with
    ⟨other, isTree, evaluated, runs, -⟩
  cases loaded.symm.trans isTree
  rw [← same] at runs
  refine ⟨runs, ?_, ?_⟩
  · rw [same, Runner.pauses_tick]
  · by_cases running : status = .running
    · have playing := (Runner.playing_of_tick ran).2 running
      rw [← same] at playing
      exact fun _ => .waits rfl (.refl _) (fun _ _ _ => Or.inl)
        (Or.inr ⟨Or.inl playing, fun _ => rfl⟩)
    · intro key
      exact .forgotten (by rw [runs, kempt.get?_of_isOver loaded ran running])

/-- Until the next turn of a node that is not forgotten the run states are kept, though requests may
be given up, and cancelled then. Unless the mission was played on they are those that the tick
left. -/
structure Keeps (left later : Site σ π) (between : List (Deed σ π)) : Prop where
  frames : later.runner.runs.frames = left.runner.runs.frames
  sheds : left.runner.runs.Sheds later.runner.runs
  calls : ∀ lower handle, left.runner.runs.callAt lower = some handle →
    later.runner.runs.callAt lower = some handle ∨ ¬ later.runner.client.Holds handle
  requests : ∀ lower handle call, left.Awaits lower handle call →
    later.Awaits lower handle call ∨ left.Encounters (Cancels call) between
  still : ¬ left.Encounters Resumes between → later.runner.runs = left.runner.runs

theorem Kempt.keeps (kempt : left.Kempt) {nowToo : Duration} {wallClockToo : WallClock}
    {statusToo : Status} (waits : Waits key left [] left)
    (happened : left.undergoAll between = .ok later)
    (unvisited : ¬ left.Encounters (Visits key) between)
    (ranToo : (later.runner.tick nowToo wallClockToo later.provider).1 = .ok statusToo)
    (remembered : later.runner.runs.get? key ≠ none) : left.Keeps later between := by
  have kemptLater := kept_undergoAll Kempt Kempt.undergo kempt happened
  rcases waits.undergoAll kempt happened unvisited with none | ⟨frames, kept, requests, goesOn⟩
  · exact absurd none remembered
  · refine ⟨frames, kept, fun lower handle made => ?_, requests, fun never => ?_⟩
    · exact kept.callAt_or kempt.orderly.accounted.calls kemptLater.orderly.accounted.calls made
    · rcases goesOn with stopped | ⟨-, goesOn⟩
      · rw [(Runner.playing_of_tick ranToo).1] at stopped
        cases stopped
      · exact goesOn never

/-- Nothing is left of what a node left when it is ticked again. What it found until then is gone.
Its request was cancelled at its service, before the tick or in it. -/
structure Renews (left later : Site σ π) (between : List (Deed σ π)) (lower : RunKey)
    (settled found entry : Context σ) : Prop where
  empties : found.Empties lower entry
  calls : ∀ handle, settled.runs.callAt lower = some handle →
    ¬ later.runner.client.Holds handle ∨ ¬ entry.client.Holds handle
  cancelled : ∀ handle, settled.runs.callAt lower = some handle →
    ∃ call, left.runner.client.calls.get? handle = some call ∧
      (left.Encounters (Cancels call) between ∨
        ∃ exchanges, found.client.Uses exchanges entry.client ∧
          .cancelled call.service call.call ∈ exchanges)
  scopes : ∀ id, settled.runs.scopeAt lower = some id → entry.blackboard.isAlive id = false

theorem Keeps.renews {lower : RunKey} {settled found entry : Context σ}
    (keeps : left.Keeps later between) (kempt : left.Kempt)
    (registered : left.runner.client.Registered)
    (leaves : left.runner.runs.get? lower = settled.runs.get? lower)
    (finds : found.runs.get? lower = later.runner.runs.get? lower)
    (waitsFor : ∀ handle call, later.Awaits lower handle call →
      found.runs.callAt lower = some handle → found.client.calls.get? handle = some call ∧
        found.client.services.contains call.service = true)
    (empties : found.Empties lower entry) :
    left.Renews later between lower settled found entry := by
  have calls : found.runs.callAt lower = later.runner.runs.callAt lower :=
    congrArg (Option.bind · RunState.call?) finds
  have scopes : found.runs.scopeAt lower = later.runner.runs.scopeAt lower :=
    congrArg (Option.bind · RunState.scope?) finds
  have leavesCall : left.runner.runs.callAt lower = settled.runs.callAt lower :=
    congrArg (Option.bind · RunState.call?) leaves
  refine ⟨empties, fun handle made => ?_, fun handle made => ?_,
    fun id opened => empties.scopes id ?_⟩
  · rcases keeps.calls lower handle (leavesCall.trans made) with kept | given
    · exact Or.inr (empties.calls handle (calls.trans kept))
    · exact Or.inl given
  · have held := (kempt.orderly.accounted.calls.used_iff handle).2 ⟨lower, leavesCall.trans made⟩
    rcases Table.contains_iff.1 held with ⟨call, outstanding⟩
    have awaits : left.Awaits lower handle call :=
      ⟨leavesCall.trans made, outstanding, registered handle call outstanding⟩
    refine ⟨call, outstanding, (keeps.requests lower handle call awaits).symm.imp_right ?_⟩
    intro still
    have here := calls.trans still.made
    rcases waitsFor handle call still here with ⟨found, known⟩
    exact empties.cancelled handle call here found known
  · rw [scopes, keeps.sheds.scopeAt_eq]
    exact (congrArg (Option.bind · RunState.scope?) leaves).trans opened

/-- A node that starts its child afresh after a pause does so if and only if the mission was played
on since its last turn: then nothing is left of the subtree of the child when the child is ticked,
and the requests that were made in it are cancelled at their services. Otherwise the child finds its
subtree as it was left. This takes for granted that every reference has a frame of its own, and that
the mission was not played on so often that the count is back where it was. -/
theorem restarts_exactly_on_resume (config : MissionConfig) (provider : π)
    {earlier : List (Deed σ π)} {tree : Tree} {node : Node} {now nowToo : Duration}
    {wallClock wallClockToo : WallClock} {depth depthToo : Nat} {status : Status}
    {before settled beforeToo : Context σ}
    (reached : (start config provider : Site σ π).undergoAll earlier = .ok site)
    (found : tree.node? key.node = some node) (kind : node.kind = .restartWhenPaused)
    (arrives : site.Arrives tree now wallClock key (depth + 1) before)
    (ran : outcome (tickWithin (site.runner.setting tree now wallClock) (depth + 1) key.node)
      before = (.ok status, settled))
    (ticked : site.undergo (.perform now (.tick wallClock)) = .ok left)
    (happened : left.undergoAll between = .ok later)
    (unvisited : ¬ left.Encounters (Visits key) between)
    (arrivesToo : later.Arrives tree nowToo wallClockToo key (depthToo + 1) beforeToo)
    (survives : beforeToo.runs.get? key ≠ none) :
    (∀ configuration, node.effectiveConfiguration beforeToo = .ok configuration →
      ∃ index entry, Asks (later.runner.setting tree nowToo wallClockToo) depthToo key.node
        beforeToo index entry) ∧
    (∀ index entry, Asks (later.runner.setting tree nowToo wallClockToo) depthToo key.node
      beforeToo index entry → node.children = [index]) ∧
    ((later.runner.engineTick tree nowToo wallClockToo).2.runs.frames.size < 2 ^ 32 →
      ((∀ depthOther other, site.Arrives tree now wallClock key depthOther other →
          other = before) ∧
        ∀ depthOther other, later.Arrives tree nowToo wallClockToo key depthOther other →
          other = beforeToo) ∧
      ∀ index entry, Asks (later.runner.setting tree nowToo wallClockToo) depthToo key.node
        beforeToo index entry →
        ∀ lower, tree.Reaches (later.runner.engineTick tree nowToo wallClockToo).2.runs
          (key.sibling index) lower →
          (left.Encounters Resumes between → between.countP (·.Plays) < 2 ^ 64 →
            left.Renews later between lower settled beforeToo entry) ∧
          (¬ left.Encounters Resumes between →
            entry.runs.get? lower = settled.runs.get? lower)) := by
  have kempt := kept_undergoAll Kempt Kempt.undergo (kempt_start config provider) reached
  have kemptLeft := kempt.undergo ticked
  have kemptLater := kept_undergoAll Kempt Kempt.undergo kemptLeft happened
  have registered := registered_undergo kempt.orderly
    (registered_undergoAll config provider reached) ticked
  have wellFormed := (kempt.orderly.loaded tree arrives.loaded).wellFormed
  have fits := wellFormed.fits _ _ found
  refine ⟨fun configuration effective => ?_, fun index entry asks => ?_, fun room => ?_⟩
  · rcases fits.one_child (by rw [kind]; rfl) with ⟨child, only⟩
    cases Configuration.eq_restartWhenPaused ((fits.effective_kind effective).trans kind)
    exact ⟨child, exists_asks_of_restartWhenPaused wellFormed found only arrivesToo.frame effective⟩
  · exact (asks.of_restartWhenPaused wellFormed found kind arrivesToo.frame).1
  rcases wellFormed.ranked with ⟨rank, ranking⟩
  rcases arrives.ran with ⟨reported, firstRan⟩
  rcases arrivesToo.ran with ⟨reportedToo, secondRan⟩
  -- The frames at the end of the second tick are those of both ticks.
  have stays : later.runner.context.Stays (later.runner.engineTick tree nowToo wallClockToo).2 :=
    staying_tickWithin wellFormed _ _ _
  have distinct := ((kemptLater.framed.trans stays.grows).numbered RunStore.numbered_empty
    room).distinct
  have finds : ∀ lower,
      tree.Reaches (later.runner.engineTick tree nowToo wallClockToo).2.runs key lower →
        beforeToo.runs.get? lower = later.runner.runs.get? lower :=
    fun _ => arrivesToo.finds kemptLater distinct (.refl _) survives
  have remembered : later.runner.runs.get? key ≠ none := by
    rw [← finds key (.refl key)]
    exact survives
  rcases kempt.left_of_tick arrives.loaded firstRan ticked with ⟨runs, pauses, waits⟩
  have keeps := kemptLeft.keeps (waits key) happened unvisited secondRan remembered
  rcases pauses_of_encounters happened with ⟨unpaused, paused⟩
  rw [pauses] at unpaused paused
  have framesIn : (site.runner.engineTick tree now wallClock).2.runs.FramesIn
      (later.runner.engineTick tree nowToo wallClockToo).2.runs := by
    rw [← runs]
    exact (RunStore.FramesIn.of_eq keeps.frames).trans stays.grows.framesIn
  have rememberedLeft := keeps.sheds.get?_eq_none_iff.not.1 remembered
  rw [runs] at rememberedLeft
  have epochLeft := arrives.epoch kempt distinct framesIn found kind ran rememberedLeft
  have epoch : beforeToo.runs.get? key = some (.epoch site.runner.pauses) := by
    rw [finds key (.refl key)]
    exact keeps.sheds.get?_of_plain (by rw [runs, epochLeft]) trivial
  refine ⟨⟨fun _ _ other => ?_, fun _ _ other => ?_⟩, fun index entry asks lower reaches => ?_⟩
  · exact (other.unique kempt distinct framesIn arrives).2
  · exact (other.unique kemptLater distinct (.refl _) arrivesToo).2
  rcases asks.of_restartWhenPaused wellFormed found kind arrivesToo.frame with ⟨only, resumes⟩
  have first : tree.ReachesBelow (later.runner.engineTick tree nowToo wallClockToo).2.runs key
      (key.sibling index) := (Tree.Invokes.child found (by simp [only])).reachesBelow
  have below := first.then reaches
  have different : lower ≠ key := by
    rintro rfl
    have back : tree.Reaches RunStore.empty lower lower := .refl _
    exact below.not_reaches ranking back
  have leaves := arrives.leaves kempt distinct framesIn rememberedLeft below.reaches
  rw [ran, ← runs] at leaves
  cases resumes _ epoch with
  | goesOn same =>
    refine ⟨fun encounters few => absurd same.symm (paused encounters few), fun never => ?_⟩
    rw [Context.get?_setRun, if_neg different, finds lower below.reaches, keeps.still never,
      leaves]
  | @afresh halted apart halts =>
    refine ⟨fun _ _ => ?_, fun never => absurd (unpaused never).symm apart⟩
    have empties := (arrivesToo.empties kemptLater distinct (.refl _) survives first reaches
      halts).setRun different (.epoch later.runner.pauses)
    exact keeps.renews kemptLeft registered leaves (finds lower below.reaches)
      (fun _ _ awaits made => arrivesToo.waits_for kemptLater awaits made) empties

/-- An arm that is asked afresh after a pause. -/
def asksAfresh : MissionSource :=
  ⟨[⟨"main", [], .node "RestartWhenPaused" none []
      [.node "RemoteGrpc" none [⟨.input, "service", .constant (.string "arm")⟩] []]⟩]⟩

set_option maxRecDepth 100000 in
def asksAfreshTree : AcceptedTree where
  source := asksAfresh
  tree := (Tree.ofSource asksAfresh).toOption.getD default
  accepted := by cbv

def untilAsked : List (Deed ScriptedService LeaseRegistry) :=
  [.perform .zero (.load asksAfreshTree), .perform .zero (.register "arm" (.ofScript .empty)),
    .perform .zero .play]

/-- Somebody pauses the mission and plays it on at once. -/
def disturbance : List (Deed ScriptedService LeaseRegistry) :=
  [.perform tenSeconds .pause, .perform tenSeconds .play]

def unasked : Site ScriptedService LeaseRegistry := afterAll (start .standard .empty) untilAsked

def asked : Site ScriptedService LeaseRegistry := afterAll unasked [.perform .zero (.tick default)]

def disturbed : Site ScriptedService LeaseRegistry := afterAll asked disturbance

/-- What the first turn of the root leaves. -/
def firstAsked : Context ScriptedService :=
  (outcome (tickWithin (unasked.runner.setting asksAfreshTree.tree .zero default) 3 1)
    unasked.runner.context).2

set_option maxRecDepth 100000 in
theorem undergoAll_untilAsked :
    (start .standard .empty).undergoAll untilAsked = .ok unasked ∧
      unasked.undergo (.perform .zero (.tick default)) = .ok asked ∧
      asked.undergoAll disturbance = .ok disturbed := by
  refine ⟨?_, ?_, ?_⟩ <;> cbv

theorem unvisited_disturbance (key : RunKey) : ¬ asked.Encounters (Visits key) disturbance := by
  rintro ⟨earlier, deed, later, middle, same, -, now, wallClock, status, tree, rfl, -⟩
  have listed : Deed.perform now (.tick wallClock) ∈ disturbance := by rw [same]; simp
  simp [disturbance] at listed

/-- The engine arrives at the root first. -/
theorem arrives_main {site : Site ScriptedService LeaseRegistry} {tree : Tree} {now : Duration}
    {wallClock : WallClock} {status : Status} (loaded : site.runner.tree = some tree)
    (ran : (site.runner.tick now wallClock site.provider).1 = .ok status) :
    site.Arrives tree now wallClock ⟨0, tree.main⟩ (tree.nodes.size + 1) site.runner.context :=
  ⟨loaded, ⟨status, ran⟩, ⟨[], .main⟩, rfl⟩

set_option maxRecDepth 100000 in
theorem arrives_asksAfresh :
    unasked.Arrives asksAfreshTree.tree .zero default ⟨0, 1⟩ 3 unasked.runner.context ∧
      disturbed.Arrives asksAfreshTree.tree tenSeconds default ⟨0, 1⟩ 3
        disturbed.runner.context := by
  have main : asksAfreshTree.tree.main = 1 ∧ asksAfreshTree.tree.nodes.size = 2 :=
    ⟨by cbv, by cbv⟩
  have loaded : unasked.runner.tree = some asksAfreshTree.tree ∧
      disturbed.runner.tree = some asksAfreshTree.tree := ⟨by cbv, by cbv⟩
  have running : (unasked.runner.tick .zero default unasked.provider).1 = .ok .running ∧
      (disturbed.runner.tick tenSeconds default disturbed.provider).1 = .ok .running :=
    ⟨by cbv, by cbv⟩
  have arrives := arrives_main loaded.1 running.1
  have arrivesToo := arrives_main loaded.2 running.2
  rw [main.1, main.2] at arrives arrivesToo
  exact ⟨arrives, arrivesToo⟩

set_option maxRecDepth 100000 in
theorem encounters_disturbance : asked.Encounters Resumes disturbance := by
  have counts : asked.runner.pauses = 0 ∧ disturbed.runner.pauses = 1 := ⟨by cbv, by cbv⟩
  by_contra never
  have unpaused := (pauses_of_encounters undergoAll_untilAsked.2.2).1 never
  simp [counts] at unpaused

set_option maxRecDepth 100000 in
/-- The mission is played on with the request that was made before. -/
theorem awaits_disturbed : ∃ call : OutstandingCall, call.service = "arm" ∧ call.call = 1 ∧
    disturbed.Awaits ⟨0, 0⟩ ⟨0⟩ call := by
  have outstanding : (disturbed.runner.client.calls.get? ⟨0⟩).map
      (fun call => (call.service, call.call)) = some ("arm", 1) := by cbv
  rcases Option.map_eq_some_iff.1 outstanding with ⟨call, outstanding, names⟩
  obtain ⟨service, number⟩ := Prod.mk.inj names
  exact ⟨call, service, number, by cbv, outstanding, by rw [service]; cbv⟩

set_option maxRecDepth 100000 in
/-- When the mission was played on, the request that was made before is forgotten, and the arm is
told to cancel it. -/
theorem asks_afresh_after_disturbance : ∃ entry,
    Asks (disturbed.runner.setting asksAfreshTree.tree tenSeconds default) 2 1
      disturbed.runner.context 0 entry ∧
    firstAsked.runs.callAt ⟨0, 0⟩ = some ⟨0⟩ ∧
    entry.runs.get? ⟨0, 0⟩ = none ∧
    ∃ exchanges, disturbed.runner.client.Uses exchanges entry.client ∧
      .cancelled "arm" 1 ∈ exchanges := by
  rcases undergoAll_untilAsked with ⟨reached, ticked, happened⟩
  have kinds : (asksAfreshTree.tree.node? 1).map (·.kind) = some .restartWhenPaused := by cbv
  rcases Option.map_eq_some_iff.1 kinds with ⟨node, found, kind⟩
  have effective : (asksAfreshTree.tree.node? 1).map
      (·.effectiveConfiguration disturbed.runner.context) = some (.ok .restartWhenPaused) := by cbv
  rw [found, Option.map_some, Option.some.injEq] at effective
  have ran : outcome (tickWithin (unasked.runner.setting asksAfreshTree.tree .zero default) 3 1)
      unasked.runner.context = (.ok .running, firstAsked) := by
    refine Prod.ext ?_ rfl
    cbv
  have remembers : disturbed.runner.context.runs.get? ⟨0, 1⟩ = some (.epoch 0) := by cbv
  have restarts := restarts_exactly_on_resume .standard .empty reached found kind
    arrives_asksAfresh.1 ran ticked happened (unvisited_disturbance _) arrives_asksAfresh.2
    (by simp [remembers])
  rcases restarts.1 _ effective with ⟨index, entry, asks⟩
  have only := restarts.2.1 index entry asks
  have below := (restarts.2.2 (by cbv)).2 index entry asks
  have children : (asksAfreshTree.tree.node? 1).map (·.children) = some [0] := by cbv
  rw [found, Option.map_some, only, Option.some.injEq, List.singleton_inj] at children
  subst children
  have empties := ((below ⟨0, 0⟩ (.refl _)).1 encounters_disturbance (by decide)).empties
  rcases awaits_disturbed with ⟨call, service, number, made, outstanding, known⟩
  have cancelled := empties.cancelled ⟨0⟩ call made outstanding known
  rw [service, number] at cancelled
  exact ⟨entry, asks, by cbv, empties.forgotten, cancelled⟩

end Site

end BehaviorTree
