import BehaviorTree.Proofs.Runner.Contest
import BehaviorTree.Proofs.Runner.Restart
import BehaviorTree.Proofs.Runner.SameMission

/-!
# Missions that are interrupted

A mission that is paused and played on, or stopped and played on while no request is outstanding,
goes on as if it had not been interrupted, unless a node of its tree asks for pauses. This takes
that the leases are granted whenever the mission is played, and that it is not told to start over
when it is played on.
-/

namespace BehaviorTree

variable {σ π : Type}

/-- An operation interrupts a mission without giving a request up. -/
def Operation.Interrupts (runner : Runner σ) : Operation σ π → Prop
  | .pause => True
  | .stop => runner.client.outstanding = 0
  | _ => False

/-- If a tree is loaded, no node of it asks for pauses. -/
def Deed.IgnoresPauses : Deed σ π → Prop
  | .perform _ (.load accepted) => accepted.tree.IgnoresPauses
  | _ => True

/-- A deed concerns neither the course of a mission nor its ticks. -/
def Deed.Bides : Deed σ π → Prop
  | .perform _ (.register _ _) | .perform _ (.define _ _) | .perform _ (.write _ _) => True
  | .perform _ (.compete _) | .resetSessions => True
  | _ => False

theorem Deed.Bides.ignoresPauses {deed : Deed σ π} (bides : deed.Bides) : deed.IgnoresPauses := by
  cases deed with
  | perform now operation =>
    cases operation with
    | load accepted => exact bides.elim
    | _ => trivial
  | resetSessions => trivial

def Deed.Plays : Deed σ π → Prop
  | .perform _ .play => True
  | _ => False

/-- Somebody else uses the provider of leases. -/
def Deed.Competes : Deed σ π → Prop
  | .perform _ (.compete _) => True
  | _ => False

/-- Where no run state holds a request, there is none to forget. -/
theorem RunStore.detachCalls_of_uncalled {runs : RunStore}
    (uncalled : ∀ key, runs.callAt key = none) : runs.detachCalls = ([], runs) := by
  have quiet : ∀ state ∈ runs.states.values, state.call? = none := by
    intro state listed
    rcases Table.mem_values_iff.1 listed with ⟨key, found⟩
    have called := uncalled key
    rwa [callAt, show runs.get? key = some state from found, Option.bind_some] at called
  have kept : ∀ state ∈ runs.states.values, state.detach = state := by
    intro state listed
    cases state with
    | remote run =>
      have idle : run.call = none := quiet _ listed
      simp only [RunState.detach, idle]
    | _ => rfl
  have states : runs.states.mapValues RunState.detach = runs.states := by
    have same : runs.states.entries.map (fun entry => (entry.1, entry.2.detach)) =
        runs.states.entries :=
      (List.map_congr_left fun entry listed => by
        rw [kept _ (List.mem_map_of_mem listed), id_eq]).trans (List.map_id _)
    simp only [Table.mapValues, same]
  simp only [detachCalls, states, List.filterMap_eq_nil_iff.2 quiet]

namespace Runner

variable [RemoteService σ] {runner : Runner σ}

/-- To stop gives up nothing but leases if no request is outstanding. -/
theorem Orderly.dropCalls_of_idle (orderly : runner.Orderly)
    (idle : runner.client.outstanding = 0) : runner.dropCalls = runner := by
  have empty : runner.client.calls.entries = [] := List.length_eq_zero_iff.1 idle
  have uncalled : ∀ key, runner.runs.callAt key = none := by
    intro key
    rw [Option.eq_none_iff_forall_ne_some]
    intro handle called
    have held := (orderly.accounted.calls.used_iff handle).2 ⟨key, called⟩
    simp [Client.Holds, Table.contains, Table.get?, empty] at held
  have cancelled : runner.client.cancelAll = runner.client := by
    simp [Client.cancelAll, Table.keys, empty]
  simp only [Runner.dropCalls, RunStore.detachCalls_of_uncalled uncalled, List.foldl_nil, cancelled]

theorem tree_tick [LeaseProvider π] {provider : π} {now : Duration} {wallClock : WallClock} :
    (runner.tick now wallClock provider).2.1.tree = runner.tree := by
  rcases runner.tick_evaluates_cases now wallClock provider with
    ⟨-, refused⟩ | ⟨-, -, cause, refused⟩ | ⟨tree, leases, later, -, evaluated⟩
  · rw [refused]
  · rw [refused]
  · rw [evaluated]
    generalize (runner.engineTick tree now wallClock).1 = result
    cases result with
    | error failure => exact (keepsSessions_stop _ _).tree
    | ok status =>
      simp only [conclude]
      split <;> rfl

end Runner

namespace Site

section Interruptions

variable [RemoteService σ] [LeaseProvider π] {site after : Site σ π} {now : Duration}
  {operation : Operation σ π} {deed : Deed σ π} {deeds meanwhile : List (Deed σ π)}

/-- The first site is where the second one, whose mission is playing, would be if it were not. -/
structure Suspends (suspended site : Site σ π) : Prop where
  playing : site.runner.state = .playing
  started : site.runner.startedAt.isSome
  resumes : site.runner.config.restartOnPlay = false
  waiting : ∃ doing leases, (doing = .paused ∨ doing = .stopped) ∧
    suspended.runner = site.runner.recast doing site.runner.pauses leases

theorem suspends_of_interrupts (orderly : site.runner.Orderly)
    (playing : site.runner.state = .playing) (started : site.runner.startedAt.isSome)
    (resumes : site.runner.config.restartOnPlay = false)
    (interrupts : operation.Interrupts site.runner)
    (performed : site.perform now operation = .ok after) : after.Suspends site := by
  refine ⟨playing, started, resumes, ?_⟩
  cases operation with
  | pause =>
    cases performed
    refine ⟨.paused, site.runner.leases, Or.inl rfl, ?_⟩
    simp only [Runner.pause, playing]
    rfl
  | stop =>
    cases performed
    refine ⟨.stopped, (site.runner.leases.releaseAll site.provider).1, Or.inr rfl, ?_⟩
    simp only [orderly.dropCalls_of_idle interrupts, playing]
    rfl
  | _ => exact interrupts.elim

/-- What does not concern the course of a mission does the same while it is not playing. -/
theorem Suspends.undergo {suspended : Site σ π} (suspends : suspended.Suspends site)
    (bides : deed.Bides) :
    Matches Suspends (suspended.undergo deed) (site.undergo deed) := by
  rcases suspends with ⟨playing, started, resumes, doing, leases, waiting, same⟩
  have still : suspended.Suspends site := ⟨playing, started, resumes, doing, leases, waiting, same⟩
  cases deed with
  | perform now operation =>
    cases operation with
    | register name service =>
      exact .ok ⟨playing, started, resumes, doing, leases, waiting, by rw [same]; rfl⟩
    | define name value =>
      simp only [Site.undergo, perform, same, Runner.define_recast]
      cases defined : site.runner.define now name value with
      | ok runner =>
        simp only [Runner.define, map_eq_ok] at defined
        rcases defined with ⟨blackboard, -, rfl⟩
        exact .ok ⟨playing, started, resumes, doing, leases, waiting, rfl⟩
      | error cause => exact .ok still
    | write name value =>
      simp only [Site.undergo, perform, same, Runner.write_recast]
      cases written : site.runner.write now name value with
      | ok runner =>
        simp only [Runner.write, map_eq_ok] at written
        rcases written with ⟨blackboard, -, rfl⟩
        exact .ok ⟨playing, started, resumes, doing, leases, waiting, rfl⟩
      | error cause => exact .ok still
    | compete change => exact .ok ⟨playing, started, resumes, doing, leases, waiting, same⟩
    | _ => exact bides.elim
  | resetSessions =>
    exact .ok ⟨playing, started, resumes, doing, leases, waiting, by rw [same]; rfl⟩

/-- Nothing but loading changes the tree. -/
theorem tree_perform (performed : site.perform now operation = .ok after) :
    after.runner.tree = site.runner.tree ∨
      ∃ accepted, operation = .load accepted ∧ after.runner.tree = some accepted.tree := by
  cases operation with
  | load accepted =>
    cases performed
    exact Or.inr ⟨accepted, rfl, rfl⟩
  | register name service =>
    cases performed
    exact Or.inl rfl
  | define name value =>
    rcases perform_define_eq_ok performed with ⟨blackboard, rfl⟩
    exact Or.inl rfl
  | write name value =>
    rcases perform_write_eq_ok performed with ⟨blackboard, rfl⟩
    exact Or.inl rfl
  | play =>
    simp only [perform] at performed
    split at performed
    · rename_i played
      cases performed
      exact Or.inl (Runner.keepsSessions_play played).tree
    · cases performed
      exact Or.inl rfl
  | pause =>
    cases performed
    simp only [Runner.pause]
    split <;> exact Or.inl rfl
  | stop =>
    cases performed
    exact Or.inl (Runner.keepsSessions_stop _ _).tree
  | restart =>
    cases performed
    exact Or.inl (Runner.keepsSessions_restart _ _).tree
  | tick wallClock =>
    rw [(perform_tick_eq_ok performed).1]
    exact Or.inl Runner.tree_tick
  | compete change =>
    cases performed
    exact Or.inl rfl

theorem undergoAll_append {more : List (Deed σ π)} : site.undergoAll (deeds ++ more) =
    (site.undergoAll deeds).bind fun middle => middle.undergoAll more :=
  List.foldlM_append

theorem Suspends.undergoAll {suspended : Site σ π} (suspends : suspended.Suspends site)
    (bide : ∀ deed ∈ meanwhile, deed.Bides) :
    Matches Suspends (suspended.undergoAll meanwhile) (site.undergoAll meanwhile) := by
  induction meanwhile generalizing suspended site with
  | nil => exact .ok suspends
  | cons deed rest ih =>
    rw [List.forall_mem_cons] at bide
    have step := suspends.undergo bide.1
    simp only [Site.undergoAll, List.foldlM_cons] at ih ⊢
    revert step
    generalize suspended.undergo deed = one
    generalize site.undergo deed = other
    rintro (suspends | cause)
    · exact ih suspends bide.2
    · exact .error cause

/-- A mission that is played on is where it would be without the interruption. -/
theorem Suspends.resumed {suspended : Site σ π} (suspends : suspended.Suspends site)
    (performed : suspended.perform now .play = .ok after)
    (succeeded : after.runner.state = .playing) : after.runner.SameMission site.runner := by
  rcases suspends with ⟨playing, started, resumes, doing, leases, waiting, same⟩
  have notPlaying : suspended.runner.state ≠ .playing := by
    rw [same]
    rcases waiting with rfl | rfl <;> simp [Runner.recast]
  rcases Option.isSome_iff_exists.1 started with ⟨origin, began⟩
  rcases after with ⟨runner, later⟩
  have played := play_of_perform performed notPlaying succeeded
  cases Runner.played_of_play played with
  | already plays => exact absurd plays notPlaying
  | @started tree held =>
    have ready : Runner.prepare { suspended.runner with leases := held } =
        site.runner.recast doing (site.runner.pauses + 1) held := by
      rw [same]
      rcases waiting with rfl | rfl <;> simp [Runner.prepare, Runner.recast, resumes]
    rw [ready, Runner.sameMission_iff]
    refine ⟨site.runner.pauses + 1, held, ?_⟩
    simp only [Runner.recast, began, Option.some_or, playing]

end Interruptions

variable {one other site after : Site σ LeaseRegistry} {ground : LeaseRegistry} {owner : String}
  {now : Duration} {operation : Operation σ LeaseRegistry} {deed : Deed σ LeaseRegistry}
  {deeds : List (Deed σ LeaseRegistry)}

/-- Nobody but the runner used the registry since it was as it is given. -/
structure Undisputed (owner : String) (ground : LeaseRegistry) (site : Site σ LeaseRegistry) :
    Prop where
  owned : site.runner.leases.owner = owner
  tidy : site.runner.leases.IsTidy
  good : site.runner.leases.IsGood site.provider
  spares : LeaseRegistry.Spares owner ground site.provider

theorem undisputed_start (config : MissionConfig) (registry : LeaseRegistry) :
    Undisputed config.leaseOwner registry (start config registry : Site σ LeaseRegistry) :=
  ⟨rfl, LeaseHolder.isTidy_empty, LeaseHolder.isGood_empty, .refl⟩

/-- If nobody else used the registry, what is granted is what was free in the beginning. -/
theorem Undisputed.granted_iff (undisputed : site.Undisputed owner ground)
    {required : List String} :
    (∃ next, (site.runner.leases.acquireAll site.provider required).1 = .ok next) ↔
      ∀ resource ∈ required, ground.Concedes owner resource := by
  rw [undisputed.good.acquireAll_granted_iff, undisputed.owned]
  exact forall₂_congr fun resource _ => undisputed.spares.concedes_iff

variable [RemoteService σ]

theorem Undisputed.undergo (undisputed : site.Undisputed owner ground)
    (alone : ¬ deed.Competes) (happened : site.undergo deed = .ok after) :
    after.Undisputed owner ground := by
  cases deed with
  | perform now operation =>
    have trades := (leasing_perform happened).trades fun change same => by
      subst same
      exact alone trivial
    have spares := trades.spares undisputed.tidy
    rw [undisputed.owned] at spares
    exact ⟨trades.owner.trans undisputed.owned, trades.tidy undisputed.tidy,
      trades.good undisputed.tidy undisputed.good, undisputed.spares.trans spares⟩
  | resetSessions =>
    cases happened
    exact ⟨undisputed.owned, undisputed.tidy, undisputed.good, undisputed.spares⟩

theorem Undisputed.undergoAll (undisputed : site.Undisputed owner ground)
    (alone : ∀ deed ∈ deeds, ¬ deed.Competes) (happened : site.undergoAll deeds = .ok after) :
    after.Undisputed owner ground := by
  induction deeds generalizing site with
  | nil =>
    cases happened
    exact undisputed
  | cons deed rest ih =>
    rw [List.forall_mem_cons] at alone
    rcases undergoAll_cons_eq_ok.1 happened with ⟨middle, first, happened⟩
    exact ih (undisputed.undergo alone.1 first) alone.2 happened

/-- Two sites have runners of the same mission, which ignores pauses, and leases that are filed
correctly. -/
structure Parallels (one other : Site σ LeaseRegistry) : Prop where
  runners : one.runner.SameMission other.runner
  tidy : one.runner.leases.IsTidy
  alsoTidy : other.runner.leases.IsTidy
  ignores : ∀ tree, other.runner.tree = some tree → tree.WellFormed ∧ tree.IgnoresPauses

/-- A mission is granted its leases on both sites or on neither. -/
def GrantsAlike (one other : Site σ LeaseRegistry) : Prop :=
  ∀ tree, other.runner.tree = some tree →
    ((∃ next, (one.runner.leases.acquireAll one.provider tree.leaseResources).1 = .ok next) ↔
      ∃ next, (other.runner.leases.acquireAll other.provider tree.leaseResources).1 = .ok next)

omit [RemoteService σ] in
theorem Undisputed.grantsAlike (undisputed : one.Undisputed owner ground)
    (also : other.Undisputed owner ground) : one.GrantsAlike other :=
  fun _ _ => undisputed.granted_iff.trans also.granted_iff.symm

namespace Parallels

theorem tick (parallels : one.Parallels other) (now : Duration) (wallClock : WallClock) :
    (one.runner.tick now wallClock one.provider).1 =
        (other.runner.tick now wallClock other.provider).1 ∧
      (one.runner.tick now wallClock one.provider).2.1.SameMission
        (other.runner.tick now wallClock other.provider).2.1 :=
  parallels.runners.tick parallels.ignores now wallClock (parallels.tidy.renews _)
    (parallels.alsoTidy.renews _)

/-- What is done to both of two parallel sites leaves runners of the same mission. -/
theorem runners_perform (parallels : one.Parallels other)
    (alike : operation = .play → one.GrantsAlike other) :
    Matches (fun after next => after.runner.SameMission next.runner)
      (one.perform now operation) (other.perform now operation) := by
  have runners := parallels.runners
  rcases Runner.sameMission_iff.1 runners with ⟨pauses, leases, same⟩
  cases operation with
  | register name service => exact .ok (by rw [same]; rfl)
  | load accepted => exact .ok (runners.load accepted.tree)
  | define name value =>
    simp only [perform, same, Runner.define_recast]
    cases defined : other.runner.define now name value with
    | ok runner =>
      simp only [Runner.define, map_eq_ok] at defined
      rcases defined with ⟨blackboard, -, rfl⟩
      exact .ok rfl
    | error cause => exact .ok runners
  | write name value =>
    simp only [perform, same, Runner.write_recast]
    cases written : other.runner.write now name value with
    | ok runner =>
      simp only [Runner.write, map_eq_ok] at written
      rcases written with ⟨blackboard, -, rfl⟩
      exact .ok rfl
    | error cause => exact .ok runners
  | play =>
    have played := runners.play (alike rfl) now
    revert played
    simp only [perform]
    rcases one.runner.play now one.provider with ⟨result, provider⟩
    rcases other.runner.play now other.provider with ⟨resultToo, later⟩
    rintro (⟨after, next, rfl, rfl, mission⟩ | ⟨cause, reason, rfl, rfl⟩)
    · exact .ok mission
    · exact .ok runners
  | pause => exact .ok runners.pause
  | stop => exact .ok runners.stop
  | restart => exact .ok (runners.restart now)
  | tick wallClock =>
    have ticked := parallels.tick now wallClock
    revert ticked
    simp only [perform]
    rcases one.runner.tick now wallClock one.provider with ⟨result, runner, provider⟩
    rcases other.runner.tick now wallClock other.provider with ⟨resultToo, next, later⟩
    rintro ⟨equal, mission⟩
    cases equal
    rcases result with (cause | cause) | status
    · exact .ok mission
    · exact .error cause
    · exact .ok mission
  | compete change => exact .ok runners

end Parallels

/-- A tree that is loaded ignores pauses, if every tree does that was or is loaded. -/
theorem ignores_undergo
    (ignores : ∀ tree, site.runner.tree = some tree → tree.WellFormed ∧ tree.IgnoresPauses)
    (ignoresToo : deed.IgnoresPauses) (happened : site.undergo deed = .ok after) :
    ∀ tree, after.runner.tree = some tree → tree.WellFormed ∧ tree.IgnoresPauses := by
  cases deed with
  | resetSessions =>
    cases happened
    exact ignores
  | perform now operation =>
    rcases tree_perform happened with same | ⟨accepted, rfl, loaded⟩
    · rwa [same]
    · rw [loaded]
      rintro tree ⟨⟩
      exact ⟨Tree.wellFormed_ofSource accepted.accepted, ignoresToo⟩

namespace Parallels

theorem undergo (parallels : one.Parallels other) (ignores : deed.IgnoresPauses)
    (alike : deed.Plays → one.GrantsAlike other) :
    Matches Parallels (one.undergo deed) (other.undergo deed) := by
  have runners : Matches (fun after next => after.runner.SameMission next.runner)
      (one.undergo deed) (other.undergo deed) := by
    cases deed with
    | perform now operation =>
      refine parallels.runners_perform fun plays => alike ?_
      subst plays
      trivial
    | resetSessions =>
      rcases Runner.sameMission_iff.1 parallels.runners with ⟨pauses, leases, same⟩
      exact .ok (by rw [same]; rfl)
  refine runners.imp fun after next happened alsoHappened mission => ?_
  exact ⟨mission, tidy_undergo parallels.tidy happened,
    tidy_undergo parallels.alsoTidy alsoHappened,
    ignores_undergo parallels.ignores ignores alsoHappened⟩

theorem undergoAll (parallels : one.Parallels other)
    (ignore : ∀ deed ∈ deeds, deed.IgnoresPauses)
    (calm : (∀ deed ∈ deeds, ¬ deed.Plays) ∨
      (one.Undisputed owner ground ∧ other.Undisputed owner ground) ∧
        ∀ deed ∈ deeds, ¬ deed.Competes) :
    Matches Parallels (one.undergoAll deeds) (other.undergoAll deeds) := by
  induction deeds generalizing one other with
  | nil => exact .ok parallels
  | cons deed rest ih =>
    rw [List.forall_mem_cons] at ignore
    simp only [List.forall_mem_cons] at calm
    have alike : deed.Plays → one.GrantsAlike other := by
      intro plays
      rcases calm with ⟨waits, -⟩ | ⟨⟨undisputed, also⟩, -⟩
      · exact absurd plays waits
      · exact undisputed.grantsAlike also
    have step := parallels.undergo ignore.1 alike
    simp only [Site.undergoAll, List.foldlM_cons] at ih ⊢
    cases happened : one.undergo deed with
    | error cause =>
      rw [happened] at step
      cases alsoHappened : other.undergo deed <;> rw [alsoHappened] at step <;> cases step
      exact .error cause
    | ok after =>
      rw [happened] at step
      cases alsoHappened : other.undergo deed <;> rw [alsoHappened] at step <;> cases step
      rename_i values
      refine ih values ignore.2 ?_
      rcases calm with ⟨-, wait⟩ | ⟨⟨undisputed, also⟩, alone⟩
      · exact Or.inl wait
      · exact Or.inr ⟨⟨undisputed.undergo alone.1 happened, also.undergo alone.1 alsoHappened⟩,
          alone.2⟩

end Parallels

theorem ignores_undergoAll
    (ignores : ∀ tree, site.runner.tree = some tree → tree.WellFormed ∧ tree.IgnoresPauses)
    (ignore : ∀ deed ∈ deeds, deed.IgnoresPauses) (happened : site.undergoAll deeds = .ok after) :
    ∀ tree, after.runner.tree = some tree → tree.WellFormed ∧ tree.IgnoresPauses := by
  induction deeds generalizing site with
  | nil =>
    cases happened
    exact ignores
  | cons deed rest ih =>
    rw [List.forall_mem_cons] at ignore
    rcases undergoAll_cons_eq_ok.1 happened with ⟨middle, first, happened⟩
    exact ih (ignores_undergo ignores ignore.1 first) ignore.2 happened

/-- A mission that is playing has begun at some time. -/
theorem started_undergo (orderly : site.runner.Orderly)
    (started : site.runner.state = .playing → site.runner.startedAt.isSome)
    (happened : site.undergo deed = .ok after) :
    after.runner.state = .playing → after.runner.startedAt.isSome := by
  cases deed with
  | perform now operation => exact (proceeds_perform orderly happened).started started
  | resetSessions =>
    cases happened
    exact started

theorem started_undergoAll (config : MissionConfig) (registry : LeaseRegistry)
    (reached : (start config registry).undergoAll deeds = .ok site) :
    site.runner.state = .playing → site.runner.startedAt.isSome := by
  have initially : (start config registry : Site σ LeaseRegistry).runner.Orderly ∧
      ((start config registry : Site σ LeaseRegistry).runner.state = .playing →
        (start config registry : Site σ LeaseRegistry).runner.startedAt.isSome) :=
    ⟨Runner.orderly_create config, fun impossible => by cases impossible⟩
  have kept := kept_undergoAll (fun site : Site σ LeaseRegistry => site.runner.Orderly ∧
    (site.runner.state = .playing → site.runner.startedAt.isSome)) ?_ initially reached
  · exact kept.2
  · exact fun before happened =>
      ⟨orderly_undergo before.1 happened, started_undergo before.1 before.2 happened⟩

/-- A mission that is playing is interrupted and played on with success, without being told to start
over. Meanwhile nothing happens that concerns its course. -/
structure Interrupted (site : Site σ LeaseRegistry) (meanwhile : List (Deed σ LeaseRegistry))
    (resumed : Site σ LeaseRegistry) : Prop where
  playing : site.runner.state = .playing
  resumes : site.runner.config.restartOnPlay = false
  bide : ∀ deed ∈ meanwhile, deed.Bides
  happened : ∃ operation : Operation σ LeaseRegistry, operation.Interrupts site.runner ∧
    ∃ first last, site.undergoAll
      (.perform first operation :: (meanwhile ++ [.perform last .play])) = .ok resumed
  succeeded : resumed.runner.state = .playing

/-- A runner interrupts its mission and plays it on by itself. -/
theorem Interrupted.undisputed {meanwhile : List (Deed σ LeaseRegistry)}
    {resumed : Site σ LeaseRegistry} (interrupted : site.Interrupted meanwhile resumed)
    (undisputed : site.Undisputed owner ground) (alone : ∀ deed ∈ meanwhile, ¬ deed.Competes) :
    resumed.Undisputed owner ground := by
  rcases interrupted.happened with ⟨operation, interrupts, first, last, happened⟩
  refine undisputed.undergoAll ?_ happened
  simp only [List.mem_cons, List.mem_append, List.not_mem_nil, or_false]
  rintro deed (rfl | listed | rfl)
  · cases operation with
    | compete change => exact interrupts.elim
    | _ => exact id
  · exact alone deed listed
  · exact id

theorem Interrupted.parallels {meanwhile : List (Deed σ LeaseRegistry)}
    {resumed : Site σ LeaseRegistry} (interrupted : site.Interrupted meanwhile resumed)
    (orderly : site.runner.Orderly) (tidy : site.runner.leases.IsTidy)
    (started : site.runner.startedAt.isSome)
    (ignores : ∀ tree, site.runner.tree = some tree → tree.IgnoresPauses) :
    ∃ next, site.undergoAll meanwhile = .ok next ∧ resumed.Parallels next := by
  rcases interrupted.happened with ⟨operation, interrupts, first, last, wholly⟩
  rcases undergoAll_cons_eq_ok.1 wholly with ⟨suspended, performed, happened⟩
  rcases bind_eq_ok.1 (undergoAll_append.symm.trans happened) with ⟨waiting, waited, happened⟩
  rcases undergoAll_cons_eq_ok.1 happened with ⟨_, played, same⟩
  cases same
  have suspends := suspends_of_interrupts orderly interrupted.playing started interrupted.resumes
    interrupts performed
  have alike := suspends.undergoAll interrupted.bide
  rw [waited] at alike
  cases went : site.undergoAll meanwhile with
  | error cause =>
    rw [went] at alike
    cases alike
  | ok next =>
    rw [went] at alike
    cases alike with
    | ok suspends =>
      refine ⟨next, rfl, suspends.resumed played interrupted.succeeded, ?_, ?_, ?_⟩
      · exact kept_undergoAll (fun site => site.runner.leases.IsTidy) tidy_undergo tidy wholly
      · exact kept_undergoAll (fun site => site.runner.leases.IsTidy) tidy_undergo tidy went
      · refine ignores_undergoAll (fun tree loaded => ?_) (fun deed listed => ?_) went
        · exact ⟨(orderly.loaded tree loaded).wellFormed, ignores tree loaded⟩
        · exact (interrupted.bide deed listed).ignoresPauses

/-- A mission goes on after an interruption as it would have gone on without it. -/
theorem goes_on_as_uninterrupted (config : MissionConfig) (registry : LeaseRegistry)
    (earlier meanwhile later : List (Deed σ LeaseRegistry)) {resumed : Site σ LeaseRegistry}
    (reached : (start config registry).undergoAll earlier = .ok site)
    (ignores : ∀ tree, site.runner.tree = some tree → tree.IgnoresPauses)
    (interrupted : site.Interrupted meanwhile resumed)
    (ignore : ∀ deed ∈ later, deed.IgnoresPauses)
    (calm : (∀ deed ∈ later, ¬ deed.Plays) ∨
      ∀ deed ∈ earlier ++ meanwhile ++ later, ¬ deed.Competes) :
    Matches
      (fun after next => after.runner.SameMission next.runner ∧
        ∀ now wallClock, (after.runner.tick now wallClock after.provider).1 =
          (next.runner.tick now wallClock next.provider).1)
      (resumed.undergoAll later) (site.undergoAll (meanwhile ++ later)) := by
  have orderly : site.runner.Orderly :=
    kept_undergoAll (fun site => site.runner.Orderly) orderly_undergo
      (Runner.orderly_create config) reached
  have tidy : site.runner.leases.IsTidy :=
    kept_undergoAll (fun site => site.runner.leases.IsTidy) tidy_undergo
      LeaseHolder.isTidy_empty reached
  have started : site.runner.startedAt.isSome :=
    started_undergoAll config registry reached interrupted.playing
  rcases interrupted.parallels orderly tidy started ignores with ⟨next, went, parallels⟩
  have calmNow : (∀ deed ∈ later, ¬ deed.Plays) ∨
      (resumed.Undisputed config.leaseOwner registry ∧
        next.Undisputed config.leaseOwner registry) ∧ ∀ deed ∈ later, ¬ deed.Competes := by
    refine calm.imp_right fun alone => ?_
    simp only [List.forall_mem_append] at alone
    rcases alone with ⟨⟨aloneBefore, aloneMeanwhile⟩, aloneLater⟩
    have undisputed := (undisputed_start config registry).undergoAll aloneBefore reached
    exact ⟨⟨interrupted.undisputed undisputed aloneMeanwhile,
      undisputed.undergoAll aloneMeanwhile went⟩, aloneLater⟩
  have wholly : site.undergoAll (meanwhile ++ later) = next.undergoAll later := by
    rw [undergoAll_append, went]
    rfl
  rw [wholly]
  refine (parallels.undergoAll ignore calmNow).imp ?_
  exact fun after last _ _ alike =>
    ⟨alike.runners, fun now wallClock => (alike.tick now wallClock).1⟩

/-- A robot rests for twenty seconds before it goes. -/
def restingJourney : MissionSource :=
  ⟨[⟨"main", [], .node "Sequence" none []
    [.node "Sleep" none [⟨.input, "seconds", .constant (.int 20)⟩] [],
      .node "NavigateRoute" none
        [⟨.input, "waypoint_ids", .constant (.string "hall,dock")⟩] []]⟩]⟩

set_option maxRecDepth 100000 in
def restingTree : AcceptedTree where
  source := restingJourney
  tree := (Tree.ofSource restingJourney).toOption.getD default
  accepted := by cbv

set_option maxRecDepth 100000 in
theorem ignoresPauses_restingTree : restingTree.tree.IgnoresPauses := by
  have plain : restingTree.tree.nodes.all (fun node => node.kind ≠ .restartWhenPaused) = true := by
    cbv
  intro index node found
  rw [Array.all_eq_true'] at plain
  exact of_decide_eq_true (plain node (Array.mem_of_getElem? found))

def afterAll (site : Site ScriptedService LeaseRegistry)
    (deeds : List (Deed ScriptedService LeaseRegistry)) : Site ScriptedService LeaseRegistry :=
  (site.undergoAll deeds).toOption.getD site

def untilRest : List (Deed ScriptedService LeaseRegistry) :=
  [.perform .zero (.load restingTree), .perform .zero (.register "graph-nav" (.ofScript .empty)),
    .perform .zero .play, .perform .zero (.tick default)]

/-- An operator takes the body of the robot and gives it back. -/
def visit : List (Deed ScriptedService LeaseRegistry) :=
  [.perform tenSeconds (.compete fun registry => (registry.acquire "body" "operator").2),
    .perform tenSeconds (.compete fun registry => registry.revoke "body"),
    .perform tenSeconds (.define "battery" (.int 80))]

def resting : Site ScriptedService LeaseRegistry := afterAll (start .standard .empty) untilRest

/-- The robot is stopped while it rests. -/
def rested : Site ScriptedService LeaseRegistry :=
  afterAll resting (.perform tenSeconds .stop :: (visit ++ [.perform tenSeconds .play]))

set_option maxRecDepth 100000 in
theorem undergoAll_untilRest : (start .standard .empty).undergoAll untilRest = .ok resting := by
  cbv

set_option maxRecDepth 100000 in
theorem undergoAll_rested : resting.undergoAll
    (.perform tenSeconds .stop :: (visit ++ [.perform tenSeconds .play])) = .ok rested := by cbv

set_option maxRecDepth 100000 in
theorem interrupted_resting : resting.Interrupted visit rested where
  playing := by cbv
  resumes := by cbv
  bide := by simp [visit, Deed.Bides]
  happened := ⟨.stop, show resting.runner.client.outstanding = 0 by cbv, tenSeconds, tenSeconds,
    undergoAll_rested⟩
  succeeded := by cbv

set_option maxRecDepth 100000 in
theorem tree_resting : resting.runner.tree = some restingTree.tree := by cbv

def departure : List (Deed ScriptedService LeaseRegistry) :=
  [.perform twentyFiveSeconds (.tick default)]

set_option maxRecDepth 100000 in
theorem undergoAll_departure :
    rested.undergoAll departure = .ok (afterAll rested departure) ∧
      resting.undergoAll (visit ++ departure) = .ok (afterAll resting (visit ++ departure)) := by
  refine ⟨?_, ?_⟩ <;> cbv

set_option maxRecDepth 100000 in
/-- The robot departs as if it had not been stopped, with another number for its lease. -/
theorem departs_as_uninterrupted :
    resting.Interrupted visit rested ∧
      (afterAll rested departure).runner.pauses = 1 ∧
      (afterAll rested departure).runner.leases.held.get? "body" =
        some ⟨"body", "mission-runner", 3⟩ ∧
      (afterAll resting (visit ++ departure)).runner.leases.held.get? "body" =
        some ⟨"body", "mission-runner", 2⟩ ∧
      (afterAll rested departure).runner.client.outstanding = 1 ∧
      (afterAll rested departure).runner.SameMission
        (afterAll resting (visit ++ departure)).runner := by
  have ignores : ∀ tree, resting.runner.tree = some tree → tree.IgnoresPauses := by
    rw [tree_resting]
    rintro tree ⟨⟩
    exact ignoresPauses_restingTree
  have alike := goes_on_as_uninterrupted .standard .empty untilRest visit departure
    undergoAll_untilRest ignores interrupted_resting (by simp [departure, Deed.IgnoresPauses])
    (Or.inl (by simp [departure, Deed.Plays]))
  rw [undergoAll_departure.1, undergoAll_departure.2] at alike
  refine ⟨interrupted_resting, by cbv, by cbv, by cbv, by cbv, ?_⟩
  cases alike with
  | ok values => exact values.1

end Site

end BehaviorTree
