import BehaviorTree.Proofs.Runner.LeasedTicks
import BehaviorTree.Proofs.Runner.Past
import BehaviorTree.Proofs.Runner.RemoteSessions
import BehaviorTree.Proofs.Runner.Retries
import BehaviorTree.Proofs.Runner.Staleness

/-!
# Missions that are started over

A mission that is started over goes on as a new one would, with the same variables in the root, the
same services and the same sessions. Nobody can tell the two apart by what they report, by their
variables or by what they ask of services. Only the numbers of requests are counted on, and the
program ends when they are used up.
-/

namespace BehaviorTree

variable {σ π : Type}

namespace Runner

/-- The variables that a node sees which has a scope of its own. -/
def variablesAt (runner : Runner σ) (key : RunKey) :
    Option (String → Except BlackboardError Entry) :=
  (runner.runs.scopeAt key).map runner.blackboard.entry

/-- Two runners cannot be told apart, other than by what was asked of services in the past. -/
structure Resembles (past : List Exchange) (older newer : Runner σ) : Prop where
  state : older.state = newer.state
  status : older.status = newer.status
  active : older.activeLabel = newer.activeLabel
  ticks : older.ticks = newer.ticks
  elapsed : older.elapsed = newer.elapsed
  reports : older.reports = newer.reports
  root : older.blackboard.entry .root = newer.blackboard.entry .root
  inner : older.variablesAt = newer.variablesAt
  requests : older.client.journal = newer.client.journal ++ past
  services : older.client.services = newer.client.services
  sessions : older.client.sessions = newer.client.sessions
  outstanding : older.client.outstanding = newer.client.outstanding

theorem Mirrors.resembles {past : Past} {older newer : Runner σ}
    (mirrors : Mirrors past older newer) : older.Resembles past.journal newer := by
  have blackboard := mirrors.contexts.blackboard
  have client := mirrors.contexts.client
  have entries : ∀ id, older.blackboard.entry (past.ground.handle id) =
      newer.blackboard.entry id := fun id => funext (blackboard.entry_eq id)
  have root := entries .root
  rw [blackboard.groundArena.handle_root] at root
  refine ⟨mirrors.state, mirrors.status, ?_, mirrors.ticks, funext mirrors.elapsed,
    mirrors.contexts.reports, root, ?_, client.journal, client.services, client.sessions,
    client.outstanding_eq⟩
  · simp only [activeLabel, mirrors.active, mirrors.tree]
  · funext key
    have runs : older.runs = past.runs newer.runs := mirrors.contexts.runs
    simp only [variablesAt, runs, Past.scopeAt_runs, Option.map_map, Function.comp_def, entries]

/-- A runner that plays its mission from the top. -/
structure Begins (runner : Runner σ) (now : Duration) : Prop where
  orderly : runner.Orderly
  runs : runner.runs = .empty
  reports : runner.reports = []
  state : runner.state = .playing
  status : runner.status = none
  active : runner.active = none
  startedAt : runner.startedAt = some now
  ticks : runner.ticks = 0

section StartingOver

variable [RemoteService σ] {runner after : Runner σ} {now : Duration}

theorem Orderly.begins (orderly : runner.Orderly) (now : Duration) :
    Begins { runner.reset with startedAt := some now, state := .playing } now := by
  have reset := orderly.reset
  rw [reset_eq] at reset ⊢
  exact ⟨⟨reset.accounted, reset.loaded, reset.unloaded⟩, rfl, rfl, rfl, rfl, rfl, rfl, rfl⟩

/-- To restart a mission that is playing is to begin. -/
theorem Orderly.begins_restart (orderly : runner.Orderly) (playing : runner.state = .playing)
    (now : Duration) : (runner.restart now).Begins now := by
  have state : runner.reset.state = .playing := (reset_keeps runner).2.2.trans playing
  have begins := orderly.begins now
  simp only [Runner.restart]
  split
  · rename_i finished
    rw [state] at finished
    cases finished
  · rwa [← state] at begins
  · rename_i waiting
    exact absurd state waiting

theorem PlaysOver.prepare_eq (again : runner.PlaysOver) (orderly : runner.Orderly) :
    ∃ ready : Runner σ, ready.Orderly ∧ runner.prepare = ready.reset := by
  rcases again with finished | ⟨waiting, forced⟩
  · exact ⟨runner, orderly, by simp only [prepare, finished]⟩
  · refine ⟨{ runner with pauses := runner.pauses + 1 },
      ⟨orderly.accounted, orderly.loaded, orderly.unloaded⟩, ?_⟩
    rcases waiting with paused | stopped
    · simp only [prepare, paused, forced, ↓reduceIte]
    · simp only [prepare, stopped, forced, ↓reduceIte]

omit [RemoteService σ] in
theorem PlaysOver.waiting (again : runner.PlaysOver) : runner.state ≠ .playing := by
  rcases again with finished | ⟨paused | stopped, -⟩ <;> simp [*]

variable [LeaseProvider π] {provider later : π}

/-- To play a mission over is to begin. -/
theorem Orderly.begins_play (orderly : runner.Orderly) (again : runner.PlaysOver)
    (played : runner.play now provider = (.ok after, later)) : after.Begins now := by
  cases played_of_play played with
  | already playing => exact absurd playing again.waiting
  | @started tree leases =>
    have leased : Orderly { runner with leases := leases } :=
      ⟨orderly.accounted, orderly.loaded, orderly.unloaded⟩
    have playsOver : PlaysOver { runner with leases := leases } := again
    rcases playsOver.prepare_eq leased with ⟨ready, orderlyReady, same⟩
    rw [same, startedAt_reset]
    exact orderlyReady.begins now

/-- A runner that was not played yet is played with leases of its own. -/
theorem play_idle (idle : runner.state = .idle) (unstarted : runner.startedAt = none)
    (played : runner.play now provider = (.ok after, later)) :
    ∃ leases, after =
      { runner with leases := leases, startedAt := some now, state := .playing } := by
  cases played_of_play played with
  | already playing =>
    rw [idle] at playing
    cases playing
  | @started tree leases =>
    refine ⟨leases, ?_⟩
    simp only [prepare, idle, unstarted, Option.none_or]

end StartingOver

end Runner

namespace Site

section New

variable [RemoteService σ] [LeaseProvider π]

/-- A site with a runner that was just created and loaded. It finds the sessions and services of
another runner, and variables in its root. -/
def anew (runner : Runner σ) (tree : Tree) (bindings : Table String Entry) (provider : π) :
    Site σ π :=
  let client : Client σ := { (.empty : Client σ) with services := runner.client.services }
  let (created, provider) := (Runner.create runner.config client).load provider tree
  ⟨{ created with
      client := { created.client with sessions := runner.client.sessions }
      blackboard := .ofRoot bindings }, provider⟩

theorem anew_eq (runner : Runner σ) (tree : Tree) (bindings : Table String Entry) (provider : π) :
    anew runner tree bindings provider =
      ⟨{ Runner.create runner.config
          ⟨runner.client.services, runner.client.sessions, .empty, 0, []⟩ with
        tree := some tree
        blackboard := .ofRoot bindings }, provider⟩ := rfl

theorem play_of_perform {site after : Site σ π} {now : Duration}
    (performed : site.perform now .play = .ok after) (waiting : site.runner.state ≠ .playing)
    (playing : after.runner.state = .playing) :
    site.runner.play now site.provider = (.ok after.runner, after.provider) := by
  simp only [perform] at performed
  split at performed
  · rename_i played
    cases performed
    exact played
  · cases performed
    exact absurd playing waiting

end New

end Site

namespace Runner

/-- What the runs of a runner leave behind. -/
def past (runner : Runner σ) : Past :=
  ⟨runner.blackboard, runner.client.nextHandle, runner.pauses, runner.client.journal⟩

variable [RemoteService σ] [LeaseProvider π] {runner : Runner σ} {now : Duration}

/-- A runner at the beginning mirrors a new one. -/
theorem Begins.mirrors (begins : runner.Begins now) {tree : Tree} (loaded : runner.tree = some tree)
    {bindings : Table String Entry}
    (same : ∀ name, runner.blackboard.rootBinding? name = bindings.get? name) (provider : π)
    (leases : LeaseHolder) :
    Mirrors runner.past runner
      { (Site.anew runner tree bindings provider).runner with
        leases := leases
        startedAt := some now
        state := .playing } := by
  have accounted := begins.orderly.accounted
  rw [begins.runs] at accounted
  have idle : ∀ handle, ¬ runner.client.Holds handle := by
    intro handle held
    rcases (accounted.calls.used_iff handle).1 held with ⟨key, called⟩
    cases called
  have alone : ∀ id, runner.blackboard.isAlive id = true → id = .root := by
    intro id alive
    by_contra nested
    rcases (accounted.scopes.used_iff id).1 ⟨alive, nested⟩ with ⟨key, stored⟩
    cases stored
  have blackboard := accounted.arena.mirrors_ofRoot alone same
  refine ⟨⟨blackboard, ?_, Client.mirrors_new idle, begins.reports,
    accounted.arena.handle_root.symm, rfl, rfl, rfl, rfl⟩, ?_, rfl, loaded, begins.state,
    begins.status, begins.active, begins.startedAt, (BitVec.zero_add _).symm, begins.ticks⟩
  · exact begins.runs
  · refine .of_none (fun handle held => ?_) fun key => rfl
    cases held

end Runner

/-- What is done to a mission that goes on. -/
def Operation.GoesOn : Operation σ π → Prop
  | .load _ | .play | .restart => False
  | _ => True

def Deed.GoesOn : Deed σ π → Prop
  | .perform _ operation => operation.GoesOn
  | .resetSessions => True

namespace Site

section Deeds

variable [RemoteService σ] [LeaseProvider π] {site after : Site σ π} {deed : Deed σ π}
  {deeds : List (Deed σ π)}

/-- The site after a deed. -/
def undergo (site : Site σ π) : Deed σ π → Except Crash (Site σ π)
  | .perform now operation => site.perform now operation
  | .resetSessions =>
    .ok { site with
      runner := { site.runner with client := site.runner.client.resetSessions } }

def undergoAll (site : Site σ π) (deeds : List (Deed σ π)) : Except Crash (Site σ π) :=
  deeds.foldlM undergo site

theorem undergoAll_cons_eq_ok : site.undergoAll (deed :: deeds) = .ok after ↔
    ∃ middle, site.undergo deed = .ok middle ∧ middle.undergoAll deeds = .ok after := by
  rw [undergoAll, List.foldlM_cons]
  exact bind_eq_ok

/-- What every deed keeps holds after all of them. -/
theorem kept_undergoAll (holds : Site σ π → Prop)
    (kept : ∀ {site after : Site σ π} {deed : Deed σ π}, holds site →
      site.undergo deed = .ok after → holds after)
    (initially : holds site) (happened : site.undergoAll deeds = .ok after) : holds after := by
  induction deeds generalizing site with
  | nil =>
    cases happened
    exact initially
  | cons deed rest ih =>
    rcases undergoAll_cons_eq_ok.1 happened with ⟨middle, first, happened⟩
    exact ih (kept initially first) happened

theorem orderly_undergo (orderly : site.runner.Orderly) (happened : site.undergo deed = .ok after) :
    after.runner.Orderly := by
  cases deed with
  | perform now operation =>
    have kept := orderly_perform orderly now operation
    rwa [show site.perform now operation = .ok after from happened] at kept
  | resetSessions =>
    cases happened
    exact orderly.congr (.refl _) rfl (.of_calls rfl rfl) rfl

end Deeds

/-- A site with a past has a runner that mirrors another one, and leases that are filed
correctly. -/
structure Mirrors (past : Past) (older newer : Site σ π) : Prop where
  runners : older.runner.Mirrors past newer.runner
  tidy : older.runner.leases.IsTidy
  alsoTidy : newer.runner.leases.IsTidy

/-- The next tick has the same result on two sites, and every node that it visits reports the same,
unless the first one runs out of numbers. -/
def TicksAlike [RemoteService σ] [LeaseProvider π] (older newer : Site σ π) (now : Duration)
    (wallClock : WallClock) : Prop :=
  (older.runner.tick now wallClock older.provider).1 = .error (.crash .handleOverflow) ∨
    (older.runner.tick now wallClock older.provider).1 =
        (newer.runner.tick now wallClock newer.provider).1 ∧
      ∀ tree, older.runner.state = .playing → older.runner.tree = some tree →
        (older.runner.engineTick tree now wallClock).2.visits =
          (newer.runner.engineTick tree now wallClock).2.visits

variable [RemoteService σ] {past : Past} {site after older newer : Site σ LeaseRegistry}
  {now : Duration} {operation : Operation σ LeaseRegistry} {deed : Deed σ LeaseRegistry}
  {deeds : List (Deed σ LeaseRegistry)}

theorem tidy_perform (tidy : site.runner.leases.IsTidy)
    (performed : site.perform now operation = .ok after) : after.runner.leases.IsTidy := by
  cases operation with
  | compete change =>
    cases performed
    exact tidy
  | _ => exact ((leasing_perform performed).trades (by simp)).tidy tidy

theorem tidy_undergo (tidy : site.runner.leases.IsTidy)
    (happened : site.undergo deed = .ok after) : after.runner.leases.IsTidy := by
  cases deed with
  | perform now operation => exact tidy_perform tidy happened
  | resetSessions =>
    cases happened
    exact tidy

namespace Mirrors

theorem tick (mirrors : older.Mirrors past newer) (now : Duration) (wallClock : WallClock) :
    (older.runner.tick now wallClock older.provider).1 = .error (.crash .handleOverflow) ∨
      (older.runner.tick now wallClock older.provider).1 =
          (newer.runner.tick now wallClock newer.provider).1 ∧
        Runner.Mirrors past (older.runner.tick now wallClock older.provider).2.1
          (newer.runner.tick now wallClock newer.provider).2.1 :=
  mirrors.runners.tick now wallClock (mirrors.tidy.renews _) (mirrors.alsoTidy.renews _)

omit [RemoteService σ] in
/-- An operation that is refused on one site is refused on the other one, and changes neither. -/
theorem matches_unless_refused {one other : Except BlackboardError (Runner σ)}
    (runners : older.runner.Mirrors past newer.runner) :
    Matches (Runner.Mirrors past) one other →
      Matches (fun after next => after.runner.Mirrors past next.runner)
        (match one with
          | .ok runner => .ok { older with runner := runner }
          | .error _ => .ok older : Except Crash (Site σ LeaseRegistry))
        (match other with
          | .ok runner => .ok { newer with runner := runner }
          | .error _ => .ok newer : Except Crash (Site σ LeaseRegistry)) := by
  intro fit
  cases fit with
  | ok values => exact .ok values
  | error cause => exact .ok runners

/-- What is done to both of two alike sites leaves runners that are alike. -/
theorem runners_perform (mirrors : older.Mirrors past newer) (now : Duration)
    (goesOn : operation.GoesOn) :
    older.perform now operation = .error .handleOverflow ∨
      Matches (fun after next => after.runner.Mirrors past next.runner)
        (older.perform now operation) (newer.perform now operation) := by
  have runners := mirrors.runners
  cases operation with
  | register name service => exact Or.inr (.ok (runners.register name service))
  | load accepted => exact goesOn.elim
  | define name value =>
    exact Or.inr (matches_unless_refused runners (runners.define now name value))
  | write name value =>
    exact Or.inr (matches_unless_refused runners (runners.write now name value))
  | play => exact goesOn.elim
  | pause => exact Or.inr (.ok runners.pause)
  | stop => exact Or.inr (.ok runners.stop)
  | restart => exact goesOn.elim
  | tick wallClock =>
    have ticked := mirrors.tick now wallClock
    dsimp only [perform]
    revert ticked
    rcases older.runner.tick now wallClock older.provider with ⟨result, runner, provider⟩
    rcases newer.runner.tick now wallClock newer.provider with ⟨other, next, last⟩
    rintro (out | ⟨same, alike⟩)
    · cases out
      exact Or.inl rfl
    · cases same
      right
      rcases result with (cause | cause) | status
      · exact .ok alike
      · exact .error cause
      · exact .ok alike
  | compete change => exact Or.inr (.ok runners)

theorem runners_undergo (mirrors : older.Mirrors past newer) (goesOn : deed.GoesOn) :
    older.undergo deed = .error .handleOverflow ∨
      Matches (fun after next => after.runner.Mirrors past next.runner)
        (older.undergo deed) (newer.undergo deed) := by
  cases deed with
  | perform now operation => exact mirrors.runners_perform now goesOn
  | resetSessions => exact Or.inr (.ok mirrors.runners.resetSessions)

theorem undergo (mirrors : older.Mirrors past newer) (goesOn : deed.GoesOn) :
    older.undergo deed = .error .handleOverflow ∨
      Matches (Mirrors past) (older.undergo deed) (newer.undergo deed) := by
  refine (mirrors.runners_undergo goesOn).imp_right fun fit => fit.imp ?_
  intro after next happened alsoHappened runners
  exact ⟨runners, tidy_undergo mirrors.tidy happened,
    tidy_undergo mirrors.alsoTidy alsoHappened⟩

theorem undergoAll (mirrors : older.Mirrors past newer) (goesOn : ∀ deed ∈ deeds, deed.GoesOn) :
    older.undergoAll deeds = .error .handleOverflow ∨
      Matches (Mirrors past) (older.undergoAll deeds) (newer.undergoAll deeds) := by
  induction deeds generalizing older newer with
  | nil => exact Or.inr (.ok mirrors)
  | cons deed rest ih =>
    rw [List.forall_mem_cons] at goesOn
    have step := mirrors.undergo goesOn.1
    simp only [Site.undergoAll, List.foldlM_cons] at ih ⊢
    revert step
    generalize older.undergo deed = one
    generalize newer.undergo deed = other
    rintro (out | fit)
    · rw [out]
      exact Or.inl rfl
    · cases fit with
      | ok alike => exact ih alike goesOn.2
      | error cause => exact Or.inr (.error cause)

theorem ticksAlike (mirrors : older.Mirrors past newer) (now : Duration) (wallClock : WallClock) :
    older.TicksAlike newer now wallClock := by
  rw [TicksAlike, or_iff_not_imp_left]
  intro fits
  refine ⟨((mirrors.tick now wallClock).resolve_left fits).1, fun tree playing loaded => ?_⟩
  rcases mirrors.tidy.renews older.provider with ⟨refusals, ⟨leases, later⟩, renewed⟩
  have evaluates : older.runner.Evaluates older.provider tree leases later :=
    ⟨playing, loaded, refusals, renewed⟩
  rw [evaluates.tick_eq] at fits
  have outcomes := mirrors.runners.engineTick tree now wallClock
  revert fits outcomes
  generalize older.runner.engineTick tree now wallClock = one
  generalize newer.runner.engineTick tree now wallClock = other
  intro fits outcomes
  cases outcomes with
  | done holds => exact holds.2.1.visits
  | failed alike => exact alike.1.visits
  | exhausted out =>
    cases out
    exact absurd rfl fits

end Mirrors

/-- A mission is restarted while it is playing, or it is played over. -/
inductive BeginsAgain (site : Site σ LeaseRegistry) (now : Duration) :
    Site σ LeaseRegistry → Prop
  | restarted {after : Site σ LeaseRegistry} (playing : site.runner.state = .playing)
      (performed : site.perform now .restart = .ok after) : BeginsAgain site now after
  | played {after : Site σ LeaseRegistry} (again : site.runner.PlaysOver)
      (performed : site.perform now .play = .ok after) (playing : after.runner.state = .playing) :
      BeginsAgain site now after

theorem BeginsAgain.begins (again : site.BeginsAgain now after) (orderly : site.runner.Orderly) :
    after.runner.Begins now := by
  cases again with
  | restarted playing performed =>
    cases performed
    exact orderly.begins_restart playing now
  | played again performed playing =>
    exact orderly.begins_play again (play_of_perform performed again.waiting playing)

theorem BeginsAgain.tidy (again : site.BeginsAgain now after)
    (tidy : site.runner.leases.IsTidy) : after.runner.leases.IsTidy := by
  cases again with
  | restarted _ performed => exact tidy_perform tidy performed
  | played _ performed _ => exact tidy_perform tidy performed

/-- Whatever happened before, a mission that is started over goes on as a new one would that has the
same variables, services and sessions and is played at the same time. Whatever happens then, the two
cannot be told apart, unless the one that was started over runs out of numbers for its requests. -/
theorem begins_again_as_new (config : MissionConfig) (registry : LeaseRegistry)
    (earlier : List (Deed σ LeaseRegistry)) {site again fresh : Site σ LeaseRegistry}
    {tree : Tree} {bindings : Table String Entry} (other : LeaseRegistry)
    (later : List (Deed σ LeaseRegistry))
    (reached : (start config registry).undergoAll earlier = .ok site)
    (begins : site.BeginsAgain now again) (loaded : again.runner.tree = some tree)
    (same : ∀ name, again.runner.blackboard.rootBinding? name = bindings.get? name)
    (played : (anew again.runner tree bindings other).perform now .play = .ok fresh)
    (playing : fresh.runner.state = .playing) (goesOn : ∀ deed ∈ later, deed.GoesOn) :
    again.undergoAll later = .error .handleOverflow ∨
      Matches
        (fun after next => after.runner.Resembles again.runner.client.journal next.runner ∧
          ∀ now wallClock, after.TicksAlike next now wallClock)
        (again.undergoAll later) (fresh.undergoAll later) := by
  have orderly : site.runner.Orderly :=
    kept_undergoAll (fun site => site.runner.Orderly) orderly_undergo
      (Runner.orderly_create config) reached
  have tidy : site.runner.leases.IsTidy :=
    kept_undergoAll (fun site => site.runner.leases.IsTidy) tidy_undergo
      LeaseHolder.isTidy_empty reached
  have waiting : (anew again.runner tree bindings other).runner.state ≠ .playing := by
    simp [anew_eq, Runner.create]
  rcases Runner.play_idle rfl rfl (play_of_perform played waiting playing) with ⟨leases, isNew⟩
  have runners := (begins.begins orderly).mirrors loaded same other leases
  rw [← isNew] at runners
  have mirrors : again.Mirrors again.runner.past fresh :=
    ⟨runners, begins.tidy tidy, tidy_perform LeaseHolder.isTidy_empty played⟩
  refine (mirrors.undergoAll goesOn).imp_right fun fit => fit.imp ?_
  exact fun after next _ _ alike => ⟨alike.runners.resembles, alike.ticksAlike⟩

/-- A robot is sent on its way and is paused once. -/
def delay : List (Deed ScriptedService LeaseRegistry) :=
  [.perform .zero (.load journeyTree), .perform .zero (.register "graph-nav" (.ofScript .empty)),
    .perform .zero (.define "battery" (.int 80)), .perform .zero .play,
    .perform .zero (.tick default), .perform tenSeconds .pause, .perform tenSeconds .play,
    .perform tenSeconds (.tick default)]

def afterDelay : Site ScriptedService LeaseRegistry :=
  ((start .standard .empty).undergoAll delay).toOption.getD (start .standard .empty)

def sentAgain : Site ScriptedService LeaseRegistry :=
  { afterDelay with runner := afterDelay.runner.restart tenSeconds }

def charge : Table String Entry := Table.empty.insert "battery" ⟨.int 80, .zero, none⟩

def sentFirst : Site ScriptedService LeaseRegistry :=
  ((anew sentAgain.runner journeyTree.tree charge .empty).perform tenSeconds .play).toOption.getD
    sentAgain

def secondJourney : List (Deed ScriptedService LeaseRegistry) :=
  [.perform tenSeconds (.tick default), .perform twentyFiveSeconds (.tick default)]

def afterJourney (site : Site ScriptedService LeaseRegistry) :
    Site ScriptedService LeaseRegistry :=
  (site.undergoAll secondJourney).toOption.getD site

set_option maxRecDepth 100000 in
theorem undergoAll_delay : (start .standard .empty).undergoAll delay = .ok afterDelay := by cbv

set_option maxRecDepth 100000 in
theorem state_afterDelay : afterDelay.runner.state = .playing := by cbv

set_option maxRecDepth 100000 in
theorem tree_sentAgain : sentAgain.runner.tree = some journeyTree.tree := by cbv

set_option maxRecDepth 100000 in
theorem root_sentAgain :
    sentAgain.runner.blackboard.scope? .root = some ⟨none, charge⟩ := by cbv

set_option maxRecDepth 100000 in
theorem play_sentFirst :
    (anew sentAgain.runner journeyTree.tree charge .empty).perform tenSeconds .play =
      .ok sentFirst := by cbv

set_option maxRecDepth 100000 in
theorem state_sentFirst : sentFirst.runner.state = .playing := by cbv

set_option maxRecDepth 100000 in
theorem undergoAll_sentAgain :
    sentAgain.undergoAll secondJourney = .ok (afterJourney sentAgain) := by cbv

set_option maxRecDepth 100000 in
theorem undergoAll_sentFirst :
    sentFirst.undergoAll secondJourney = .ok (afterJourney sentFirst) := by cbv

set_option maxRecDepth 100000 in
/-- The second request of the robot is the first one of a new mission. -/
theorem sent_again_as_first :
    (start .standard .empty).undergoAll delay = .ok afterDelay ∧
      afterDelay.BeginsAgain tenSeconds sentAgain ∧
      (afterJourney sentAgain).runner.client.nextHandle = 2 ∧
      (afterJourney sentFirst).runner.client.nextHandle = 1 ∧
      (afterJourney sentAgain).runner.Resembles sentAgain.runner.client.journal
        (afterJourney sentFirst).runner := by
  have begins : afterDelay.BeginsAgain tenSeconds sentAgain := .restarted state_afterDelay rfl
  have same : ∀ name, sentAgain.runner.blackboard.rootBinding? name = charge.get? name := by
    intro name
    rw [Blackboard.rootBinding?, root_sentAgain]
    rfl
  have alike := begins_again_as_new .standard .empty delay .empty secondJourney undergoAll_delay
    begins tree_sentAgain same play_sentFirst state_sentFirst
    (by simp [secondJourney, Deed.GoesOn, Operation.GoesOn])
  refine ⟨undergoAll_delay, begins, by cbv, by cbv, ?_⟩
  rw [undergoAll_sentAgain, undergoAll_sentFirst] at alike
  rcases alike with out | fit
  · cases out
  · cases fit with
    | ok values => exact values.1

end Site

end BehaviorTree
