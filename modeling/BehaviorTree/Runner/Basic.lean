import BehaviorTree.Engine.Tick

/-!
# Mission runners

A runner owns everything that outlives a tick: the tree, the blackboard, the run states, the client
of remote services and the leases. It is told to load a tree, to play, pause, stop and restart, and
to tick. Pausing discards nothing. Stopping also gives up all requests and leases; remote nodes
make their requests again when the mission is played on.

Operations that depend on the time are given a reading of the clock, and those that deal with leases
are given the state of the provider, of which they return the next one.
-/

namespace BehaviorTree

/-- What a runner is doing. -/
inductive RunnerState where
  /-- Nothing was played since a tree was loaded. -/
  | idle
  | playing
  | paused
  | stopped
  | finished
deriving DecidableEq, Inhabited

/-- Why a runner does not do what it is told to. -/
inductive MissionError where
  | notLoaded
  | notPlaying
  | lease (cause : LeaseError)
  | engine (cause : EngineError)

/-- A name for the cause of an error, by which programs tell errors apart. -/
def MissionError.code : MissionError → String
  | notLoaded => "NotLoaded"
  | notPlaying => "NotPlaying"
  | lease cause => "Lease." ++ cause.code
  | engine cause => "Engine." ++ cause.code

def MissionError.message : MissionError → String
  | notLoaded => "No mission tree is loaded"
  | notPlaying => "The mission is not playing"
  | lease cause => cause.message
  | engine cause => cause.message

/-- A runner whose services have states of type `σ`. -/
structure Runner (σ : Type) where
  config : MissionConfig
  client : Client σ
  leases : LeaseHolder
  tree : Option Tree
  blackboard : Blackboard
  runs : RunStore
  reports : List NodeReport
  state : RunnerState
  status : Option Status
  /-- The innermost node that was running on the last tick. -/
  active : Option RunKey
  /-- The clock reading when the mission was first played. -/
  startedAt : Option Duration
  /-- How often the mission was played on after a pause. The count wraps around. -/
  pauses : BitVec 64
  ticks : Nat

namespace Runner

variable {σ π : Type}

/-- A runner that has no tree yet. -/
def create (config : MissionConfig) (client : Client σ) : Runner σ where
  config := config
  client := client
  leases := .empty config.leaseOwner
  tree := none
  blackboard := .empty
  runs := .empty
  reports := []
  state := .idle
  status := none
  active := none
  startedAt := none
  pauses := 0
  ticks := 0

/-- The mission time: how long ago the mission was first played. -/
def elapsed (runner : Runner σ) (now : Duration) : Duration :=
  match runner.startedAt with
  | some start => now.since start
  | none => .zero

/-- Defines a variable in the root scope. -/
def define (runner : Runner σ) (now : Duration) (name : String) (value : Value) :
    Except BlackboardError (Runner σ) :=
  (runner.blackboard.define .root name ⟨value, runner.elapsed now, none⟩).map fun blackboard =>
    { runner with blackboard := blackboard }

/-- Writes a variable of the root scope. -/
def write (runner : Runner σ) (now : Duration) (name : String) (value : Value) :
    Except BlackboardError (Runner σ) :=
  (runner.blackboard.write .root name ⟨value, runner.elapsed now, none⟩).map fun blackboard =>
    { runner with blackboard := blackboard }

def release [RemoteService σ] (runner : Runner σ) (state : RunState) : Runner σ :=
  let (blackboard, client) := state.release runner.blackboard runner.client
  { runner with blackboard := blackboard, client := client }

/-- Discards all run states, so that the next tick starts from the top. -/
def reset [RemoteService σ] (runner : Runner σ) : Runner σ :=
  let (states, runs) := runner.runs.drain
  let released := states.foldl release { runner with runs := runs }
  { released with
    blackboard := released.blackboard.clearNestedScopes
    reports := []
    status := none
    active := none
    startedAt := none
    ticks := 0 }

/-- Gives all requests up. Run states are kept, without the requests. -/
def dropCalls [RemoteService σ] (runner : Runner σ) : Runner σ :=
  let (calls, runs) := runner.runs.detachCalls
  { runner with runs := runs, client := (calls.foldl Client.cancel runner.client).cancelAll }

def dropLeases [LeaseProvider π] (runner : Runner σ) (provider : π) : Runner σ × π :=
  let (leases, provider) := runner.leases.releaseAll provider
  ({ runner with leases := leases }, provider)

/-- Gives all requests and leases up. The mission can be played on. -/
def stop [RemoteService σ] [LeaseProvider π] (runner : Runner σ) (provider : π) : Runner σ × π :=
  let (runner, provider) := runner.dropCalls.dropLeases provider
  match runner.state with
  | .playing | .paused => ({ runner with state := .stopped }, provider)
  | _ => (runner, provider)

/-- Replaces the tree. Whatever was running is stopped first. -/
def load [RemoteService σ] [LeaseProvider π] (runner : Runner σ) (provider : π) (tree : Tree) :
    Runner σ × π :=
  let (runner, provider) := runner.stop provider
  let runner := runner.reset
  ({ runner with
      client := runner.client.resetSessions
      tree := some tree
      state := .idle }, provider)

def pause (runner : Runner σ) : Runner σ :=
  match runner.state with
  | .playing => { runner with state := .paused }
  | _ => runner

/-- Discards all run states. A mission that is playing starts from the top at once. -/
def restart [RemoteService σ] (runner : Runner σ) (now : Duration) : Runner σ :=
  let runner := runner.reset
  match runner.state with
  | .finished => { runner with state := .stopped }
  | .playing => { runner with startedAt := some now }
  | _ => runner

/-- Gets a runner that has its leases ready to be played, which depends on what it was doing. -/
def prepare [RemoteService σ] (runner : Runner σ) : Runner σ :=
  match runner.state with
  | .finished => runner.reset
  | .paused | .stopped =>
    let resumed := { runner with pauses := runner.pauses + 1 }
    if runner.config.restartOnPlay then resumed.reset else resumed
  | .idle | .playing => runner

/-- Starts the mission or plays it on. All leases that the tree needs are acquired first, and
nothing changes if one of them is refused. -/
def play [RemoteService σ] [LeaseProvider π] (runner : Runner σ) (now : Duration)
    (provider : π) : Except MissionError (Runner σ) × π :=
  match runner.tree with
  | none => (.error .notLoaded, provider)
  | some tree =>
    if runner.state = .playing then (.ok runner, provider)
    else
      match runner.leases.acquireAll provider tree.leaseResources with
      | (.error error, provider) => (.error (.lease error), provider)
      | (.ok leases, provider) =>
        let ready := { runner with leases := leases }.prepare
        (.ok { ready with
          startedAt := ready.startedAt.or (some now)
          state := .playing }, provider)

def context (runner : Runner σ) : Context σ :=
  .atRoot runner.blackboard runner.runs runner.client runner.reports

/-- The runner after the engine changed a context. -/
def absorb (runner : Runner σ) (context : Context σ) : Runner σ :=
  { runner with
    blackboard := context.blackboard
    runs := context.runs
    client := context.client
    reports := context.reports
    ticks := runner.ticks + 1 }

/-- What does not change while a tree is ticked. -/
def setting (runner : Runner σ) (tree : Tree) (now : Duration) (wallClock : WallClock) :
    Setting :=
  ⟨tree, runner.config, runner.elapsed now, runner.pauses, wallClock⟩

/-- The runner after a tick. A mission that is over gives its leases back, and one whose tree is
broken is stopped. -/
def conclude [RemoteService σ] [LeaseProvider π] (runner : Runner σ) (provider : π)
    (result : Except (Failure EngineError) Status) (active : Option RunKey) :
    Except (Failure MissionError) Status × Runner σ × π :=
  match result with
  | .error failure => (.error (failure.map .engine), runner.stop provider)
  | .ok status =>
    let ticked := { runner with status := some status, active := active }
    if status = .running then (.ok status, ticked, provider)
    else (.ok status, { ticked with state := .finished }.dropLeases provider)

/-- Renews the leases and ticks the tree once. -/
def tick [RemoteService σ] [LeaseProvider π] (runner : Runner σ) (now : Duration)
    (wallClock : WallClock) (provider : π) :
    Except (Failure MissionError) Status × Runner σ × π :=
  if runner.state ≠ .playing then (.error (.error .notPlaying), runner, provider)
  else
    let (renewed, leases, provider) := runner.leases.retainAll provider
    let runner := { runner with leases := leases }
    match renewed, runner.tree with
    | .error fault, _ => (.error (.error (.engine (.leaseBookkeeping fault))), runner, provider)
    | .ok _, none => (.error (.error .notLoaded), runner, provider)
    | .ok _, some tree =>
      let setting := runner.setting tree now wallClock
      let (result, context) := (BehaviorTree.tick setting tree.main).run.run runner.context
      (runner.absorb context).conclude provider result context.innermost

/-- Ticks the mission until it is over, at most `limit` times. -/
def tickUntilOver [RemoteService σ] [LeaseProvider π] (now : Duration) (wallClock : WallClock) :
    (limit : Nat) → Runner σ → π → Except (Failure MissionError) Status × Runner σ × π
  | 0, runner, provider => (.ok .running, runner, provider)
  | limit + 1, runner, provider =>
    match runner.tick now wallClock provider with
    | (.ok .running, runner, provider) => tickUntilOver now wallClock limit runner provider
    | ended => ended

/-- Plays the mission and ticks it until it is over, at most `limit` times. -/
def run [RemoteService σ] [LeaseProvider π] (runner : Runner σ) (now : Duration)
    (wallClock : WallClock) (limit : Nat) (provider : π) :
    Except (Failure MissionError) Status × Runner σ × π :=
  match runner.play now provider with
  | (.error error, provider) => (.error (.error error), runner, provider)
  | (.ok runner, provider) => tickUntilOver now wallClock limit runner provider

/-- Gives up everything that the runner has outside of itself. -/
def close [RemoteService σ] [LeaseProvider π] (runner : Runner σ) (provider : π) :
    Runner σ × π :=
  { runner with client := runner.client.cancelAll }.dropLeases provider

/-- What the innermost running node is called, if it is a node of the tree. -/
def activeLabel (runner : Runner σ) : Option (RunKey × String) :=
  runner.active.bind fun key =>
    (runner.tree.bind fun tree => tree.node? key.node).map fun node => (key, node.label)

end Runner

end BehaviorTree
