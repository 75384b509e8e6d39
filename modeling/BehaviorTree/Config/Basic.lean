import BehaviorTree.Duration

/-!
# Configurations of missions

Settings of a mission that its source does not contain.
-/

namespace BehaviorTree

/-- How often requests to remote services are tried. -/
structure RetryPolicy where
  /-- How often a request is issued before its node gives up. -/
  start : UInt32
  /-- How many polls of a request may fail in a row. -/
  poll : UInt32
deriving DecidableEq

structure MissionConfig where
  name : String
  tickPeriod : Duration
  restartOnPlay : Bool
  maxReports : UInt64
  /-- How long requests may take whose nodes set no limit. -/
  defaultTimeout : Option Duration
  retry : RetryPolicy
  leaseOwner : String

namespace MissionConfig

def standard : MissionConfig where
  name := "mission"
  tickPeriod := .ofMilliseconds 100
  restartOnPlay := false
  maxReports := 32
  defaultTimeout := none
  retry := ⟨3, 5⟩
  leaseOwner := "mission-runner"

instance : Inhabited MissionConfig := ⟨standard⟩

end MissionConfig

end BehaviorTree
