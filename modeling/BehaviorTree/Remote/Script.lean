import BehaviorTree.Remote.Service

/-!
# Scripted services

A scripted service answers from queues, one for each of its operations. Every use of an operation
takes the next answer of its queue, whatever request it is about. An operation whose queue is
empty succeeds, and a request whose polls are used up stays pending.
-/

namespace BehaviorTree

/-- The answers that a service has ready. An operation that fails has a message. -/
structure Script where
  sessions : List (Option String)
  starts : List (Option String)
  polls : List (Except String CallStatus)
  cancels : List (Option String)

namespace Script

def empty : Script := ⟨[], [], [], []⟩

def append (script more : Script) : Script :=
  ⟨script.sessions ++ more.sessions, script.starts ++ more.starts, script.polls ++ more.polls,
    script.cancels ++ more.cancels⟩

end Script

/-- A service that answers from a script. -/
structure ScriptedService where
  script : Script
  nextCall : CallId

namespace ScriptedService

/-- A service with a script. Its requests are numbered from one. -/
def ofScript (script : Script) : ScriptedService := ⟨script, 1⟩

/-- The service with more answers at the ends of its queues. -/
def extend (service : ScriptedService) (more : Script) : ScriptedService :=
  { service with script := service.script.append more }

def reply {α : Type} (answer : Option (Option String)) (result : α) : Except String α :=
  match answer with
  | some (some message) => .error message
  | _ => .ok result

/-- Starts a request. A number is used up only if the request starts. -/
def start (service : ScriptedService) : Except String CallId × ScriptedService :=
  let script := { service.script with starts := service.script.starts.tail }
  match reply service.script.starts.head? service.nextCall with
  | .ok call => (.ok call, ⟨script, service.nextCall + 1⟩)
  | .error message => (.error message, ⟨script, service.nextCall⟩)

end ScriptedService

instance : RemoteService ScriptedService where
  openSession service _ :=
    (ScriptedService.reply service.script.sessions.head? (),
      { service with script := { service.script with sessions := service.script.sessions.tail } })
  start service _ := service.start
  poll service _ :=
    (service.script.polls.headD (.ok (.pending none)),
      { service with script := { service.script with polls := service.script.polls.tail } })
  cancel service _ :=
    (ScriptedService.reply service.script.cancels.head? (),
      { service with script := { service.script with cancels := service.script.cancels.tail } })

end BehaviorTree
