import BehaviorTree.Failure
import BehaviorTree.Remote.Service
import BehaviorTree.Table

/-!
# Clients of remote services

A client knows services by their names, keeps the sessions that are open, and has a handle for
every request that is not over. A handle is retired when the request is over, when it takes longer
than it may, or when it is given up. Every operation of a service that the client uses is noted in
a journal.
-/

namespace BehaviorTree

structure CallHandle where
  number : UInt64
deriving DecidableEq, Inhabited

def CallHandle.text (handle : CallHandle) : String :=
  s!"CallHandle({handle.number.toNat})"

/-- A request that is not over. -/
structure OutstandingCall where
  service : String
  call : CallId
  startedAt : Duration
  timeout : Option Duration

/-- The use of an operation of a service. -/
inductive Exchange where
  | opened (service host : String) (granted : Bool)
  /-- A request was made, and perhaps started under a number. -/
  | started (service : String) (call : Option CallId) (request : RemoteRequest)
  | polled (service : String) (call : CallId)
  | cancelled (service : String) (call : CallId)

/-- A client of services whose state is `σ`. -/
structure Client (σ : Type) where
  services : Table String σ
  sessions : List (String × String)
  calls : Table CallHandle OutstandingCall
  nextHandle : UInt64
  /-- The operations of services that were used, the latest in front. -/
  journal : List Exchange

namespace Client

variable {σ : Type}

def empty : Client σ := ⟨.empty, [], .empty, 0, []⟩

instance : Inhabited (Client σ) := ⟨empty⟩

/-- Makes a service known, in place of an earlier one of the same name. -/
def register (client : Client σ) (name : String) (service : σ) : Client σ :=
  { client with services := client.services.insert name service }

/-- The client with another state of a service, and a note of how it was used. -/
def note (client : Client σ) (name : String) (service : σ) (exchange : Exchange) : Client σ :=
  { client with
    services := client.services.insert name service
    journal := exchange :: client.journal }

/-- Forgets all sessions, so that new ones have to be opened. -/
def resetSessions (client : Client σ) : Client σ :=
  { client with sessions := [] }

def outstanding (client : Client σ) : Nat := client.calls.size

def retire (client : Client σ) (handle : CallHandle) : Client σ :=
  { client with calls := client.calls.erase handle }

def text (client : Client σ) : String :=
  let sessions := client.sessions.map fun session =>
    s!"({quoted session.1}, {quoted session.2})"
  let services := quotedList (sortedNames client.services.keys)
  let hosts := "\x7b" ++ ", ".intercalate (sortedNames sessions) ++ "\x7d"
  s!"RemoteClient \x7b services: {services}, sessions: {hosts}, " ++
    s!"outstanding: {client.outstanding} \x7d"

variable [RemoteService σ]

/-- Opens a session with a service on a host, unless one is open. -/
def ensureSession (client : Client σ) (name host : String) :
    Except RemoteError Unit × Client σ :=
  if (name, host) ∈ client.sessions then (.ok (), client)
  else
    match client.services.get? name with
    | none => (.error (.unknownService name), client)
    | some service =>
      match RemoteService.openSession service host with
      | (.ok _, service) =>
        let client := client.note name service (.opened name host true)
        (.ok (), { client with sessions := (name, host) :: client.sessions })
      | (.error message, service) =>
        (.error (.session name message), client.note name service (.opened name host false))

/-- Gives a request that a service started a handle. A client that has no number left for the
next handle crashes. -/
def issue (client : Client σ) (call : OutstandingCall) :
    Except (Failure RemoteError) CallHandle × Client σ :=
  if client.nextHandle.toNat + 1 < UInt64.size then
    (.ok ⟨client.nextHandle⟩,
      { client with
        calls := client.calls.insert ⟨client.nextHandle⟩ call
        nextHandle := client.nextHandle + 1 })
  else (.error (.crash .handleOverflow), client)

def start (client : Client σ) (request : RemoteRequest) (timeout : Option Duration)
    (now : Duration) : Except (Failure RemoteError) CallHandle × Client σ :=
  match client.services.get? request.service with
  | none => (.error (.error (.unknownService request.service)), client)
  | some service =>
    match RemoteService.start service request with
    | (.ok call, service) =>
      let client := client.note request.service service
        (.started request.service (some call) request)
      client.issue ⟨request.service, call, now, timeout⟩
    | (.error message, service) =>
      (.error (.error (.call request.service message)),
        client.note request.service service (.started request.service none request))

/-- Gives a request up. Whether the service agrees does not matter. -/
def cancel (client : Client σ) (handle : CallHandle) : Client σ :=
  match client.calls.get? handle with
  | none => client
  | some outstanding =>
    let client := client.retire handle
    match client.services.get? outstanding.service with
    | none => client
    | some service =>
      client.note outstanding.service (RemoteService.cancel service outstanding.call).2
        (.cancelled outstanding.service outstanding.call)

def cancelAll (client : Client σ) : Client σ :=
  client.calls.keys.foldl cancel client

/-- The last moment of a request that may only take so long. -/
def deadline? (outstanding : OutstandingCall) :
    Except (Failure RemoteError) (Option (Duration × Duration)) :=
  match outstanding.timeout with
  | none => .ok none
  | some after =>
    (Failure.orCrash .durationOverflow (outstanding.startedAt.add? after)).map
      fun deadline => some (after, deadline)

/-- What a status means for a request: it is over, or it took too long, or it goes on. -/
def settle (client : Client σ) (handle : CallHandle) (service : String)
    (deadline : Option (Duration × Duration)) (now : Duration) (status : CallStatus) :
    Except (Failure RemoteError) CallStatus × Client σ :=
  match status, deadline with
  | .pending _, some (after, deadline) =>
    if deadline ≤ now then (.error (.error (.timeout service after)), client.cancel handle)
    else (.ok status, client)
  | .pending _, none => (.ok status, client)
  | _, _ => (.ok status, client.retire handle)

/-- Asks how a request is going. A service that cannot be reached leaves the request as it is. -/
def poll (client : Client σ) (handle : CallHandle) (now : Duration) :
    Except (Failure RemoteError) CallStatus × Client σ :=
  match client.calls.get? handle with
  | none => (.error (.error (.call "" s!"unknown call handle {handle.text}")), client)
  | some outstanding =>
    match deadline? outstanding with
    | .error failure => (.error failure, client)
    | .ok deadline =>
      match client.services.get? outstanding.service with
      | none => (.error (.error (.unknownService outstanding.service)), client)
      | some service =>
        let (reply, service) := RemoteService.poll service outstanding.call
        let client := client.note outstanding.service service
          (.polled outstanding.service outstanding.call)
        match reply with
        | .error message => (.error (.error (.call outstanding.service message)), client)
        | .ok status => client.settle handle outstanding.service deadline now status

end Client

end BehaviorTree
