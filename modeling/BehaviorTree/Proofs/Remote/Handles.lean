import BehaviorTree.Proofs.Remote.Calls
import BehaviorTree.Proofs.Remote.Exchanges
import BehaviorTree.Remote.Script
import Mathlib

/-!
# The life of a handle

A handle comes into use when a service starts a request, and goes out of use once: when a poll says
that the request is over, or when the request is given up because it took too long or was cancelled.
What is given up is cancelled at the service, once for every handle; what is over is not. A turn is
a command that a client is given, with what the client was like before and after it. Every turn
either issues one handle, or drops some and makes the cancellations that belong to them. What a turn
makes of services is what its exchanges make of them, cancellations included.
-/

namespace BehaviorTree

/-- What a client is asked to do. -/
inductive ClientCommand (σ : Type) where
  | register (name : String) (service : σ)
  | ensureSession (service host : String)
  | resetSessions
  | start (request : RemoteRequest) (timeout : Option Duration) (now : Duration)
  | poll (handle : CallHandle) (now : Duration)
  | cancel (handle : CallHandle)
  | cancelAll

inductive ClientAnswer where
  /-- The command was one that has no answer. -/
  | done
  | session (result : Except RemoteError Unit)
  | started (result : Except (Failure RemoteError) CallHandle)
  | polled (reply : Except (Failure RemoteError) CallStatus)

/-- A command with its answer, and the client before and after it. -/
structure ClientTurn (σ : Type) where
  before : Client σ
  command : ClientCommand σ
  answer : ClientAnswer
  after : Client σ

/-- A request as a service knows it: the name of the service, and the number of the request. -/
abbrev ServiceCall := String × CallId

/-- The request that is cancelled in an exchange. -/
def Exchange.cancelled? : Exchange → Option ServiceCall
  | .cancelled service call => some (service, call)
  | _ => none

/-- The request that a service starts in an exchange. -/
def Exchange.started? : Exchange → Option ServiceCall
  | .started service (some call) _ => some (service, call)
  | _ => none

def OutstandingCall.serviceCall (outstanding : OutstandingCall) : ServiceCall :=
  (outstanding.service, outstanding.call)

variable {σ : Type}

def ClientCommand.isStart : ClientCommand σ → Bool
  | .start _ _ _ => true
  | _ => false

namespace ClientTurn

/-- The operations of services that were used in a turn, the earliest in front. -/
def exchanges (turn : ClientTurn σ) : List Exchange :=
  turn.after.journal.reverse.drop turn.before.journal.length

def cancellations (turn : ClientTurn σ) : List ServiceCall :=
  turn.exchanges.filterMap Exchange.cancelled?

/-- The handle that a start returned, with the request that the service started for it. -/
def issued (turn : ClientTurn σ) : List (CallHandle × ServiceCall) :=
  match turn.command, turn.answer with
  | .start _ _ _, .started (.ok handle) =>
    (turn.exchanges.filterMap Exchange.started?).map fun call => (handle, call)
  | _, _ => []

/-- The handle of which a poll said that it succeeded or failed. -/
def concluded (turn : ClientTurn σ) : List CallHandle :=
  match turn.command, turn.answer with
  | .poll handle _, .polled (.ok (.succeeded _)) => [handle]
  | .poll handle _, .polled (.ok (.failed _)) => [handle]
  | _, _ => []

/-- The handles that timed out in a poll, or were cancelled while they were in use. -/
def givenUp (turn : ClientTurn σ) : List CallHandle :=
  match turn.command, turn.answer with
  | .poll handle _, .polled (.error (.error (.timeout _ _))) => [handle]
  | .cancel handle, _ => if turn.before.calls.contains handle then [handle] else []
  | .cancelAll, _ => turn.before.calls.keys
  | _, _ => []

def retired (turn : ClientTurn σ) : List CallHandle := turn.concluded ++ turn.givenUp

/-- What a turn makes of the service of a name: it may be registered, and is used as often as the
exchanges of the turn say. -/
def serve [RemoteService σ] (turn : ClientTurn σ) (name : String) (service : Option σ) :
    Option σ :=
  let known := match turn.command with
    | .register other registered => if name = other then some registered else service
    | _ => service
  known.map (Exchange.replay turn.exchanges name)

end ClientTurn

namespace Client

variable [RemoteService σ]

/-- The answer of a client to a command, and the client afterwards. -/
def obey (client : Client σ) : ClientCommand σ → ClientAnswer × Client σ
  | .register name service => (.done, client.register name service)
  | .ensureSession service host =>
    let (result, after) := client.ensureSession service host
    (.session result, after)
  | .resetSessions => (.done, client.resetSessions)
  | .start request timeout now =>
    let (result, after) := client.start request timeout now
    (.started result, after)
  | .poll handle now =>
    let (reply, after) := client.poll handle now
    (.polled reply, after)
  | .cancel handle => (.done, client.cancel handle)
  | .cancelAll => (.done, client.cancelAll)

def turn (client : Client σ) (command : ClientCommand σ) : ClientTurn σ :=
  ⟨client, command, (client.obey command).1, (client.obey command).2⟩

/-- The turns of a client that is given some commands. -/
def turns (client : Client σ) : List (ClientCommand σ) → List (ClientTurn σ)
  | [] => []
  | command :: rest => client.turn command :: (client.turn command).after.turns rest

def afterAll (client : Client σ) (commands : List (ClientCommand σ)) : Client σ :=
  commands.foldl (fun client command => (client.obey command).2) client

/-- What the service of a request answers when the request is made, if it is known. -/
def answer? (client : Client σ) (request : RemoteRequest) : Option (Except String CallId) :=
  (client.services.get? request.service).map fun state => (RemoteService.start state request).1

end Client

namespace Client

/-- The request that a service knows for a handle in use. -/
def serviceCall? (client : Client σ) (handle : CallHandle) : Option ServiceCall :=
  (client.calls.get? handle).map OutstandingCall.serviceCall

/-- Every service that is asked for something is known. -/
def Registered (client : Client σ) : Prop :=
  ∀ handle outstanding, client.calls.get? handle = some outstanding →
    client.services.contains outstanding.service = true

/-- Some handles go out of use, and some requests are cancelled at their services. -/
structure Drops (before : Client σ) (handles : List CallHandle) (cancelled : List ServiceCall)
    (after : Client σ) : Prop where
  calls : ∀ handle, after.calls.get? handle =
    if handle ∈ handles then none else before.calls.get? handle
  nextHandle : after.nextHandle = before.nextHandle
  services : ∀ name, before.services.contains name = true → after.services.contains name = true
  journal : ∃ more, after.journal = more ++ before.journal ∧
    more.reverse.filterMap Exchange.cancelled? = cancelled

variable {before middle after client : Client σ} {handle : CallHandle}
  {handles more : List CallHandle} {cancelled : List ServiceCall} {outstanding : OutstandingCall}

theorem contains_insert_of_contains {name other : String} {service : σ}
    (known : client.services.contains name = true) :
    (client.services.insert other service).contains name = true := by
  rw [Table.contains_iff] at known ⊢
  rw [Table.get?_insert]
  split
  · exact ⟨service, rfl⟩
  · exact known

theorem Drops.refl (client : Client σ) : client.Drops [] [] client :=
  ⟨by simp, rfl, fun _ known => known, [], rfl, rfl⟩

theorem Drops.trans {later : List ServiceCall} (first : before.Drops handles cancelled middle)
    (second : middle.Drops more later after) :
    before.Drops (handles ++ more) (cancelled ++ later) after := by
  rcases first.journal with ⟨early, earlyJournal, earlyCancelled⟩
  rcases second.journal with ⟨late, lateJournal, lateCancelled⟩
  refine ⟨fun handle => ?_, second.nextHandle.trans first.nextHandle,
    fun name known => second.services name (first.services name known), late ++ early, ?_, ?_⟩
  · rw [second.calls, first.calls]
    by_cases listed : handle ∈ handles <;> by_cases also : handle ∈ more <;> simp [listed, also]
  · rw [lateJournal, earlyJournal, List.append_assoc]
  · rw [List.reverse_append, List.filterMap_append, earlyCancelled, lateCancelled]

theorem drops_note {exchange : Exchange} (quiet : exchange.cancelled? = none) (client : Client σ)
    (name : String) (service : σ) : client.Drops [] [] (client.note name service exchange) :=
  ⟨by simp [note], rfl, fun _ known => contains_insert_of_contains known, [exchange], rfl,
    by simp [quiet]⟩

theorem drops_retire (client : Client σ) (handle : CallHandle) :
    client.Drops [handle] [] (client.retire handle) := by
  refine ⟨fun other => ?_, rfl, fun _ known => known, [], rfl, rfl⟩
  simp only [retire, Table.get?_erase, List.mem_singleton]

theorem get?_eq_none (unheld : ¬ client.Holds handle) : client.calls.get? handle = none := by
  simpa [Holds, Table.contains] using unheld

variable [RemoteService σ]

theorem cancel_eq_self (unheld : ¬ client.Holds handle) : client.cancel handle = client := by
  simp only [cancel, get?_eq_none unheld]

theorem poll_eq_self (unheld : ¬ client.Holds handle) (now : Duration) :
    client.poll handle now =
      (.error (.error (.call "" s!"unknown call handle {handle.text}")), client) := by
  simp only [poll, get?_eq_none unheld]

/-- A request that is cancelled is cancelled at its service, too, if that is known. -/
theorem drops_cancel (found : client.calls.get? handle = some outstanding)
    (known : client.services.contains outstanding.service = true) :
    client.Drops [handle] [outstanding.serviceCall] (client.cancel handle) := by
  rcases Table.contains_iff.1 known with ⟨service, isService⟩
  have kept : (client.retire handle).services.get? outstanding.service = some service := isService
  simp only [cancel, found, kept]
  have retired := client.drops_retire handle
  refine ⟨retired.calls, rfl, fun _ known => contains_insert_of_contains known,
    [.cancelled outstanding.service outstanding.call], rfl, rfl⟩

/-- Requests that are cancelled one after the other are cancelled at their services in this
order. -/
theorem drops_foldl_cancel (once : handles.Nodup) (held : ∀ handle ∈ handles, client.Holds handle)
    (registered : client.Registered) :
    client.Drops handles (handles.filterMap client.serviceCall?)
      (handles.foldl cancel client) := by
  induction handles generalizing client with
  | nil => exact .refl client
  | cons first rest ih =>
    rcases Table.contains_iff.1 (held first List.mem_cons_self) with ⟨outstanding, found⟩
    have dropped := drops_cancel found (registered first outstanding found)
    rw [List.nodup_cons] at once
    have untouched : ∀ handle ∈ rest,
        (client.cancel first).calls.get? handle = client.calls.get? handle := by
      intro handle listed
      have other : handle ≠ first := fun same => once.1 (same ▸ listed)
      simp [dropped.calls, other]
    have later : (client.cancel first).Drops rest
        (rest.filterMap (client.cancel first).serviceCall?)
        (rest.foldl cancel (client.cancel first)) := ih once.2 ?_ ?_
    · have calls : rest.filterMap (client.cancel first).serviceCall? =
          rest.filterMap client.serviceCall? :=
        List.filterMap_congr fun handle listed => by
          simp only [serviceCall?, untouched handle listed]
      rw [calls] at later
      have both := dropped.trans later
      simpa [serviceCall?, found] using both
    · intro handle listed
      have before := held handle (List.mem_cons_of_mem _ listed)
      simpa [Holds, Table.contains, untouched handle listed] using before
    · intro handle kept foundKept
      rw [dropped.calls] at foundKept
      split at foundKept
      · cases foundKept
      · exact dropped.services _ (registered handle kept foundKept)

end Client

namespace ClientTurn

/-- A turn that issues no handle drops what it retires, and cancels what it gives up. -/
structure Drops (turn : ClientTurn σ) : Prop where
  issued : turn.issued = []
  dropped : turn.before.Drops turn.retired turn.cancellations turn.after
  once : turn.retired.Nodup
  held : ∀ handle ∈ turn.retired, turn.before.Holds handle
  cancelled : turn.cancellations = turn.givenUp.filterMap turn.before.serviceCall?

/-- A turn issues the next handle for a request, and retires nothing. -/
structure Issues (turn : ClientTurn σ) (call : OutstandingCall) : Prop where
  issued : turn.issued = [(⟨turn.before.nextHandle⟩, call.serviceCall)]
  retired : turn.retired = []
  cancelled : turn.cancellations = []
  nextHandle : turn.after.nextHandle.toNat = turn.before.nextHandle.toNat + 1
  calls : turn.after.calls = turn.before.calls.insert ⟨turn.before.nextHandle⟩ call
  services : ∀ name, turn.before.services.contains name = true →
    turn.after.services.contains name = true
  known : turn.before.services.contains call.service = true

variable {turn : ClientTurn σ} {handles : List CallHandle} {cancelled : List ServiceCall}

theorem exchanges_eq {more : List Exchange}
    (journal : turn.after.journal = more ++ turn.before.journal) :
    turn.exchanges = more.reverse := by
  rw [exchanges, journal, List.reverse_append, ← List.length_reverse, List.drop_left]

theorem drops_of (dropped : turn.before.Drops handles cancelled turn.after)
    (issued : turn.issued = []) (retired : turn.retired = handles) (once : handles.Nodup)
    (held : ∀ handle ∈ handles, turn.before.Holds handle)
    (given : cancelled = turn.givenUp.filterMap turn.before.serviceCall?) : turn.Drops := by
  subst retired
  rcases dropped.journal with ⟨more, journal, isCancelled⟩
  have made : turn.cancellations = cancelled := by
    rw [cancellations, exchanges_eq journal, isCancelled]
  exact ⟨issued, made ▸ dropped, once, held, made.trans given⟩

/-- A turn that changes nothing about handles drops nothing. -/
theorem drops_nothing (dropped : turn.before.Drops [] [] turn.after) (issued : turn.issued = [])
    (concluded : turn.concluded = []) (givenUp : turn.givenUp = []) : turn.Drops := by
  refine drops_of dropped issued ?_ List.nodup_nil (by simp) ?_
  · rw [retired, concluded, givenUp, List.nil_append]
  · rw [givenUp, List.filterMap_nil]

/-- What is in use after a turn that issues no handle was in use before. -/
theorem Drops.get?_before (drops : turn.Drops) {handle : CallHandle}
    {outstanding : OutstandingCall} (found : turn.after.calls.get? handle = some outstanding) :
    turn.before.calls.get? handle = some outstanding := by
  rw [drops.dropped.calls] at found
  split at found
  · cases found
  · exact found

theorem Drops.registered (drops : turn.Drops) (registered : turn.before.Registered) :
    turn.after.Registered :=
  fun handle outstanding found =>
    drops.dropped.services _ (registered handle outstanding (drops.get?_before found))

theorem Issues.registered {call : OutstandingCall} (issues : turn.Issues call)
    (registered : turn.before.Registered) : turn.after.Registered := by
  intro handle outstanding found
  rw [issues.calls, Table.get?_insert] at found
  split at found
  · cases found
    exact issues.services _ issues.known
  · exact issues.services _ (registered handle outstanding found)

end ClientTurn

namespace Client

variable [RemoteService σ] {client : Client σ}

theorem drops_ensureSession (client : Client σ) (service host : String) :
    client.Drops [] [] (client.ensureSession service host).2 := by
  unfold ensureSession
  split
  · exact .refl client
  · split
    · exact .refl client
    · split
      · exact (drops_note rfl client _ _).trans ⟨by simp, rfl, fun _ known => known, [], rfl, rfl⟩
      · exact drops_note rfl client _ _

/-- A start issues the next handle, or it changes nothing about handles. It crashes only if there
is no number left. -/
theorem turn_start (client : Client σ) (request : RemoteRequest) (timeout : Option Duration)
    (now : Duration) :
    let turn := client.turn (.start request timeout now)
    (turn.Drops ∧ ∃ failure, turn.answer = .started (.error failure) ∧
      (∀ cause, failure = .error cause → ∀ call, client.answer? request ≠ some (.ok call)) ∧
      ∀ cause, failure = .crash cause → UInt64.size ≤ client.nextHandle.toNat + 1) ∨
    ∃ call, turn.Issues ⟨request.service, call, now, timeout⟩ ∧
      client.answer? request = some (.ok call) ∧
      turn.answer = .started (.ok ⟨client.nextHandle⟩) := by
  rcases made : client.start request timeout now with ⟨result, after⟩
  have turned : client.turn (.start request timeout now) =
      ⟨client, .start request timeout now, .started result, after⟩ := by
    simp only [turn, obey, made]
  rw [turned]
  simp only [start] at made
  split at made
  · rename_i unknown
    cases made
    exact Or.inl ⟨ClientTurn.drops_nothing (.refl client) rfl rfl rfl, _, rfl,
      by simp [answer?, unknown], by simp⟩
  · rename_i service isService
    split at made
    · rename_i call service answered
      simp only [issue] at made
      split at made
      · rename_i fits
        cases made
        have exchanges := fun (turn : ClientTurn σ) =>
          @ClientTurn.exchanges_eq _ turn [.started request.service (some call) request]
        refine Or.inr ⟨call, ⟨?_, rfl, ?_, ?_, rfl, fun _ known => ?_, ?_⟩,
          by simp [answer?, isService, answered], rfl⟩
        · simp only [ClientTurn.issued]
          rw [exchanges _ rfl]
          rfl
        · rw [ClientTurn.cancellations, exchanges _ rfl]
          rfl
        · change (client.nextHandle + 1).toNat = client.nextHandle.toNat + 1
          rw [UInt64.toNat_add]
          exact Nat.mod_eq_of_lt fits
        · exact contains_insert_of_contains known
        · exact Table.contains_iff.2 ⟨_, isService⟩
      · rename_i full
        cases made
        exact Or.inl ⟨ClientTurn.drops_nothing (drops_note rfl client _ _) rfl rfl rfl, _, rfl,
          by simp, fun _ _ => Nat.le_of_not_lt full⟩
    · rename_i message _ refused
      cases made
      exact Or.inl ⟨ClientTurn.drops_nothing (drops_note rfl client _ _) rfl rfl rfl, _, rfl,
        by simp [answer?, isService, refused], by simp⟩

/-- A request that was polled goes on, took too long, or is over. -/
theorem settle_cases (client : Client σ) (handle : CallHandle) (service : String)
    (deadline : Option (Duration × Duration)) (now : Duration) (status : CallStatus) :
    (∃ feedback, client.settle handle service deadline now status =
      (.ok (.pending feedback), client)) ∨
    (∃ limit, client.settle handle service deadline now status =
      (.error (.error (.timeout service limit)), client.cancel handle)) ∨
    ((∀ feedback, status ≠ .pending feedback) ∧
      client.settle handle service deadline now status = (.ok status, client.retire handle)) := by
  cases status with
  | pending feedback =>
    cases deadline with
    | none => exact Or.inl ⟨feedback, rfl⟩
    | some times =>
      simp only [settle]
      split
      · exact Or.inr (Or.inl ⟨times.1, rfl⟩)
      · exact Or.inl ⟨feedback, rfl⟩
  | succeeded response | failed message => exact Or.inr (Or.inr ⟨by simp, rfl⟩)

/-- A poll drops its handle if the request is over, and cancels it if it took too long. -/
theorem turn_poll (registered : client.Registered) (handle : CallHandle) (now : Duration) :
    (client.turn (.poll handle now)).Drops := by
  rcases polled : client.poll handle now with ⟨reply, after⟩
  have turned : client.turn (.poll handle now) =
      ⟨client, .poll handle now, .polled reply, after⟩ := by
    simp only [turn, obey, polled]
  rw [turned]
  simp only [poll] at polled
  split at polled
  · cases polled
    exact ClientTurn.drops_nothing (.refl client) rfl rfl rfl
  rename_i outstanding found
  have held : client.Holds handle := Table.contains_iff.2 ⟨outstanding, found⟩
  split at polled
  · rename_i failure late
    rw [deadline?_error late] at polled
    cases polled
    exact ClientTurn.drops_nothing (.refl client) rfl rfl rfl
  split at polled
  · cases polled
    exact ClientTurn.drops_nothing (.refl client) rfl rfl rfl
  rename_i deadline _ _ service isService
  have noted : client.Drops [] [] (client.note outstanding.service
      (RemoteService.poll service outstanding.call).2
      (.polled outstanding.service outstanding.call)) := drops_note rfl client _ _
  split at polled
  · cases polled
    exact ClientTurn.drops_nothing noted rfl rfl rfl
  rename_i status _
  rcases settle_cases (client.note outstanding.service
      (RemoteService.poll service outstanding.call).2
      (.polled outstanding.service outstanding.call)) handle outstanding.service deadline now
      status with ⟨feedback, settled⟩ | ⟨limit, settled⟩ | ⟨final, settled⟩
  · rw [settled] at polled
    cases polled
    exact ClientTurn.drops_nothing noted rfl rfl rfl
  · rw [settled] at polled
    cases polled
    refine ClientTurn.drops_of (noted.trans (drops_cancel found ?_)) rfl rfl
      (List.nodup_singleton handle) (by simpa using held) ?_
    · exact contains_insert_of_contains (registered handle outstanding found)
    · simp [ClientTurn.givenUp, serviceCall?, found]
  · rw [settled] at polled
    cases polled
    cases status with
    | pending feedback => exact absurd rfl (final feedback)
    | succeeded response | failed message =>
      exact ClientTurn.drops_of (noted.trans (drops_retire _ handle)) rfl rfl
        (List.nodup_singleton handle) (by simpa using held) rfl

theorem turn_cases (registered : client.Registered) (command : ClientCommand σ) :
    (client.turn command).Drops ∨ ∃ call, (client.turn command).Issues call := by
  cases command with
  | register name service =>
    refine Or.inl (ClientTurn.drops_nothing ?_ rfl rfl rfl)
    exact ⟨by simp [turn, obey, register], rfl, fun _ known => contains_insert_of_contains known,
      [], rfl, rfl⟩
  | ensureSession service host =>
    exact Or.inl (ClientTurn.drops_nothing (client.drops_ensureSession service host) rfl rfl rfl)
  | resetSessions =>
    refine Or.inl (ClientTurn.drops_nothing ?_ rfl rfl rfl)
    exact ⟨by simp [turn, obey, resetSessions], rfl, fun _ known => known, [], rfl, rfl⟩
  | start request timeout now =>
    rcases client.turn_start request timeout now with ⟨drops, -⟩ | ⟨call, issues, -⟩
    · exact Or.inl drops
    · exact Or.inr ⟨_, issues⟩
  | poll handle now => exact Or.inl (turn_poll registered handle now)
  | cancel handle =>
    left
    by_cases held : client.Holds handle
    · rcases Table.contains_iff.1 held with ⟨outstanding, found⟩
      have dropped := drops_cancel found (registered handle outstanding found)
      have givenUp : (client.turn (.cancel handle)).givenUp = [handle] := by
        simp only [ClientTurn.givenUp, turn, show client.calls.contains handle = true from held,
          ↓reduceIte]
      refine ClientTurn.drops_of dropped rfl ?_ (List.nodup_singleton handle) ?_ ?_
      · rw [ClientTurn.retired, givenUp]
        rfl
      · rw [List.forall_mem_singleton]
        exact held
      · rw [givenUp]
        simp [turn, serviceCall?, found]
    · refine ClientTurn.drops_nothing ?_ rfl rfl ?_
      · simpa only [turn, obey, cancel_eq_self held] using Drops.refl client
      · simp only [ClientTurn.givenUp, turn,
          show ¬ client.calls.contains handle = true from held, Bool.false_eq_true, ↓reduceIte]
  | cancelAll =>
    left
    have held : ∀ handle ∈ client.calls.keys, client.Holds handle :=
      fun handle listed => Table.contains_iff.2 (Table.mem_keys_iff.1 listed)
    exact ClientTurn.drops_of (drops_foldl_cancel client.calls.nodup held registered) rfl rfl
      client.calls.nodup held rfl

theorem registered_turn (registered : client.Registered) (command : ClientCommand σ) :
    (client.turn command).after.Registered := by
  rcases turn_cases registered command with drops | ⟨call, issues⟩
  · exact drops.registered registered
  · exact issues.registered registered

/-- Whatever is done to a client in the course of a tick, every service that is asked for something
stays known. -/
theorem Used.registered {after : Client σ} (used : client.Used after)
    (registered : client.Registered) : after.Registered := by
  induction used with
  | unused => exact registered
  | session _ name host ih => exact registered_turn ih (.ensureSession name host)
  | started _ request timeout now ih => exact registered_turn ih (.start request timeout now)
  | polled _ handle now ih => exact registered_turn ih (.poll handle now)
  | cancelled _ handle ih => exact registered_turn ih (.cancel handle)

end Client

/-- What is known of a client that issued and retired some handles. -/
structure Ledger (client : Client σ) (issued : List (CallHandle × ServiceCall))
    (retired : List CallHandle) : Prop where
  nextHandle : client.nextHandle.toNat = issued.length
  below : ∀ entry ∈ issued, entry.1.number.toNat < issued.length
  distinct : (issued.map Prod.fst).Nodup
  once : retired.Nodup
  calls : ∀ handle outstanding, client.calls.get? handle = some outstanding →
    (handle, outstanding.serviceCall) ∈ issued
  holds : ∀ handle, client.Holds handle ↔ handle ∈ issued.map Prod.fst ∧ handle ∉ retired
  known : ∀ handle ∈ retired, handle ∈ issued.map Prod.fst
  registered : client.Registered

namespace Ledger

variable {client : Client σ} {turn : ClientTurn σ} {issued : List (CallHandle × ServiceCall)}
  {retired : List CallHandle} {call : OutstandingCall}

theorem start : Ledger (Client.empty : Client σ) [] [] := by
  refine ⟨rfl, by simp, List.nodup_nil, List.nodup_nil, ?_, ?_, by simp, ?_⟩
  · intro handle outstanding found
    cases found
  · intro handle
    simp [Client.not_holds_empty]
  · intro handle outstanding found
    cases found

theorem dropped (ledger : Ledger turn.before issued retired) (drops : turn.Drops) :
    Ledger turn.after (issued ++ turn.issued) (retired ++ turn.retired) := by
  have calls := drops.dropped.calls
  have held : ∀ handle, turn.after.Holds handle ↔
      turn.before.Holds handle ∧ handle ∉ turn.retired := by
    intro handle
    by_cases listed : handle ∈ turn.retired <;>
      simp [Client.Holds, Table.contains, calls, listed]
  rw [drops.issued, List.append_nil]
  refine ⟨drops.dropped.nextHandle ▸ ledger.nextHandle, ledger.below, ledger.distinct, ?_,
    fun handle outstanding found => ledger.calls handle outstanding (drops.get?_before found),
    ?_, ?_, drops.registered ledger.registered⟩
  · rw [List.nodup_append']
    refine ⟨ledger.once, drops.once, fun handle old new => ?_⟩
    exact ((ledger.holds handle).1 (drops.held handle new)).2 old
  · intro handle
    rw [held, ledger.holds, List.mem_append, not_or, and_assoc]
  · intro handle listed
    rcases List.mem_append.1 listed with old | new
    · exact ledger.known handle old
    · exact ((ledger.holds handle).1 (drops.held handle new)).1

theorem added (ledger : Ledger turn.before issued retired) (issues : turn.Issues call) :
    Ledger turn.after (issued ++ turn.issued) (retired ++ turn.retired) := by
  have fresh : ⟨turn.before.nextHandle⟩ ∉ issued.map Prod.fst := by
    intro listed
    rcases List.mem_map.1 listed with ⟨entry, listed, same⟩
    have below := ledger.below entry listed
    rw [same, ledger.nextHandle] at below
    exact Nat.lt_irrefl _ below
  rw [issues.issued, issues.retired, List.append_nil]
  refine ⟨?_, ?_, ?_, ledger.once, ?_, ?_, ?_, issues.registered ledger.registered⟩
  · rw [issues.nextHandle, ledger.nextHandle, List.length_append, List.length_singleton]
  · intro entry listed
    rw [List.length_append, List.length_singleton]
    rcases List.mem_append.1 listed with old | new
    · exact Nat.lt_succ_of_lt (ledger.below entry old)
    · rw [List.mem_singleton.1 new, ledger.nextHandle]
      exact Nat.lt_succ_self _
  · rw [List.map_append, List.map_singleton, ← List.concat_eq_append, List.nodup_concat]
    exact ⟨fresh, ledger.distinct⟩
  · intro handle outstanding found
    rw [issues.calls, Table.get?_insert] at found
    rw [List.mem_append, List.mem_singleton]
    split at found
    · rename_i same
      cases found
      exact Or.inr (by rw [same])
    · exact Or.inl (ledger.calls handle outstanding found)
  · intro handle
    have unretired : ⟨turn.before.nextHandle⟩ ∉ retired :=
      fun listed => fresh (ledger.known _ listed)
    rw [List.map_append, List.mem_append, List.map_singleton, List.mem_singleton]
    by_cases same : handle = ⟨turn.before.nextHandle⟩
    · simp [Client.Holds, Table.contains, issues.calls, same, unretired]
    · have before := ledger.holds handle
      simp only [Client.Holds, Table.contains, issues.calls, Table.get?_insert_of_ne same, same,
        or_false] at before ⊢
      exact before
  · intro handle listed
    rw [List.map_append, List.mem_append]
    exact Or.inl (ledger.known handle listed)

variable [RemoteService σ]

theorem turned (ledger : Ledger client issued retired) (command : ClientCommand σ) :
    Ledger (client.turn command).after (issued ++ (client.turn command).issued)
      (retired ++ (client.turn command).retired) := by
  rcases Client.turn_cases ledger.registered command with drops | ⟨call, issues⟩
  · exact ledger.dropped drops
  · exact ledger.added issues

/-- The handles that were issued and retired in a run, behind earlier ones. -/
theorem run (ledger : Ledger client issued retired) (commands : List (ClientCommand σ)) :
    Ledger (client.afterAll commands) (issued ++ (client.turns commands).flatMap ClientTurn.issued)
      (retired ++ (client.turns commands).flatMap ClientTurn.retired) := by
  induction commands generalizing client issued retired with
  | nil => simpa [Client.afterAll, Client.turns] using ledger
  | cons command rest ih =>
    simp only [Client.turns, List.flatMap_cons, ← List.append_assoc]
    exact ih (ledger.turned command)

end Ledger

variable [RemoteService σ]

namespace ClientTurn

variable {turn : ClientTurn σ}

omit [RemoteService σ] in
theorem Drops.get?_eq (drops : turn.Drops) (retired : turn.retired = []) (handle : CallHandle) :
    turn.after.calls.get? handle = turn.before.calls.get? handle := by
  simp [drops.dropped.calls, retired]

omit [RemoteService σ] in
/-- What a turn gives up was issued with the request that it cancels. -/
theorem Drops.cancels {issued : List (CallHandle × ServiceCall)} {retired : List CallHandle}
    (drops : turn.Drops) (ledger : Ledger turn.before issued retired) :
    List.Forall₂ (fun call handle => (handle, call) ∈ issued) turn.cancellations turn.givenUp := by
  have held : ∀ handle ∈ turn.givenUp, turn.before.Holds handle :=
    fun handle listed => drops.held handle (List.mem_append_right _ listed)
  rw [drops.cancelled]
  generalize turn.givenUp = handles at held
  induction handles with
  | nil => exact .nil
  | cons first rest ih =>
    rw [List.forall_mem_cons] at held
    rcases Table.contains_iff.1 held.1 with ⟨outstanding, found⟩
    have call : turn.before.serviceCall? first = some outstanding.serviceCall := by
      rw [Client.serviceCall?, found, Option.map_some]
    rw [List.filterMap_cons_some call]
    exact .cons (ledger.calls first outstanding found) (ih held.2)

end ClientTurn

namespace Client

variable {client : Client σ} {commands : List (ClientCommand σ)} {turn : ClientTurn σ}
  {earlier later : List (ClientTurn σ)}

/-- A turn of a run is the turn of the client that some first commands led to. -/
theorem exists_of_turns_eq (split : client.turns commands = earlier ++ turn :: later) :
    ∃ before command after, commands = before ++ command :: after ∧
      earlier = client.turns before ∧ turn = (client.afterAll before).turn command := by
  induction earlier generalizing client commands with
  | nil =>
    cases commands with
    | nil => cases split
    | cons command rest =>
      cases split
      exact ⟨[], command, rest, rfl, rfl, rfl⟩
  | cons first others ih =>
    cases commands with
    | nil => cases split
    | cons command rest =>
      rw [turns, List.cons_append, List.cons.injEq] at split
      rcases split with ⟨rfl, split⟩
      rcases ih split with ⟨before, last, after, rfl, rfl, rfl⟩
      exact ⟨command :: before, last, after, rfl, rfl, rfl⟩

theorem exists_of_mem_turns (listed : turn ∈ client.turns commands) :
    ∃ before command after, commands = before ++ command :: after ∧
      turn = (client.afterAll before).turn command := by
  rcases List.append_of_mem listed with ⟨earlier, later, split⟩
  rcases exists_of_turns_eq split with ⟨before, command, after, given, -, turned⟩
  exact ⟨before, command, after, given, turned⟩

/-- Only starts issue handles, one each. -/
theorem length_issued_le (client : Client σ) (commands : List (ClientCommand σ)) :
    ((client.turns commands).flatMap ClientTurn.issued).length ≤
      commands.countP ClientCommand.isStart := by
  induction commands generalizing client with
  | nil => exact Nat.le_refl 0
  | cons command rest ih =>
    have one : (client.turn command).issued.length ≤ if command.isStart then 1 else 0 := by
      cases command with
      | start request timeout now =>
        rcases client.turn_start request timeout now with ⟨drops, -⟩ | ⟨call, issues, -⟩
        · rw [drops.issued]
          exact Nat.zero_le _
        · rw [issues.issued]
          exact Nat.le_refl _
      | _ => exact Nat.le_refl 0
    rw [turns, List.flatMap_cons, List.length_append, List.countP_cons, Nat.add_comm]
    exact Nat.add_le_add (ih _) one

/-- In a run, what is given up was issued with the requests that are cancelled. -/
theorem cancels_turns {issued : List (CallHandle × ServiceCall)} {retired : List CallHandle}
    (ledger : Ledger client issued retired) (commands : List (ClientCommand σ)) :
    List.Forall₂
      (fun call handle =>
        (handle, call) ∈ issued ++ (client.turns commands).flatMap ClientTurn.issued)
      ((client.turns commands).flatMap ClientTurn.cancellations)
      ((client.turns commands).flatMap ClientTurn.givenUp) := by
  induction commands generalizing client issued retired with
  | nil => exact .nil
  | cons command rest ih =>
    simp only [turns, List.flatMap_cons, ← List.append_assoc]
    refine List.rel_append ?_ (ih (ledger.turned command))
    rcases turn_cases ledger.registered command with drops | ⟨call, issues⟩
    · refine (drops.cancels ledger).imp fun call handle listed => ?_
      simp only [List.append_assoc]
      exact List.mem_append_left _ listed
    · have none : (client.turn command).givenUp = [] :=
        (List.append_eq_nil_iff.1 issues.retired).2
      rw [issues.cancelled, none]
      exact .nil

/-- A poll that ends in an error other than that of a request that took too long leaves every
request as it is. -/
theorem poll_keeps (registered : client.Registered) {handle : CallHandle} {now : Duration}
    {failure : Failure RemoteError}
    (answered : (client.turn (.poll handle now)).answer = .polled (.error failure))
    (intime : ∀ service limit, failure ≠ .error (.timeout service limit)) (other : CallHandle) :
    (client.turn (.poll handle now)).after.calls.get? other = client.calls.get? other := by
  refine (turn_poll registered handle now).get?_eq ?_ other
  have given : (client.turn (.poll handle now)).command = .poll handle now := rfl
  simp only [ClientTurn.retired, ClientTurn.concluded, ClientTurn.givenUp, given, answered]
  cases failure with
  | crash cause => rfl
  | error cause =>
    cases cause with
    | timeout service limit => exact absurd rfl (intime service limit)
    | _ => rfl

/-- A turn that registers no service uses services in its exchanges. -/
theorem services_of_uses {exchanges : List Exchange}
    (uses : turn.before.Uses exchanges turn.after)
    (kept : ∀ name service, turn.command ≠ .register name service) (name : String) :
    turn.after.services.get? name = turn.serve name (turn.before.services.get? name) := by
  have made : turn.exchanges = exchanges := by
    rw [ClientTurn.exchanges_eq uses.journal, List.reverse_reverse]
  rw [uses.services, ← made, ClientTurn.serve]
  split
  · rename_i other service registers
    exact absurd registers (kept other service)
  · rfl

/-- A turn leaves of a service what its exchanges make of it. -/
theorem services_turn (client : Client σ) (command : ClientCommand σ) (name : String) :
    (client.turn command).after.services.get? name =
      (client.turn command).serve name (client.services.get? name) := by
  cases command with
  | register other service =>
    have made : (client.turn (.register other service)).exchanges = [] := by
      rw [ClientTurn.exchanges]
      exact List.drop_of_length_le (Nat.le_of_eq List.length_reverse)
    have nothing : Exchange.replay (σ := σ) [] name = id := rfl
    rw [ClientTurn.serve, made, nothing, Option.map_id, id]
    exact Table.get?_insert _ _ _ _
  | ensureSession service host =>
    rcases client.uses_ensureSession service host with ⟨exchanges, uses⟩
    exact services_of_uses uses (by simp [turn]) name
  | resetSessions => exact services_of_uses (.of_eq rfl rfl) (by simp [turn]) name
  | start request timeout now =>
    rcases client.uses_start request timeout now with ⟨exchanges, uses⟩
    exact services_of_uses uses (by simp [turn]) name
  | poll handle now =>
    rcases client.uses_poll handle now with ⟨exchanges, uses⟩
    exact services_of_uses uses (by simp [turn]) name
  | cancel handle =>
    rcases client.uses_cancel handle with ⟨exchanges, uses⟩
    exact services_of_uses uses (by simp [turn]) name
  | cancelAll =>
    rcases client.uses_foldl_cancel client.calls.keys with ⟨exchanges, uses⟩
    exact services_of_uses uses (by simp [turn]) name

/-- A run leaves of a service what the exchanges of its turns make of it. -/
theorem services_afterAll (client : Client σ) (commands : List (ClientCommand σ)) (name : String) :
    (client.afterAll commands).services.get? name =
      (client.turns commands).foldl (fun service turn => turn.serve name service)
        (client.services.get? name) := by
  induction commands generalizing client with
  | nil => rfl
  | cons command rest ih =>
    rw [turns, List.foldl_cons, ← services_turn]
    exact ih (client.turn command).after

omit [RemoteService σ] in
/-- What is retired in a run is over or given up. -/
theorem retired_perm (turns : List (ClientTurn σ)) :
    (turns.flatMap ClientTurn.concluded ++ turns.flatMap ClientTurn.givenUp).Perm
      (turns.flatMap ClientTurn.retired) :=
  List.flatMap_append_perm turns ClientTurn.concluded ClientTurn.givenUp

/-- In every run with fewer than 2^64 starts, a start returns a new handle unless its service is
unknown or refuses. A handle is in use from then until it is retired, which happens once: a poll
says that the request is over, or the request is given up because it took too long or was cancelled.
The cancellations are those of the requests that are given up, one for each, and services are left
as these and the other exchanges make them, from when they were registered on. Any other error of a
poll leaves everything in use, and to poll or cancel a retired handle changes nothing and uses no
service. -/
theorem handles_live_once (commands : List (ClientCommand σ))
    (few : commands.countP ClientCommand.isStart < UInt64.size) :
    let client := (Client.empty : Client σ).afterAll commands
    let turns := (Client.empty : Client σ).turns commands
    let issued := turns.flatMap ClientTurn.issued
    let retired := turns.flatMap ClientTurn.concluded ++ turns.flatMap ClientTurn.givenUp
    (issued.map Prod.fst).Nodup ∧
      (∀ turn ∈ turns, ∀ request timeout now, turn.command = .start request timeout now →
        (∃ handle call, turn.before.answer? request = some (.ok call) ∧
          turn.answer = .started (.ok handle) ∧
          turn.issued = [(handle, request.service, call)]) ∨
        ∃ cause, (∀ call, turn.before.answer? request ≠ some (.ok call)) ∧
          turn.answer = .started (.error (.error cause)) ∧ turn.issued = []) ∧
      (∀ handle, client.Holds handle ↔ handle ∈ issued.map Prod.fst ∧ handle ∉ retired) ∧
      retired.Nodup ∧
      (∀ handle ∈ retired, handle ∈ issued.map Prod.fst) ∧
      List.Forall₂ (fun call handle => (handle, call) ∈ issued)
        (turns.flatMap ClientTurn.cancellations) (turns.flatMap ClientTurn.givenUp) ∧
      (∀ name, client.services.get? name =
        turns.foldl (fun service turn => turn.serve name service) none) ∧
      (∀ turn ∈ turns, ∀ handle now failure, turn.command = .poll handle now →
        turn.answer = .polled (.error failure) →
        (∀ service limit, failure ≠ .error (.timeout service limit)) →
        ∀ other, turn.after.calls.get? other = turn.before.calls.get? other) ∧
      ∀ earlier turn later, turns = earlier ++ turn :: later →
        ∀ handle ∈ earlier.flatMap ClientTurn.retired,
          (turn.command = .cancel handle ∨ ∃ now, turn.command = .poll handle now) →
          turn.after = turn.before := by
  have atStart : Ledger (Client.empty : Client σ) [] [] := .start
  have ledger := atStart.run commands
  have retired := retired_perm ((Client.empty : Client σ).turns commands)
  refine ⟨ledger.distinct, ?_, ?_, retired.nodup_iff.2 ledger.once, ?_,
    cancels_turns atStart commands, services_afterAll _ commands, ?_, ?_⟩
  · intro turn listed request timeout now given
    rcases exists_of_mem_turns listed with ⟨before, command, after, rfl, rfl⟩
    obtain rfl : command = .start request timeout now := given
    rcases turn_start ((Client.empty : Client σ).afterAll before) request timeout now with
      ⟨drops, failure, answered, refused, crashes⟩ | ⟨call, issues, accepted, answered⟩
    · refine Or.inr ?_
      cases failure with
      | error cause => exact ⟨cause, refused cause rfl, answered, drops.issued⟩
      | crash cause =>
        -- Every handle before this one took a start, so that there is a number left.
        have full := crashes cause rfl
        have used := (atStart.run before).nextHandle
        have starts := length_issued_le (Client.empty : Client σ) before
        simp only [List.countP_append, List.countP_cons, ClientCommand.isStart,
          ↓reduceIte, List.nil_append] at few used
        omega
    · exact Or.inl ⟨_, call, accepted, answered, issues.issued⟩
  · intro handle
    rw [retired.mem_iff]
    exact ledger.holds handle
  · intro handle listed
    exact ledger.known handle (retired.mem_iff.1 listed)
  · intro turn listed handle now failure given answered intime
    rcases exists_of_mem_turns listed with ⟨before, command, after, rfl, rfl⟩
    obtain rfl : command = .poll handle now := given
    exact poll_keeps (atStart.run before).registered answered intime
  · intro earlier turn later split handle listed given
    rcases exists_of_turns_eq split with ⟨before, command, after, rfl, rfl, rfl⟩
    have unheld : ¬ ((Client.empty : Client σ).afterAll before).Holds handle := by
      intro held
      exact (((atStart.run before).holds handle).1 held).2 listed
    rcases given with given | ⟨now, given⟩
    · obtain rfl : command = .cancel handle := given
      exact cancel_eq_self unheld
    · obtain rfl : command = .poll handle now := given
      simp only [turn, obey, poll_eq_self unheld]

/-- A request to move an arm. -/
def armRequest : RemoteRequest := ⟨.grpc, "arm", "", "move", .null⟩

/-- Of three requests one succeeds, one takes too long and one is cancelled. The arm could be told to
cancel three times. -/
def armCommands : List (ClientCommand ScriptedService) :=
  [.register "arm" (.ofScript { Script.empty with
      polls := [.ok (.pending none), .error "offline", .ok (.succeeded (.int 1))]
      cancels := [some "busy", none, some "spare"] }),
    .start armRequest none .zero, .start armRequest (some (.ofMilliseconds 500)) .zero,
    .start armRequest none .zero, .poll ⟨0⟩ .zero, .poll ⟨0⟩ .zero, .poll ⟨0⟩ .zero,
    .poll ⟨1⟩ (.ofMilliseconds 500), .cancel ⟨2⟩, .cancel ⟨2⟩, .poll ⟨0⟩ .zero, .cancelAll]

set_option maxRecDepth 100000 in
theorem arm_handles_live_once :
    let turns := (Client.empty : Client ScriptedService).turns armCommands
    armCommands.countP ClientCommand.isStart < UInt64.size ∧
      turns.flatMap ClientTurn.issued =
        [(⟨0⟩, "arm", 1), (⟨1⟩, "arm", 2), (⟨2⟩, "arm", 3)] ∧
      turns.flatMap ClientTurn.concluded = [⟨0⟩] ∧
      turns.flatMap ClientTurn.givenUp = [⟨1⟩, ⟨2⟩] ∧
      turns.flatMap ClientTurn.cancellations = [("arm", 2), ("arm", 3)] ∧
      (((Client.empty : Client ScriptedService).afterAll armCommands).services.get? "arm").map
        (·.script.cancels) = some [some "spare"] ∧
      ∀ handle, ¬ ((Client.empty : Client ScriptedService).afterAll armCommands).Holds handle := by
  have few : armCommands.countP ClientCommand.isStart < UInt64.size := by decide
  have issued : ((Client.empty : Client ScriptedService).turns armCommands).flatMap
      ClientTurn.issued = [(⟨0⟩, "arm", 1), (⟨1⟩, "arm", 2), (⟨2⟩, "arm", 3)] := by cbv
  have concluded : ((Client.empty : Client ScriptedService).turns armCommands).flatMap
      ClientTurn.concluded = [⟨0⟩] := by cbv
  have givenUp : ((Client.empty : Client ScriptedService).turns armCommands).flatMap
      ClientTurn.givenUp = [⟨1⟩, ⟨2⟩] := by cbv
  have replayed : (((Client.empty : Client ScriptedService).turns armCommands).foldl
      (fun service turn => turn.serve "arm" service) none).map (·.script.cancels) =
        some [some "spare"] := by cbv
  obtain ⟨-, -, holds, -, -, -, services, -⟩ := handles_live_once armCommands few
  refine ⟨few, issued, concluded, givenUp, by cbv, ?_, fun handle => ?_⟩
  · rw [services "arm", replayed]
  rw [holds handle, issued, concluded, givenUp]
  rintro ⟨listed, unretired⟩
  exact unretired listed

end Client

end BehaviorTree
