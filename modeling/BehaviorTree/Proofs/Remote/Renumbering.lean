import BehaviorTree.Proofs.Remote.Calls
import Mathlib.Logic.Function.Basic

/-!
# Clients with other handles

A client that gave handles out before goes on with higher numbers than a new one. Apart from the
handles, the two use services in the same way, until the first one has no number left.
-/

namespace BehaviorTree

variable {σ : Type}

/-- The handle with a number that is higher by an offset. -/
def CallHandle.later (handle : CallHandle) (offset : UInt64) : CallHandle :=
  ⟨handle.number + offset⟩

theorem CallHandle.later_injective (offset : UInt64) :
    Function.Injective fun handle : CallHandle => handle.later offset := by
  rintro ⟨first⟩ ⟨second⟩ same
  simp only [later, CallHandle.mk.injEq, UInt64.add_left_inj] at same
  rw [same]

namespace Client

/-- A client has used services as another one did, since the time when its journal was `past` and
its next handle was number `offset`. -/
structure Mirrors (offset : UInt64) (past : List Exchange) (older newer : Client σ) : Prop where
  services : older.services = newer.services
  sessions : older.sessions = newer.sessions
  calls : Table.Rekeys (CallHandle.later · offset) older.calls newer.calls
  next : older.nextHandle = newer.nextHandle + offset
  /-- The numbers have not started over. -/
  ahead : newer.nextHandle.toNat ≤ older.nextHandle.toNat
  journal : older.journal = newer.journal ++ past

variable {offset : UInt64} {past : List Exchange} {older newer : Client σ} {handle : CallHandle}

theorem mirrors_new {client : Client σ} (idle : ∀ handle, ¬ client.Holds handle) :
    Mirrors client.nextHandle client.journal client
      ⟨client.services, client.sessions, .empty, 0, []⟩ := by
  have none : client.calls.entries = [] := List.length_eq_zero_iff.1 (outstanding_eq_zero idle)
  refine ⟨rfl, rfl, none, ?_, Nat.zero_le _, rfl⟩
  simp

namespace Mirrors

theorem get?_eq (mirrors : Mirrors offset past older newer) (handle : CallHandle) :
    older.calls.get? (handle.later offset) = newer.calls.get? handle :=
  mirrors.calls.get?_eq (CallHandle.later_injective offset) handle

theorem outstanding_eq (mirrors : Mirrors offset past older newer) :
    older.outstanding = newer.outstanding := by
  simp only [outstanding, Table.size, show older.calls.entries = _ from mirrors.calls,
    List.length_map]

theorem note (mirrors : Mirrors offset past older newer) (name : String) (service : σ)
    (exchange : Exchange) :
    Mirrors offset past (older.note name service exchange) (newer.note name service exchange) := by
  refine ⟨?_, mirrors.sessions, mirrors.calls, mirrors.next, mirrors.ahead, ?_⟩
  · simp only [Client.note, mirrors.services]
  · simp only [Client.note, mirrors.journal, List.cons_append]

theorem register (mirrors : Mirrors offset past older newer) (name : String) (service : σ) :
    Mirrors offset past (older.register name service) (newer.register name service) := by
  refine ⟨?_, mirrors.sessions, mirrors.calls, mirrors.next, mirrors.ahead, mirrors.journal⟩
  simp only [Client.register, mirrors.services]

theorem resetSessions (mirrors : Mirrors offset past older newer) :
    Mirrors offset past older.resetSessions newer.resetSessions :=
  ⟨mirrors.services, rfl, mirrors.calls, mirrors.next, mirrors.ahead, mirrors.journal⟩

theorem retire (mirrors : Mirrors offset past older newer) (handle : CallHandle) :
    Mirrors offset past (older.retire (handle.later offset)) (newer.retire handle) :=
  ⟨mirrors.services, mirrors.sessions,
    mirrors.calls.erase (CallHandle.later_injective offset) handle, mirrors.next, mirrors.ahead,
    mirrors.journal⟩

theorem issue (mirrors : Mirrors offset past older newer) (call : OutstandingCall) :
    (older.issue call).1 = .error (.crash .handleOverflow) ∨
      (older.issue call).1 = (newer.issue call).1.map (CallHandle.later · offset) ∧
      Mirrors offset past (older.issue call).2 (newer.issue call).2 := by
  unfold Client.issue
  split
  · rename_i fits
    have ahead := mirrors.ahead
    have room : newer.nextHandle.toNat + 1 < UInt64.size := by omega
    have next : (newer.nextHandle + 1).toNat = newer.nextHandle.toNat + 1 := by
      rw [UInt64.toNat_add]
      exact Nat.mod_eq_of_lt room
    have olderNext : (older.nextHandle + 1).toNat = older.nextHandle.toNat + 1 := by
      rw [UInt64.toNat_add]
      exact Nat.mod_eq_of_lt fits
    rw [if_pos room]
    refine Or.inr ⟨by rw [mirrors.next]; rfl, mirrors.services, mirrors.sessions, ?_, ?_, ?_,
      mirrors.journal⟩
    · have inserted := mirrors.calls.insert (CallHandle.later_injective offset)
        ⟨newer.nextHandle⟩ call
      simpa only [CallHandle.later, ← mirrors.next] using inserted
    · simp only [mirrors.next]
      ac_rfl
    · simp only [next, olderNext]
      omega
  · exact Or.inl rfl

variable [RemoteService σ]

theorem ensureSession (mirrors : Mirrors offset past older newer) (name host : String) :
    (older.ensureSession name host).1 = (newer.ensureSession name host).1 ∧
      Mirrors offset past (older.ensureSession name host).2 (newer.ensureSession name host).2 := by
  unfold Client.ensureSession
  rw [mirrors.sessions, mirrors.services]
  split
  · exact ⟨rfl, mirrors⟩
  · split
    · exact ⟨rfl, mirrors⟩
    · split
      · rename_i service _
        have noted := mirrors.note name service (.opened name host true)
        exact ⟨rfl, noted.services, by simp only [noted.sessions], noted.calls, noted.next,
          noted.ahead, noted.journal⟩
      · exact ⟨rfl, mirrors.note _ _ _⟩

theorem start (mirrors : Mirrors offset past older newer) (request : RemoteRequest)
    (timeout : Option Duration) (now : Duration) :
    (older.start request timeout now).1 = .error (.crash .handleOverflow) ∨
      (older.start request timeout now).1 =
        (newer.start request timeout now).1.map (CallHandle.later · offset) ∧
      Mirrors offset past (older.start request timeout now).2
        (newer.start request timeout now).2 := by
  unfold Client.start
  rw [mirrors.services]
  split
  · exact Or.inr ⟨rfl, mirrors⟩
  · split
    · exact (mirrors.note _ _ _).issue _
    · exact Or.inr ⟨rfl, mirrors.note _ _ _⟩

theorem cancel (mirrors : Mirrors offset past older newer) (handle : CallHandle) :
    Mirrors offset past (older.cancel (handle.later offset)) (newer.cancel handle) := by
  unfold Client.cancel
  rw [mirrors.get?_eq]
  split
  · exact mirrors
  · dsimp only
    have retired := mirrors.retire handle
    rw [retired.services]
    split
    · exact retired
    · exact retired.note _ _ _

theorem foldl_cancel (mirrors : Mirrors offset past older newer) (handles : List CallHandle) :
    Mirrors offset past ((handles.map (CallHandle.later · offset)).foldl Client.cancel older)
      (handles.foldl Client.cancel newer) := by
  induction handles generalizing older newer with
  | nil => exact mirrors
  | cons handle rest ih => exact ih (mirrors.cancel handle)

theorem cancelAll (mirrors : Mirrors offset past older newer) :
    Mirrors offset past older.cancelAll newer.cancelAll := by
  unfold Client.cancelAll
  rw [mirrors.calls.keys_eq]
  exact mirrors.foldl_cancel _

theorem settle (mirrors : Mirrors offset past older newer) (handle : CallHandle) (service : String)
    (deadline : Option (Duration × Duration)) (now : Duration) (status : CallStatus) :
    (older.settle (handle.later offset) service deadline now status).1 =
        (newer.settle handle service deadline now status).1 ∧
      Mirrors offset past (older.settle (handle.later offset) service deadline now status).2
        (newer.settle handle service deadline now status).2 := by
  unfold Client.settle
  split
  · split
    · exact ⟨rfl, mirrors.cancel handle⟩
    · exact ⟨rfl, mirrors⟩
  · exact ⟨rfl, mirrors⟩
  · exact ⟨rfl, mirrors.retire handle⟩

/-- The reply to a poll of a request that is known does not tell its handle. -/
theorem poll (mirrors : Mirrors offset past older newer) (holds : newer.Holds handle)
    (now : Duration) :
    (older.poll (handle.later offset) now).1 = (newer.poll handle now).1 ∧
      Mirrors offset past (older.poll (handle.later offset) now).2 (newer.poll handle now).2 := by
  rcases Table.contains_iff.1 holds with ⟨outstanding, found⟩
  unfold Client.poll
  rw [mirrors.get?_eq, found]
  dsimp only
  split
  · exact ⟨rfl, mirrors⟩
  · rw [mirrors.services]
    split
    · exact ⟨rfl, mirrors⟩
    · split
      · exact ⟨rfl, mirrors.note _ _ _⟩
      · exact (mirrors.note _ _ _).settle _ _ _ _ _

end Mirrors

/-- Those who remember requests remember such as are in use, each its own. -/
structure Backs {ι : Type} (client : Client σ) (held : ι → Option CallHandle) : Prop where
  numbered : client.Numbered
  holds : ∀ holder handle, held holder = some handle → client.Holds handle
  apart : ∀ holder other handle, held holder = some handle → held other = some handle →
    holder = other

namespace Backs

variable {ι : Type} {client after : Client σ} {held kept : ι → Option CallHandle} {holder : ι}

theorem forget (backs : client.Backs held)
    (fewer : ∀ holder handle, kept holder = some handle → held holder = some handle) :
    client.Backs kept :=
  ⟨backs.numbered, fun holder handle remembered => backs.holds _ _ (fewer holder handle remembered),
    fun _ _ _ first second => backs.apart _ _ _ (fewer _ _ first) (fewer _ _ second)⟩

theorem forgetAt [DecidableEq ι] (backs : client.Backs held) (holder : ι) :
    client.Backs (Function.update held holder none) := by
  refine backs.forget fun other handle kept => ?_
  rw [Function.update_apply] at kept
  split at kept
  · cases kept
  · exact kept

theorem of_none (numbered : client.Numbered) (none : ∀ holder, held holder = none) :
    client.Backs held := by
  refine ⟨numbered, fun holder handle held => ?_, fun holder _ handle held _ => ?_⟩ <;>
    rw [none] at held <;> cases held

theorem unchanged (backs : client.Backs held) (retires : client.Retires (fun _ => False) after) :
    after.Backs held := by
  refine ⟨retires.numbered backs.numbered, fun holder handle remembered => ?_, backs.apart⟩
  exact (retires.holds handle).2 ⟨backs.holds _ _ remembered, id⟩

/-- A request that is over is forgotten. -/
theorem retired [DecidableEq ι] (backs : client.Backs held) (remembered : held holder = some handle)
    (retires : client.Retires (· = handle) after) :
    after.Backs (Function.update held holder none) := by
  have fewer : ∀ other call, Function.update held holder none other = some call →
      other ≠ holder ∧ held other = some call := by
    intro other call kept
    rw [Function.update_apply] at kept
    split at kept
    · cases kept
    · rename_i different
      exact ⟨different, kept⟩
  refine ⟨retires.numbered backs.numbered, ?_, ?_⟩
  · intro other call kept
    rcases fewer other call kept with ⟨different, before⟩
    refine (retires.holds call).2 ⟨backs.holds _ _ before, ?_⟩
    rintro rfl
    exact different (backs.apart _ _ _ before remembered)
  · intro first second call one other
    exact backs.apart _ _ _ (fewer _ _ one).2 (fewer _ _ other).2

/-- A request that is new is remembered by one. -/
theorem issued [DecidableEq ι] (backs : client.Backs held) (issues : client.Issues handle after) :
    after.Backs (Function.update held holder (some handle)) := by
  have old : ∀ other, held other ≠ some handle := fun other remembered =>
    issues.fresh backs.numbered (backs.holds _ _ remembered)
  refine ⟨issues.numbered backs.numbered, ?_, ?_⟩
  · intro other call kept
    rw [Function.update_apply] at kept
    rw [issues.holds]
    split at kept
    · cases kept
      exact Or.inl rfl
    · exact Or.inr (backs.holds _ _ kept)
  · intro first second call one other
    rw [Function.update_apply] at one other
    split at one <;> split at other
    · rename_i here there
      rw [here, there]
    · cases one
      exact absurd other (old _)
    · cases other
      exact absurd one (old _)
    · exact backs.apart _ _ _ one other

end Backs

/-- A poll that crashes leaves everything as it is. -/
theorem poll_crash [RemoteService σ] {client : Client σ} {now : Duration} {cause : Crash}
    (crashed : (client.poll handle now).1 = .error (.crash cause)) :
    (client.poll handle now).2 = client := by
  have settles : ∀ (client : Client σ) (service : String) (deadline : Option (Duration × Duration))
      (status : CallStatus),
      (client.settle handle service deadline now status).1 ≠ .error (.crash cause) := by
    intro client service deadline status
    unfold settle
    split
    · split <;> exact fun impossible => by cases impossible
    · exact fun impossible => by cases impossible
    · exact fun impossible => by cases impossible
  revert crashed
  unfold poll
  split
  · exact fun impossible => by cases impossible
  · split
    · exact fun _ => rfl
    · split
      · exact fun impossible => by cases impossible
      · dsimp only
        split
        · exact fun impossible => by cases impossible
        · exact fun impossible => absurd impossible (settles _ _ _ _)

end Client

end BehaviorTree
