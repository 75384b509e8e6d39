import BehaviorTree.Proofs.Remote.Calls

/-!
# Clients that are used

While a tick lasts a client opens sessions, starts requests, polls them and gives them up. Handles
are numbered in the order in which they are issued, whatever is done. So a handle that is older than
a client and out of use stays out of use.
-/

namespace BehaviorTree

variable {σ : Type}

namespace Client

/-- A client afterwards has issued what it had issued before, and old handles do not come back. Those
that are still in use are for the same requests. -/
structure Ages (before after : Client σ) : Prop where
  next : before.nextHandle.toNat ≤ after.nextHandle.toNat
  old : ∀ handle outstanding, after.calls.get? handle = some outstanding →
    handle.number.toNat < before.nextHandle.toNat → before.calls.get? handle = some outstanding

variable {before middle after client : Client σ} {handle : CallHandle}

theorem Ages.trans (first : before.Ages middle) (second : middle.Ages after) :
    before.Ages after := by
  refine ⟨Nat.le_trans first.next second.next, fun handle outstanding found old => ?_⟩
  have earlier := second.old handle outstanding found (Nat.lt_of_lt_of_le old first.next)
  exact first.old handle outstanding earlier old

theorem Ages.of_calls (next : after.nextHandle = before.nextHandle)
    (calls : after.calls = before.calls) : before.Ages after :=
  ⟨Nat.le_of_eq (by rw [next]), fun _ _ found _ => calls ▸ found⟩

theorem Ages.refl (client : Client σ) : client.Ages client := .of_calls rfl rfl

theorem ages_note (client : Client σ) (name : String) (service : σ) (exchange : Exchange) :
    client.Ages (client.note name service exchange) := .of_calls rfl rfl

theorem ages_retire (client : Client σ) (handle : CallHandle) :
    client.Ages (client.retire handle) := by
  refine ⟨Nat.le_refl _, fun other outstanding found _ => ?_⟩
  rw [retire, Table.get?_erase] at found
  split at found
  · cases found
  · exact found

theorem ages_issue (client : Client σ) (call : OutstandingCall) :
    client.Ages (client.issue call).2 := by
  unfold issue
  split
  next fits =>
    have next : (client.nextHandle + 1).toNat = client.nextHandle.toNat + 1 := by
      rw [UInt64.toNat_add]
      exact Nat.mod_eq_of_lt fits
    refine ⟨by simp only [next]; exact Nat.le_succ _, ?_⟩
    intro handle outstanding found old
    have different : handle ≠ ⟨client.nextHandle⟩ := by
      rintro rfl
      exact Nat.lt_irrefl _ old
    rwa [Table.get?_insert_of_ne different] at found
  next => exact .refl client

variable [RemoteService σ]

theorem ages_ensureSession (client : Client σ) (name host : String) :
    client.Ages (client.ensureSession name host).2 := by
  unfold ensureSession
  split
  · exact .refl client
  · split
    · exact .refl client
    · split <;> exact .of_calls rfl rfl

theorem ages_start (client : Client σ) (request : RemoteRequest) (timeout : Option Duration)
    (now : Duration) : client.Ages (client.start request timeout now).2 := by
  unfold start
  split
  · exact .refl client
  · split
    · exact (ages_note client _ _ _).trans (ages_issue _ _)
    · exact ages_note client _ _ _

theorem ages_cancel (client : Client σ) (handle : CallHandle) :
    client.Ages (client.cancel handle) := by
  unfold cancel
  split
  · exact .refl client
  · dsimp only
    split
    · exact ages_retire client handle
    · exact (ages_retire client handle).trans (ages_note _ _ _ _)

theorem ages_settle (client : Client σ) (handle : CallHandle) (service : String)
    (deadline : Option (Duration × Duration)) (now : Duration) (status : CallStatus) :
    client.Ages (client.settle handle service deadline now status).2 := by
  unfold settle
  split
  · split
    · exact ages_cancel client handle
    · exact .refl client
  · exact .refl client
  · exact ages_retire client handle

theorem ages_poll (client : Client σ) (handle : CallHandle) (now : Duration) :
    client.Ages (client.poll handle now).2 := by
  unfold poll
  split
  · exact .refl client
  · split
    · exact .refl client
    · split
      · exact .refl client
      · dsimp only
        split
        · exact ages_note client _ _ _
        · exact (ages_note client _ _ _).trans (ages_settle _ _ _ _ _ _)

/-- What becomes of a client while a tick lasts. -/
inductive Used (before : Client σ) : Client σ → Prop where
  | unused : Used before before
  | session {client : Client σ} (used : Used before client) (name host : String) :
      Used before (client.ensureSession name host).2
  | started {client : Client σ} (used : Used before client) (request : RemoteRequest)
      (timeout : Option Duration) (now : Duration) :
      Used before (client.start request timeout now).2
  | polled {client : Client σ} (used : Used before client) (handle : CallHandle)
      (now : Duration) : Used before (client.poll handle now).2
  | cancelled {client : Client σ} (used : Used before client) (handle : CallHandle) :
      Used before (client.cancel handle)

theorem Used.trans (first : before.Used middle) (second : middle.Used after) :
    before.Used after := by
  induction second with
  | unused => exact first
  | session _ name host ih => exact ih.session name host
  | started _ request timeout now ih => exact ih.started request timeout now
  | polled _ handle now ih => exact ih.polled handle now
  | cancelled _ handle ih => exact ih.cancelled handle

theorem Used.of_eq (same : after = before) : before.Used after := same ▸ .unused

theorem used_foldl_cancel (client : Client σ) (handles : List CallHandle) :
    client.Used (handles.foldl cancel client) := by
  induction handles generalizing client with
  | nil => exact .unused
  | cons first rest ih => exact (Used.unused.cancelled first).trans (ih (client.cancel first))

/-- A client that is used issues every handle only once. -/
theorem Used.ages (used : before.Used after) : before.Ages after := by
  induction used with
  | unused => exact .refl before
  | session _ name host ih => exact ih.trans (ages_ensureSession _ name host)
  | started _ request timeout now ih => exact ih.trans (ages_start _ request timeout now)
  | polled _ handle now ih => exact ih.trans (ages_poll _ handle now)
  | cancelled _ handle ih => exact ih.trans (ages_cancel _ handle)

/-- A request that is given up stays so. -/
theorem Used.not_holds (used : before.Used after) (unheld : ¬ before.Holds handle)
    (old : handle.number.toNat < before.nextHandle.toNat) : ¬ after.Holds handle := by
  intro held
  rcases Table.contains_iff.1 held with ⟨outstanding, found⟩
  exact unheld (Table.contains_iff.2 ⟨outstanding, used.ages.old handle outstanding found old⟩)

end Client

end BehaviorTree
