import BehaviorTree.Proofs.Table
import BehaviorTree.Remote.Client

/-!
# Requests of a client

Every operation of a client either retires handles or issues one that was never used before.
Sessions, journals and the states of services do not matter for that. A poll retires its handle
exactly if its reply says that the request is over.
-/

namespace BehaviorTree

variable {σ : Type}

namespace Client

def Holds (client : Client σ) (handle : CallHandle) : Prop :=
  client.calls.contains handle = true

/-- Every handle that is in use has a lower number than the next one. -/
def Numbered (client : Client σ) : Prop :=
  ∀ handle, client.Holds handle → handle.number.toNat < client.nextHandle.toNat

/-- Some handles are given up, and no others change. -/
structure Retires (before : Client σ) (ended : CallHandle → Prop) (after : Client σ) : Prop where
  holds : ∀ handle, after.Holds handle ↔ before.Holds handle ∧ ¬ ended handle
  numbered : before.Numbered → after.Numbered

/-- A handle comes into use, and no others change. -/
structure Issues (before : Client σ) (handle : CallHandle) (after : Client σ) : Prop where
  fresh : before.Numbered → ¬ before.Holds handle
  holds : ∀ other, after.Holds other ↔ other = handle ∨ before.Holds other
  numbered : before.Numbered → after.Numbered

variable {before middle after client : Client σ} {handle : CallHandle}

theorem not_holds_empty : ¬ (Client.empty : Client σ).Holds handle := by
  simp [Holds, empty, Table.contains]

/-- A client without a handle that is in use waits for no request. -/
theorem outstanding_eq_zero (unheld : ∀ handle, ¬ client.Holds handle) :
    client.outstanding = 0 := by
  have none : client.calls.entries = [] := by
    rw [List.eq_nil_iff_forall_not_mem]
    rintro ⟨handle, call⟩ listed
    exact unheld handle (Table.contains_iff.2 ⟨call, Table.mem_entries_iff.1 listed⟩)
  simp [outstanding, Table.size, none]

/-- Handles depend on the requests and the next number only. -/
theorem Retires.of_calls (calls : after.calls = before.calls)
    (next : after.nextHandle = before.nextHandle) :
    before.Retires (fun _ => False) after := by
  constructor
  · simp [Holds, calls]
  · intro numbered
    simpa [Numbered, Holds, calls, next] using numbered

theorem Retires.refl (client : Client σ) : client.Retires (fun _ => False) client :=
  .of_calls rfl rfl

theorem Retires.trans {first second : CallHandle → Prop} (left : before.Retires first middle)
    (right : middle.Retires second after) :
    before.Retires (fun handle => first handle ∨ second handle) after := by
  refine ⟨?_, fun numbered => right.numbered (left.numbered numbered)⟩
  intro handle
  rw [right.holds, left.holds]
  tauto

theorem Retires.congr {ended other : CallHandle → Prop} (retires : before.Retires ended after)
    (same : ∀ handle, before.Holds handle → (ended handle ↔ other handle)) :
    before.Retires other after := by
  refine ⟨?_, retires.numbered⟩
  intro handle
  rw [retires.holds]
  constructor
  · rintro ⟨held, kept⟩
    exact ⟨held, fun gone => kept ((same handle held).2 gone)⟩
  · rintro ⟨held, kept⟩
    exact ⟨held, fun gone => kept ((same handle held).1 gone)⟩

theorem Retires.note {ended : CallHandle → Prop} (retires : before.Retires ended after)
    (name : String) (service : σ) (exchange : Exchange) :
    before.Retires ended (after.note name service exchange) :=
  ⟨retires.holds, retires.numbered⟩

theorem retires_retire : client.Retires (· = handle) (client.retire handle) := by
  have holds : ∀ other, (client.retire handle).Holds other ↔
      client.Holds other ∧ ¬ other = handle := by
    intro other
    by_cases same : other = handle
    · simp [Holds, retire, Table.contains, same]
    · simp [Holds, retire, Table.contains, Table.get?_erase_of_ne same, same]
  refine ⟨holds, ?_⟩
  intro numbered other held
  exact numbered other ((holds other).1 held).1

section Operations

variable [RemoteService σ]

theorem retires_ensureSession (client : Client σ) (name host : String) :
    client.Retires (fun _ => False) (client.ensureSession name host).2 := by
  unfold ensureSession
  split
  · exact .refl client
  · split
    · exact .refl client
    · split <;> exact .of_calls rfl rfl

theorem retires_cancel (client : Client σ) (handle : CallHandle) :
    client.Retires (· = handle) (client.cancel handle) := by
  unfold cancel
  split
  · rename_i absent
    apply (Retires.refl client).congr
    intro other held
    rw [Holds, Table.contains_iff] at held
    rcases held with ⟨call, found⟩
    refine ⟨False.elim, ?_⟩
    rintro rfl
    rw [absent] at found
    cases found
  · have retired : client.Retires (· = handle) (client.retire handle) := retires_retire
    simp only
    split
    · exact retired
    · exact retired.note _ _ _

theorem retires_foldl_cancel (handles : List CallHandle) :
    client.Retires (· ∈ handles) (handles.foldl cancel client) := by
  induction handles generalizing client with
  | nil =>
    apply (Retires.refl client).congr
    simp
  | cons first rest ih =>
    apply ((retires_cancel client first).trans ih).congr
    simp

theorem not_holds_cancelAll : ¬ client.cancelAll.Holds handle := by
  intro held
  rw [cancelAll, (retires_foldl_cancel client.calls.keys).holds] at held
  rcases held with ⟨held, kept⟩
  rw [Holds, Table.contains_iff] at held
  exact kept (Table.mem_keys_iff.2 held)

theorem outstanding_cancelAll (client : Client σ) : client.cancelAll.outstanding = 0 :=
  outstanding_eq_zero fun _ => not_holds_cancelAll

theorem numbered_cancelAll (numbered : client.Numbered) : client.cancelAll.Numbered :=
  (retires_foldl_cancel client.calls.keys).numbered numbered

end Operations

/-- What is known after a request is made: it has a new handle, or nothing is in use for it. Only
the lack of numbers crashes the client. -/
def Started (client : Client σ) : Except (Failure RemoteError) CallHandle × Client σ → Prop
  | (.ok handle, after) => client.Issues handle after
  | (.error (.error _), after) => client.Retires (fun _ => False) after
  | (.error (.crash cause), _) => cause = .handleOverflow

theorem started_issue (client : Client σ) (call : OutstandingCall) :
    client.Started (client.issue call) := by
  unfold issue
  split
  next fits =>
    refine ⟨?_, ?_, ?_⟩
    · intro numbered held
      exact Nat.lt_irrefl _ (numbered _ held)
    · intro other
      by_cases same : other = ⟨client.nextHandle⟩
      · simp [Holds, Table.contains, same]
      · simp [Holds, Table.contains, Table.get?_insert_of_ne same, same]
    · have next : (client.nextHandle + 1).toNat = client.nextHandle.toNat + 1 := by
        rw [UInt64.toNat_add]
        exact Nat.mod_eq_of_lt fits
      intro numbered other held
      simp only [next]
      by_cases same : other = ⟨client.nextHandle⟩
      · simp [same]
      · have before : client.Holds other := by
          simpa [Holds, Table.contains, Table.get?_insert_of_ne same] using held
        exact Nat.lt_succ_of_lt (numbered other before)
  next => rfl

/-- A note of what was done does not matter for the handles that come into use later. -/
theorem Started.of_note {name : String} {service : σ} {exchange : Exchange}
    {outcome : Except (Failure RemoteError) CallHandle × Client σ}
    (started : (client.note name service exchange).Started outcome) : client.Started outcome := by
  rcases outcome with ⟨(cause | cause) | handle, after⟩
  · exact ⟨started.holds, started.numbered⟩
  · exact started
  · exact ⟨started.fresh, started.holds, started.numbered⟩

theorem started_start [RemoteService σ] (client : Client σ) (request : RemoteRequest)
    (timeout : Option Duration) (now : Duration) :
    client.Started (client.start request timeout now) := by
  unfold start
  split
  · exact .refl client
  · split
    · exact (started_issue _ _).of_note
    · exact .of_calls rfl rfl

/-- The reply to a poll says that the request is over. -/
def isFinalReply : Except (Failure RemoteError) CallStatus → Bool
  | .ok (.pending _) => false
  | .ok _ => true
  | .error (.error (.timeout _ _)) => true
  | .error _ => false

/-- What is known after a poll: the handle is retired exactly if the request is over. Only a
deadline that does not fit crashes the client. -/
def Polled (client : Client σ) (handle : CallHandle) :
    Except (Failure RemoteError) CallStatus × Client σ → Prop
  | (.error (.crash cause), _) => cause = .durationOverflow
  | (.ok status, after) =>
    client.Retires (fun other => isFinalReply (.ok status) ∧ other = handle) after
  | (.error (.error cause), after) =>
    client.Retires (fun other => isFinalReply (.error (.error cause)) ∧ other = handle) after

/-- A reply that does not end the request leaves everything in use. -/
theorem Retires.unless_final {reply : Except (Failure RemoteError) CallStatus}
    (retires : before.Retires (fun _ => False) after) (open_reply : isFinalReply reply = false) :
    before.Retires (fun other => isFinalReply reply ∧ other = handle) after := by
  apply retires.congr
  simp [open_reply]

/-- A reply that ends the request leaves its handle unused. -/
theorem Retires.if_final {reply : Except (Failure RemoteError) CallStatus}
    (retires : before.Retires (· = handle) after) (final : isFinalReply reply = true) :
    before.Retires (fun other => isFinalReply reply ∧ other = handle) after := by
  apply retires.congr
  simp [final]

/-- A note of what was done does not matter for the handles that are retired later. -/
theorem Polled.of_note {name : String} {service : σ} {exchange : Exchange}
    {outcome : Except (Failure RemoteError) CallStatus × Client σ}
    (polled : (client.note name service exchange).Polled handle outcome) :
    client.Polled handle outcome := by
  rcases outcome with ⟨(cause | cause) | status, after⟩
  · exact ⟨polled.holds, polled.numbered⟩
  · exact polled
  · exact ⟨polled.holds, polled.numbered⟩

theorem polled_settle [RemoteService σ] (client : Client σ) (handle : CallHandle)
    (service : String) (deadline : Option (Duration × Duration)) (now : Duration)
    (status : CallStatus) :
    client.Polled handle (client.settle handle service deadline now status) := by
  cases status with
  | pending feedback =>
    cases deadline with
    | none => exact (Retires.refl client).unless_final rfl
    | some times =>
      simp only [settle]
      split
      · exact (retires_cancel client handle).if_final rfl
      · exact (Retires.refl client).unless_final rfl
  | succeeded response => exact retires_retire.if_final rfl
  | failed message => exact retires_retire.if_final rfl

theorem deadline?_error {outstanding : OutstandingCall} {failure : Failure RemoteError}
    (late : deadline? outstanding = .error failure) : failure = .crash .durationOverflow := by
  unfold deadline? at late
  split at late
  · cases late
  · unfold Failure.orCrash at late
    split at late
    · cases late
    · simpa [Except.map] using late.symm

theorem polled_poll [RemoteService σ] (client : Client σ) (handle : CallHandle)
    (now : Duration) : client.Polled handle (client.poll handle now) := by
  unfold poll
  split
  · exact (Retires.refl client).unless_final rfl
  · split
    · rename_i failure late
      rw [deadline?_error late]
      rfl
    · split
      · exact (Retires.refl client).unless_final rfl
      · simp only
        split
        · exact ((Retires.refl client).note _ _ _).unless_final rfl
        · exact (polled_settle _ handle _ _ now _).of_note

/-- What becomes of the request of a node: one is held before, and perhaps another one after. -/
structure Trades (before : Client σ) (held kept : Option CallHandle) (after : Client σ) :
    Prop where
  holds : ∀ handle, after.Holds handle ↔
    (before.Holds handle ∧ held ≠ some handle) ∨ kept = some handle
  /-- A request that was not held before is a new one. -/
  fresh : ∀ handle, kept = some handle → held = some handle ∨ ¬ before.Holds handle
  numbered : after.Numbered

namespace Trades

variable {held kept : Option CallHandle}

theorem refl (numbered : client.Numbered)
    (holds : ∀ handle, held = some handle → client.Holds handle) :
    client.Trades held held client := by
  refine ⟨?_, fun _ same => Or.inl same, numbered⟩
  intro handle
  by_cases same : held = some handle
  · simp [same, holds handle same]
  · simp [same]

theorem unchanged (trades : before.Trades held kept middle)
    (retires : middle.Retires (fun _ => False) after) : before.Trades held kept after := by
  refine ⟨?_, trades.fresh, retires.numbered trades.numbered⟩
  intro handle
  rw [retires.holds, trades.holds]
  simp

theorem retired (trades : before.Trades held (some handle) middle)
    (retires : middle.Retires (· = handle) after) : before.Trades held none after := by
  refine ⟨?_, fun _ impossible => (by cases impossible), retires.numbered trades.numbered⟩
  intro other
  rw [retires.holds, trades.holds]
  constructor
  · rintro ⟨kept | same, different⟩
    · exact Or.inl kept
    · cases same
      exact absurd rfl different
  · rintro (kept | impossible)
    · refine ⟨Or.inl kept, ?_⟩
      rintro rfl
      rcases trades.fresh other rfl with same | new
      · exact kept.2 same
      · exact new kept.1
    · cases impossible

theorem issued (trades : before.Trades held none middle) (issues : middle.Issues handle after) :
    before.Trades held (some handle) after := by
  refine ⟨?_, ?_, issues.numbered trades.numbered⟩
  · intro other
    rw [issues.holds, trades.holds]
    simp only [reduceCtorEq, or_false, Option.some.injEq]
    tauto
  · rintro other ⟨⟩
    have new := issues.fresh trades.numbered
    rw [trades.holds] at new
    by_cases same : held = some handle
    · exact Or.inl same
    · refine Or.inr fun holds => new (Or.inl ⟨holds, same⟩)

end Trades

end Client

end BehaviorTree
