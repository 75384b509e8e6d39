import BehaviorTree.Proofs.Remote.Ages

/-!
# Exchanges with services

A client holds the states of its services, and notes every operation that it uses. The notes account
for the states: each service is what it was before, after the exchanges that name it, one after the
other. So a request is cancelled at its service if and only if that is noted, and as often.
`Client.Uses` says so of the exchanges between two moments, and every operation of a client but
`register`, which puts a service in place of another one, uses services in this sense.
-/

namespace BehaviorTree

variable {σ : Type}

namespace Exchange

/-- The service of which an operation is used. -/
def service : Exchange → String
  | opened service _ _ => service
  | started service _ _ => service
  | polled service _ => service
  | cancelled service _ => service

variable [RemoteService σ]

/-- A service after an operation of it was used. -/
def apply (state : σ) : Exchange → σ
  | opened _ host _ => (RemoteService.openSession state host).2
  | started _ _ request => (RemoteService.start state request).2
  | polled _ call => (RemoteService.poll state call).2
  | cancelled _ call => (RemoteService.cancel state call).2

/-- A service after some exchanges, the earliest of them in front. Those that name other services do
not matter for it. -/
def replay (exchanges : List Exchange) (name : String) (state : σ) : σ :=
  (exchanges.filter fun exchange => exchange.service = name).foldl apply state

theorem replay_append (first second : List Exchange) (name : String) (state : σ) :
    replay (first ++ second) name state = replay second name (replay first name state) := by
  simp only [replay, List.filter_append, List.foldl_append]

theorem replay_singleton (exchange : Exchange) (name : String) (state : σ) :
    replay [exchange] name state =
      if exchange.service = name then exchange.apply state else state := by
  by_cases named : exchange.service = name <;> simp [replay, named]

end Exchange

namespace Client

variable [RemoteService σ]

/-- Between two moments services are used in some exchanges, the earliest of them in front, and in no
others. -/
structure Uses (before : Client σ) (exchanges : List Exchange) (after : Client σ) : Prop where
  journal : after.journal = exchanges.reverse ++ before.journal
  services : ∀ name, after.services.get? name =
    (before.services.get? name).map (Exchange.replay exchanges name)

variable {before middle after client : Client σ} {first second : List Exchange}
  {handle : CallHandle} {outstanding : OutstandingCall}

theorem Uses.of_eq (journal : after.journal = before.journal)
    (services : after.services = before.services) : before.Uses [] after :=
  ⟨journal, fun name => by rw [services]; exact Option.map_id'.symm⟩

theorem Uses.refl (client : Client σ) : client.Uses [] client := .of_eq rfl rfl

theorem Uses.trans (uses : before.Uses first middle) (more : middle.Uses second after) :
    before.Uses (first ++ second) after := by
  refine ⟨?_, fun name => ?_⟩
  · rw [more.journal, uses.journal, List.reverse_append, List.append_assoc]
  · rw [more.services, uses.services, Option.map_map]
    congr 1
    funext state
    exact (Exchange.replay_append first second name state).symm

/-- The services that are known stay known. -/
theorem Uses.contains_eq (uses : before.Uses first after) (name : String) :
    after.services.contains name = before.services.contains name := by
  rw [Table.contains, Table.contains, uses.services, Option.isSome_map]

/-- What is noted with the next state of a service is a use of it. -/
theorem uses_note (exchange : Exchange) {state : σ}
    (known : client.services.get? exchange.service = some state) :
    client.Uses [exchange] (client.note exchange.service (exchange.apply state) exchange) := by
  refine ⟨rfl, fun name => ?_⟩
  rw [note, Table.get?_insert]
  split
  · rename_i named
    rw [named, known, Option.map_some, Exchange.replay_singleton, if_pos rfl]
  · rename_i other
    have elsewhere : Exchange.replay (σ := σ) [exchange] name = id := by
      funext state
      rw [Exchange.replay_singleton, if_neg (Ne.symm other), id]
    rw [elsewhere, Option.map_id, id]

theorem uses_ensureSession (client : Client σ) (name host : String) :
    ∃ exchanges, client.Uses exchanges (client.ensureSession name host).2 := by
  unfold ensureSession
  split
  · exact ⟨[], .refl client⟩
  · split
    · exact ⟨[], .refl client⟩
    · rename_i state known
      rcases answered : RemoteService.openSession state host with ⟨message | granted, later⟩
      · have used := uses_note (.opened name host false) known
        rw [Exchange.apply, answered] at used
        exact ⟨_, used⟩
      · have used := uses_note (.opened name host true) known
        rw [Exchange.apply, answered] at used
        exact ⟨_, used.trans (.of_eq rfl rfl)⟩

theorem uses_start (client : Client σ) (request : RemoteRequest) (timeout : Option Duration)
    (now : Duration) : ∃ exchanges, client.Uses exchanges (client.start request timeout now).2 := by
  unfold start
  split
  · exact ⟨[], .refl client⟩
  · rename_i state known
    rcases answered : RemoteService.start state request with ⟨message | call, later⟩
    · have used := uses_note (.started request.service none request) known
      rw [Exchange.apply, answered] at used
      exact ⟨_, used⟩
    · have used := uses_note (.started request.service (some call) request) known
      rw [Exchange.apply, answered] at used
      refine ⟨_, used.trans (?_ : Uses _ [] _)⟩
      dsimp only
      unfold issue
      split <;> exact .of_eq rfl rfl

/-- A request that is given up is cancelled at its service once. -/
theorem uses_cancel_of_known (found : client.calls.get? handle = some outstanding)
    (known : client.services.contains outstanding.service = true) :
    client.Uses [.cancelled outstanding.service outstanding.call] (client.cancel handle) := by
  rcases Table.contains_iff.1 known with ⟨state, isState⟩
  have kept : (client.retire handle).services.get? outstanding.service = some state := isState
  simp only [cancel, found, kept]
  have used := uses_note (.cancelled outstanding.service outstanding.call) kept
  exact ⟨used.journal, used.services⟩

theorem uses_cancel (client : Client σ) (handle : CallHandle) :
    ∃ exchanges, client.Uses exchanges (client.cancel handle) := by
  cases found : client.calls.get? handle with
  | none =>
    refine ⟨[], ?_⟩
    simp only [cancel, found]
    exact .refl client
  | some outstanding =>
    by_cases known : client.services.contains outstanding.service = true
    · exact ⟨_, uses_cancel_of_known found known⟩
    · have missing : client.services.get? outstanding.service = none := by
        simpa [Table.contains] using known
      refine ⟨[], ?_⟩
      simp only [cancel, found, retire, missing]
      exact .of_eq rfl rfl

theorem uses_poll (client : Client σ) (handle : CallHandle) (now : Duration) :
    ∃ exchanges, client.Uses exchanges (client.poll handle now).2 := by
  unfold poll
  split
  · exact ⟨[], .refl client⟩
  · rename_i outstanding _
    split
    · exact ⟨[], .refl client⟩
    · split
      · exact ⟨[], .refl client⟩
      · rename_i deadline _ _ state known
        have polled := uses_note (.polled outstanding.service outstanding.call) known
        dsimp only
        split
        · exact ⟨_, polled⟩
        · unfold settle
          split
          · split
            · rcases Client.uses_cancel (client.note outstanding.service
                (RemoteService.poll state outstanding.call).2
                (.polled outstanding.service outstanding.call)) handle with ⟨late, more⟩
              exact ⟨_, polled.trans more⟩
            · exact ⟨_, polled⟩
          · exact ⟨_, polled⟩
          · exact ⟨_, polled.trans (.of_eq rfl rfl)⟩

theorem exists_uses_trans (uses : ∃ exchanges, before.Uses exchanges middle)
    (more : ∃ exchanges, middle.Uses exchanges after) :
    ∃ exchanges, before.Uses exchanges after := by
  rcases uses with ⟨early, uses⟩
  rcases more with ⟨late, more⟩
  exact ⟨early ++ late, uses.trans more⟩

/-- Whatever is done to a client in the course of a tick, it only uses services. -/
theorem Used.exists_uses (used : before.Used after) :
    ∃ exchanges, before.Uses exchanges after := by
  induction used with
  | unused => exact ⟨[], .refl before⟩
  | session _ name host ih => exact exists_uses_trans ih (uses_ensureSession _ name host)
  | started _ request timeout now ih =>
    exact exists_uses_trans ih (uses_start _ request timeout now)
  | polled _ handle now ih => exact exists_uses_trans ih (uses_poll _ handle now)
  | cancelled _ handle ih => exact exists_uses_trans ih (uses_cancel _ handle)

theorem uses_foldl_cancel (client : Client σ) (handles : List CallHandle) :
    ∃ exchanges, client.Uses exchanges (handles.foldl cancel client) :=
  (client.used_foldl_cancel handles).exists_uses

end Client

end BehaviorTree
