import BehaviorTree.Proofs.Lease.Archive
import BehaviorTree.Proofs.Lease.Renewal

/-!
# Clients of one registry

Any number of clients use one registry, some with leases that they handle themselves and some
through holders. A lease that somebody was given is good until it is given back or its resource is
given again or revoked, and once it is no longer good it does not become good again, nor can it be
used against those who have the resource now. A holder that renews its leases loses a resource only
with an error that names it.
-/

namespace BehaviorTree

/-- The holders, in the order in which they came, and the provider that all clients share. -/
structure Market (π : Type) where
  holders : List LeaseHolder
  provider : π

namespace Market

/-- What a client does with the provider, by itself or through the holder with an index. -/
inductive Dealing where
  | acquire (resource owner : String)
  | retain (lease : Lease)
  | release (lease : Lease)
  | revoke (resource : String)
  | enter (owner : String)
  | acquireAll (index : Nat) (required : List String)
  | retainAll (index : Nat)
  /-- Also what a holder does when it leaves, after which it does nothing any more. -/
  | releaseAll (index : Nat)

def opening {π : Type} (provider : π) : Market π := ⟨[], provider⟩

/-- A market without the notes that are taken about its registry. -/
def plain (market : Market LeaseArchive) : Market LeaseRegistry :=
  ⟨market.holders, market.provider.registry⟩

section Dealings

variable {π : Type} [RevocableProvider π]

def employ (market : Market π) (index : Nat) (use : LeaseHolder → π → LeaseHolder × π) :
    Market π :=
  match market.holders[index]? with
  | none => market
  | some holder =>
    let (next, later) := use holder market.provider
    ⟨market.holders.set index next, later⟩

/-- A holder to which resources are refused goes on with those that it has. -/
def tryAcquire (required : List String) (holder : LeaseHolder) (provider : π) : LeaseHolder × π :=
  match holder.acquireAll provider required with
  | (.ok next, later) => (next, later)
  | (.error _, later) => (holder, later)

def deal (market : Market π) : Dealing → Market π
  | .acquire resource owner =>
    { market with provider := (LeaseProvider.acquire market.provider resource owner).2 }
  | .retain lease => { market with provider := (LeaseProvider.retain market.provider lease).2 }
  | .release lease => { market with provider := LeaseProvider.release market.provider lease }
  | .revoke resource =>
    { market with provider := RevocableProvider.revoke market.provider resource }
  | .enter owner => { market with holders := market.holders ++ [.empty owner] }
  | .acquireAll index required => market.employ index (tryAcquire required)
  | .retainAll index => market.employ index fun holder provider => (holder.retainAll provider).2
  | .releaseAll index => market.employ index LeaseHolder.releaseAll

def dealAll (market : Market π) (dealings : List Dealing) : Market π := dealings.foldl deal market

end Dealings

/-- What has happened to the registry, the latest first. -/
def history (dealings : List Dealing) : List LeaseEvent :=
  ((opening LeaseArchive.empty).dealAll dealings).provider.events

section Notes

variable {market : Market LeaseArchive} {dealing : Dealing} {dealings : List Dealing} {index : Nat}

theorem employ_plain {use : LeaseHolder → LeaseRegistry → LeaseHolder × LeaseRegistry}
    {noted : LeaseHolder → LeaseArchive → LeaseHolder × LeaseArchive}
    (agrees : ∀ holder archive,
      use holder archive.registry = (noted holder archive).map id LeaseArchive.registry) :
    market.plain.employ index use = (market.employ index noted).plain := by
  simp only [employ, plain]
  cases market.holders[index]? with
  | none => rfl
  | some holder => simp only [agrees, Prod.map_fst, Prod.map_snd, id_eq]

/-- The notes have no influence on what happens. -/
theorem deal_plain : market.plain.deal dealing = (market.deal dealing).plain := by
  cases dealing with
  | acquire resource owner =>
    exact congrArg (Market.mk market.holders)
      (congrArg Prod.snd (LeaseArchive.forgets.acquire market.provider resource owner))
  | retain lease => rfl
  | release lease => rfl
  | revoke resource => rfl
  | enter owner => rfl
  | acquireAll index required =>
    simp only [deal]
    refine employ_plain fun holder archive => ?_
    simp only [tryAcquire, LeaseHolder.acquireAll_forget LeaseArchive.forgets]
    rcases holder.acquireAll archive required with ⟨cause | next, later⟩
    · rfl
    · rfl
  | retainAll index =>
    simp only [deal]
    refine employ_plain fun holder archive => ?_
    rw [LeaseHolder.retainAll_forget LeaseArchive.forgets]
    rfl
  | releaseAll index =>
    exact employ_plain fun holder archive => LeaseHolder.releaseAll_forget LeaseArchive.forgets

theorem dealAll_plain : market.plain.dealAll dealings = (market.dealAll dealings).plain :=
  List.foldl_hom plain fun _ _ => deal_plain

theorem sound_employ (sound : market.provider.IsSound)
    {use : LeaseHolder → LeaseArchive → LeaseHolder × LeaseArchive}
    (keeps : ∀ holder archive, archive.IsSound → (use holder archive).2.IsSound) :
    (market.employ index use).provider.IsSound := by
  simp only [employ]
  cases market.holders[index]? with
  | none => exact sound
  | some holder => exact keeps holder market.provider sound

theorem sound_deal (sound : market.provider.IsSound) : (market.deal dealing).provider.IsSound := by
  have keeps := LeaseArchive.keeps_isSound
  cases dealing with
  | acquire resource owner => exact sound.acquire resource owner
  | retain lease => exact sound
  | release lease => exact sound.release lease
  | revoke resource => exact sound.revoke resource
  | enter owner => exact sound
  | acquireAll index required =>
    refine sound_employ sound fun holder archive sound => ?_
    have kept : (holder.acquireAll archive required).2.IsSound :=
      LeaseHolder.keeps_acquireAll keeps sound
    revert kept
    simp only [tryAcquire]
    rcases holder.acquireAll archive required with ⟨cause | next, later⟩
    · exact id
    · exact id
  | retainAll index =>
    exact sound_employ sound fun holder archive sound => LeaseHolder.keeps_retainAll keeps sound
  | releaseAll index =>
    exact sound_employ sound fun holder archive sound => LeaseHolder.keeps_releaseAll keeps sound

theorem sound_dealAll (sound : market.provider.IsSound) :
    (market.dealAll dealings).provider.IsSound := by
  induction dealings generalizing market with
  | nil => exact sound
  | cons dealing rest ih => exact ih (sound_deal sound)

end Notes

section Holders

variable {market : Market LeaseRegistry} {dealing : Dealing} {dealings : List Dealing}
  {index : Nat}

theorem tidy_employ (tidy : ∀ holder ∈ market.holders, holder.IsTidy)
    {use : LeaseHolder → LeaseRegistry → LeaseHolder × LeaseRegistry}
    (trades : ∀ (holder : LeaseHolder) registry,
      holder.Trades registry (use holder registry).1 (use holder registry).2) :
    ∀ holder ∈ (market.employ index use).holders, holder.IsTidy := by
  simp only [employ]
  cases found : market.holders[index]? with
  | none => exact tidy
  | some employed =>
    intro holder listed
    rcases List.mem_or_eq_of_mem_set listed with before | rfl
    · exact tidy holder before
    · exact (trades employed market.provider).tidy (tidy employed (List.mem_of_getElem? found))

theorem tidy_deal (tidy : ∀ holder ∈ market.holders, holder.IsTidy) :
    ∀ holder ∈ (market.deal dealing).holders, holder.IsTidy := by
  cases dealing with
  | acquire resource owner => exact tidy
  | retain lease => exact tidy
  | release lease => exact tidy
  | revoke resource => exact tidy
  | enter owner =>
    intro holder listed
    rcases List.mem_append.1 listed with before | new
    · exact tidy holder before
    · rw [List.mem_singleton.1 new]
      exact LeaseHolder.isTidy_empty
  | acquireAll index required =>
    refine tidy_employ tidy fun holder registry => ?_
    have trades := holder.trades_acquireAll registry required
    revert trades
    simp only [tryAcquire]
    rcases holder.acquireAll registry required with ⟨cause | next, later⟩
    · exact id
    · exact id
  | retainAll index => exact tidy_employ tidy fun _ _ => LeaseHolder.trades_retainAll
  | releaseAll index => exact tidy_employ tidy fun _ _ => LeaseHolder.trades_releaseAll

theorem tidy_dealAll (tidy : ∀ holder ∈ market.holders, holder.IsTidy) :
    ∀ holder ∈ (market.dealAll dealings).holders, holder.IsTidy := by
  induction dealings generalizing market with
  | nil => exact tidy
  | cons dealing rest ih => exact ih (tidy_deal tidy)

end Holders

/-- A lease is retained exactly as long as nothing has ended it, and changes nothing when it is
given back later than that. All holders renew their leases without losing a resource unless another
owner has it and an error names it. -/
theorem leases_stand_and_are_conserved (dealings : List Dealing)
    (few : LeaseArchive.acquisitions (history dealings) < UInt64.size) :
    let market := (opening LeaseRegistry.empty).dealAll dealings
    ((opening LeaseArchive.empty).dealAll dealings).plain = market ∧
      (∀ later lease earlier, history dealings = later ++ .acquired lease :: earlier →
        (market.provider.retain lease = .ok () ↔ ∀ event ∈ later, ¬ event.Ends lease) ∧
          ((∃ event ∈ later, event.Ends lease) → ∀ resource,
            (market.provider.release lease).holders.get? resource =
              market.provider.holders.get? resource)) ∧
      ∀ holder ∈ market.holders, ∃ failures next later,
        holder.retainAll market.provider = (.ok failures, next, later) ∧
          holder.Conserves market.provider failures next later := by
  intro market
  have same : ((opening LeaseArchive.empty).dealAll dealings).plain = market := dealAll_plain.symm
  have registry : ((opening LeaseArchive.empty).dealAll dealings).provider.registry =
      market.provider := congrArg provider same
  have sound : ((opening LeaseArchive.empty).dealAll dealings).provider.IsSound :=
    sound_dealAll LeaseArchive.isSound_empty
  refine ⟨same, ?_, ?_⟩
  · intro later lease earlier given
    rw [← registry]
    refine ⟨sound.retain_iff few given, fun ended resource => ?_⟩
    rw [sound.release_eq few given ended]
  · intro holder listed
    have tidy : holder.IsTidy := tidy_dealAll (by simp [opening]) holder listed
    rcases tidy.renews market.provider with ⟨failures, ⟨next, later⟩, renewed⟩
    exact ⟨failures, next, later, renewed, LeaseHolder.conserves_of_retainAll renewed⟩

/-- A mission holds the body and the camera of a robot. An operator takes the body. -/
def seizure : List Dealing :=
  [.enter "mission", .acquireAll 0 ["body", "ptz"], .revoke "body", .acquire "body" "operator"]

def afterSeizure : Market LeaseRegistry := (opening .empty).dealAll seizure

theorem history_seizure : history seizure =
    [.acquired ⟨"body", "operator", 3⟩, .revoked "body", .acquired ⟨"ptz", "mission", 2⟩,
      .acquired ⟨"body", "mission", 1⟩] := rfl

theorem conserved_after_seizure :
    LeaseArchive.acquisitions (history seizure) < UInt64.size ∧
      afterSeizure.provider.retain ⟨"ptz", "mission", 2⟩ = .ok () ∧
      afterSeizure.provider.retain ⟨"body", "mission", 1⟩ ≠ .ok () ∧
      (afterSeizure.provider.release ⟨"body", "mission", 1⟩).holders.get? "body" =
        some ("operator", 3) ∧
      ∃ holder ∈ afterSeizure.holders, ∃ next later,
        holder.retainAll afterSeizure.provider =
          (.ok [.unavailable "body" "operator"], next, later) ∧
        holder.Conserves afterSeizure.provider [.unavailable "body" "operator"] next later := by
  have few : LeaseArchive.acquisitions (history seizure) < UInt64.size := by
    rw [history_seizure]
    decide
  rcases leases_stand_and_are_conserved seizure few with ⟨-, stands, conserved⟩
  rw [history_seizure] at stands
  have camera := stands [.acquired ⟨"body", "operator", 3⟩, .revoked "body"] _ _ rfl
  have body := stands [.acquired ⟨"body", "operator", 3⟩, .revoked "body",
    .acquired ⟨"ptz", "mission", 2⟩] _ _ rfl
  have taken : ∃ event ∈ [LeaseEvent.acquired ⟨"body", "operator", 3⟩, .revoked "body",
      .acquired ⟨"ptz", "mission", 2⟩], event.Ends ⟨"body", "mission", 1⟩ :=
    ⟨_, List.mem_cons_self, rfl⟩
  refine ⟨few, camera.1.2 ?_, ?_, (body.2 taken "body").trans rfl, ?_⟩
  · simp [LeaseEvent.Ends]
  · rcases taken with ⟨event, listed, ends⟩
    exact fun kept => body.1.1 kept event listed ends
  · have present : afterSeizure.holders.head? = some (afterSeizure.holders.headD (.empty "")) :=
      rfl
    have listed := List.mem_of_head? present
    have outcome : ((afterSeizure.holders.headD (.empty "")).retainAll afterSeizure.provider).1 =
        .ok [.unavailable "body" "operator"] := rfl
    rcases conserved _ listed with ⟨failures, next, later, renewed, conserves⟩
    rw [show (afterSeizure.holders.headD (.empty "")).retainAll afterSeizure.provider = _
      from renewed] at outcome
    cases outcome
    exact ⟨_, listed, next, later, renewed, conserves⟩

end Market

end BehaviorTree
