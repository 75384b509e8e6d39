import BehaviorTree.Lease.Registry
import BehaviorTree.Proofs.Lease.Holder

/-!
# Holders of leases of the registry

The registry knows who holds a resource by the name of the owner. Whatever one owner does leaves the
leases of all others good. So the leases of a holder stay good as long as nobody else uses the name
of its owner, and the holder has the leases of all that is registered under this name. What it is
given before something is refused was free, and it is free again when it is given back.
-/

namespace BehaviorTree

namespace LeaseRegistry

variable {registry middle later : LeaseRegistry} {resource owner : String} {lease : Lease}

theorem isCurrent_iff : registry.isCurrent lease = true ↔
    registry.holders.get? lease.resource = some (lease.owner, lease.sequence) := by
  simp [isCurrent]

theorem retain_eq_ok_iff : registry.retain lease = .ok () ↔ registry.isCurrent lease = true := by
  simp only [retain]
  split <;> simp_all

theorem isCurrent_of_retain_eq_error {cause : LeaseError}
    (lost : registry.retain lease = .error cause) : registry.isCurrent lease = false := by
  rw [← Bool.not_eq_true, ← retain_eq_ok_iff, lost]
  exact fun impossible => by cases impossible

/-- A resource that is given was free or in the hands of the same owner. -/
theorem acquire_eq_ok (granted : registry.acquire resource owner = (.ok lease, later)) :
    registry.give resource owner = (lease, later) ∧
      ∀ other sequence, registry.holders.get? resource = some (other, sequence) →
        other = owner := by
  simp only [acquire, holder?] at granted
  cases held : registry.holders.get? resource with
  | none =>
    simp only [held, Option.map_none, Prod.map, id, Prod.mk.injEq, Except.ok.injEq] at granted
    exact ⟨Prod.ext granted.1 granted.2, by simp⟩
  | some entry =>
    simp only [held, Option.map_some] at granted
    split at granted
    · rename_i same
      simp only [Prod.map, id, Prod.mk.injEq, Except.ok.injEq] at granted
      refine ⟨Prod.ext granted.1 granted.2, ?_⟩
      intro other sequence found
      simp only [Option.some.injEq] at found
      rw [← same, found]
    · simp at granted

theorem acquire_eq_error {cause : LeaseError}
    (denied : registry.acquire resource owner = (.error cause, later)) : later = registry := by
  simp only [acquire] at denied
  split at denied
  · split at denied
    · simp [Prod.map] at denied
    · simp only [Prod.mk.injEq] at denied
      exact denied.2.symm
  · simp [Prod.map] at denied

theorem namesResources : LeaseProvider.NamesResources LeaseRegistry := by
  intro registry later resource owner lease granted
  have given := (acquire_eq_ok granted).1
  simp only [give, Prod.mk.injEq] at given
  rw [← given.1]

/-- The leases of all owners but one stay as they are. -/
def Spares (owner : String) (before after : LeaseRegistry) : Prop :=
  ∀ resource other sequence, other ≠ owner →
    (after.holders.get? resource = some (other, sequence) ↔
      before.holders.get? resource = some (other, sequence))

theorem Spares.refl : Spares owner registry registry := fun _ _ _ _ => Iff.rfl

theorem Spares.trans (first : Spares owner registry middle) (second : Spares owner middle later) :
    Spares owner registry later :=
  fun resource other sequence different =>
    (second resource other sequence different).trans (first resource other sequence different)

theorem spares_acquire : Spares owner registry (registry.acquire resource owner).2 := by
  rcases asked : registry.acquire resource owner with ⟨cause | lease, later⟩
  · rw [acquire_eq_error asked]
    exact .refl
  · rcases acquire_eq_ok asked with ⟨given, free⟩
    simp only [give, Prod.mk.injEq] at given
    rcases given with ⟨-, rfl⟩
    intro place other sequence different
    by_cases same : place = resource
    · subst same
      rw [Table.get?_insert_self]
      constructor
      · intro held
        rw [Option.some.injEq, Prod.mk.injEq] at held
        exact absurd held.1.symm different
      · exact fun held => absurd (free other sequence held) different
    · rw [Table.get?_insert_of_ne same]

theorem spares_release (owned : lease.owner = owner) :
    Spares owner registry (registry.release lease) := by
  simp only [release]
  split
  · rename_i current
    intro place other sequence different
    rw [revoke]
    by_cases same : place = lease.resource
    · subst same
      rw [Table.get?_erase_self, isCurrent_iff.1 current, Option.some.injEq, Prod.mk.injEq]
      constructor
      · intro impossible
        cases impossible
      · exact fun held => absurd (held.1.symm.trans owned) different
    · rw [Table.get?_erase_of_ne same]
  · exact .refl

theorem get?_release : (registry.release lease).holders.get? resource =
    if lease.resource = resource ∧ registry.isCurrent lease = true then none
    else registry.holders.get? resource := by
  simp only [release]
  cases current : registry.isCurrent lease with
  | false => simp
  | true => simp [revoke, Table.get?_erase, eq_comm]

/-- Leases that are released free the resources for which they are good, and nothing else. -/
theorem get?_foldl_release {leases : List Lease} :
    (leases.foldl release registry).holders.get? resource =
      if ∃ lease ∈ leases, lease.resource = resource ∧ registry.isCurrent lease = true then none
      else registry.holders.get? resource := by
  induction leases generalizing registry with
  | nil => simp
  | cons first rest ih =>
    rw [List.foldl_cons, ih, get?_release]
    by_cases frees : first.resource = resource ∧ registry.isCurrent first = true
    · simp [frees]
    · -- The first lease leaves the resource alone, so the others are as good for it as before.
      have same : (registry.release first).holders.get? resource =
          registry.holders.get? resource := by
        rw [get?_release, if_neg frees]
      have good : ∀ lease, (lease.resource = resource ∧
          (registry.release first).isCurrent lease = true) ↔
          (lease.resource = resource ∧ registry.isCurrent lease = true) := by
        intro lease
        refine and_congr_right fun named => ?_
        rw [isCurrent_iff, isCurrent_iff, named, same]
      simp [good, frees]

/-- To release leases concerns nothing but their resources. -/
theorem get?_foldl_release_of_apart {leases : List Lease}
    (apart : ∀ lease ∈ leases, lease.resource ≠ resource) :
    (leases.foldl release registry).holders.get? resource = registry.holders.get? resource := by
  rw [get?_foldl_release, if_neg]
  rintro ⟨lease, listed, named, -⟩
  exact apart lease listed named

theorem spares_foldl_release {leases : List Lease} (owned : ∀ lease ∈ leases, lease.owner = owner) :
    Spares owner registry (leases.foldl release registry) := by
  induction leases generalizing registry with
  | nil => exact .refl
  | cons lease rest ih =>
    simp only [List.mem_cons, forall_eq_or_imp] at owned
    exact (spares_release owned.1).trans (ih owned.2)

/-- A resource is free for an owner, or the owner has it already. -/
def Concedes (registry : LeaseRegistry) (owner resource : String) : Prop :=
  ∀ other sequence, registry.holders.get? resource = some (other, sequence) → other = owner

theorem acquire_granted_iff :
    (∃ lease, (registry.acquire resource owner).1 = .ok lease) ↔
      registry.Concedes owner resource := by
  constructor
  · rintro ⟨lease, granted⟩
    exact (acquire_eq_ok (Prod.ext granted rfl)).2
  · intro concedes
    simp only [acquire, holder?]
    cases held : registry.holders.get? resource with
    | none => exact ⟨_, rfl⟩
    | some entry =>
      simp only [Option.map_some, if_pos (concedes entry.1 entry.2 held)]
      exact ⟨_, rfl⟩

/-- What an owner does leaves others with as much as they had, and with nothing more. -/
theorem Spares.concedes_iff (spares : Spares owner registry later) :
    later.Concedes owner resource ↔ registry.Concedes owner resource := by
  unfold Concedes
  constructor
  · intro concedes other sequence held
    by_contra different
    exact different (concedes other sequence ((spares _ _ _ different).2 held))
  · intro concedes other sequence held
    by_contra different
    exact different (concedes other sequence ((spares _ _ _ different).1 held))

end LeaseRegistry

namespace LeaseHolder

variable {holder middle next : LeaseHolder} {registry between later : LeaseRegistry}
  {resource : String} {lease : Lease}

/-- Leases are filed under their resources, and have the owner of the holder. -/
def IsTidy (holder : LeaseHolder) : Prop :=
  ∀ resource lease, holder.held.get? resource = some lease →
    lease.resource = resource ∧ lease.owner = holder.owner

/-- All leases of a holder are good. -/
def IsGood (holder : LeaseHolder) (registry : LeaseRegistry) : Prop :=
  ∀ resource lease, holder.held.get? resource = some lease →
    registry.holders.get? resource = some (holder.owner, lease.sequence)

/-- A holder has the leases of all that is registered under the name of its owner. -/
def AccountsFor (holder : LeaseHolder) (registry : LeaseRegistry) : Prop :=
  ∀ resource sequence, registry.holders.get? resource = some (holder.owner, sequence) →
    ∃ lease, holder.held.get? resource = some lease ∧ lease.sequence = sequence

theorem isTidy_empty {owner : String} : (empty owner).IsTidy := by
  intro resource lease held
  simp [empty] at held

/-- A renewal of leases that are filed correctly ends without a fault. -/
theorem IsTidy.renews (tidy : holder.IsTidy) (registry : LeaseRegistry) :
    ∃ refusals renewed, holder.retainAll registry = (.ok refusals, renewed) := by
  rcases renewed : holder.retainAll registry with ⟨fault | refusals, rest⟩
  · have faults := holder.retainAll_faults_iff registry
    rw [renewed] at faults
    rcases faults.1 ⟨fault, rfl⟩ with ⟨resource, lease, held, wrong⟩
    rcases tidy resource lease held with ⟨named, owned⟩
    exact absurd wrong (by simp [named, owned])
  · exact ⟨refusals, rest, rfl⟩

theorem isGood_empty {owner : String} : (empty owner).IsGood registry := by
  intro resource lease held
  simp [empty] at held

/-- Leases stay good when another owner acts. -/
theorem IsGood.of_spares (good : holder.IsGood registry) {owner : String}
    (different : holder.owner ≠ owner) (spares : LeaseRegistry.Spares owner registry later) :
    holder.IsGood later :=
  fun resource lease held => (spares resource _ _ different).2 (good resource lease held)

theorem AccountsFor.of_spares (accounts : holder.AccountsFor registry) {owner : String}
    (different : holder.owner ≠ owner) (spares : LeaseRegistry.Spares owner registry later) :
    holder.AccountsFor later :=
  fun resource sequence found => accounts resource sequence ((spares _ _ _ different).1 found)

theorem AccountsFor.revoke (accounts : holder.AccountsFor registry) (resource : String) :
    holder.AccountsFor (registry.revoke resource) := by
  intro place sequence found
  simp only [LeaseRegistry.revoke, Table.get?_erase] at found
  split at found
  · cases found
  · exact accounts place sequence found

/-- Resources are given one after the other exactly if each of them is conceded. -/
theorem request_granted_iff {owner : String} {resources : List String} :
    (request owner registry resources).1.2 = none ↔
      ∀ resource ∈ resources, registry.Concedes owner resource := by
  induction resources generalizing registry with
  | nil => simp [request]
  | cons first rest ih =>
    have spares : LeaseRegistry.Spares owner registry (registry.acquire first owner).2 :=
      LeaseRegistry.spares_acquire
    have granted : (∃ lease, (registry.acquire first owner).1 = .ok lease) ↔
        registry.Concedes owner first := LeaseRegistry.acquire_granted_iff
    revert spares granted
    simp only [request, LeaseProvider.acquire, List.forall_mem_cons]
    rcases registry.acquire first owner with ⟨cause | lease, later⟩
    · intro spares granted
      simp [← granted]
    · intro spares granted
      simp only [ih, spares.concedes_iff]
      rw [and_iff_right (granted.1 ⟨lease, rfl⟩)]

/-- A resource that was given was free for the owner, and its new lease is good. All others are as
they were. -/
theorem get?_request {owner : String} {resources : List String} {leases : List Lease}
    {refusal : Option LeaseError}
    (asked : request owner registry resources = ((leases, refusal), later)) (resource : String) :
    ((∀ lease ∈ leases, lease.resource ≠ resource) ∧
        later.holders.get? resource = registry.holders.get? resource) ∨
      ((∃ lease ∈ leases, lease.resource = resource ∧ later.isCurrent lease = true) ∧
        resource ∈ resources ∧ registry.Concedes owner resource) := by
  induction resources generalizing registry leases with
  | nil =>
    cases asked
    exact Or.inl ⟨by simp, rfl⟩
  | cons first rest ih =>
    simp only [request] at asked
    split at asked
    · rename_i denied
      cases asked
      rw [LeaseRegistry.acquire_eq_error denied]
      exact Or.inl ⟨by simp, rfl⟩
    · rename_i lease middle given
      rcases others : request owner middle rest with ⟨⟨more, cause⟩, last⟩
      simp only [others, Prod.mk.injEq] at asked
      rcases asked with ⟨⟨rfl, rfl⟩, rfl⟩
      rcases LeaseRegistry.acquire_eq_ok given with ⟨issued, conceded⟩
      simp only [LeaseRegistry.give, Prod.mk.injEq] at issued
      rcases issued with ⟨rfl, rfl⟩
      rcases ih others with ⟨apart, same⟩ | ⟨⟨found, listed, good⟩, among, concedes⟩
      · by_cases isFirst : resource = first
        · subst isFirst
          refine Or.inr ⟨⟨_, List.mem_cons_self, rfl, ?_⟩, List.mem_cons_self, conceded⟩
          rw [LeaseRegistry.isCurrent_iff, same, Table.get?_insert_self]
        · refine Or.inl ⟨?_, same.trans (Table.get?_insert_of_ne isFirst)⟩
          exact List.forall_mem_cons.2 ⟨fun equal => isFirst equal.symm, apart⟩
      · have spares : LeaseRegistry.Spares owner registry (registry.acquire first owner).2 :=
          LeaseRegistry.spares_acquire
        rw [show registry.acquire first owner = _ from given] at spares
        exact Or.inr ⟨⟨found, List.mem_cons_of_mem _ listed, good⟩, List.mem_cons_of_mem _ among,
          spares.concedes_iff.1 concedes⟩

/-- What a holder gives back after a refusal was free before, as it holds whatever else is
registered under its name. -/
theorem AccountsFor.get?_rollback (accounts : holder.AccountsFor registry)
    {required : List String} {leases : List Lease} {refusal : Option LeaseError}
    (asked : request holder.owner registry (holder.missing required) = ((leases, refusal), later))
    (resource : String) :
    (leases.foldl LeaseRegistry.release later).holders.get? resource =
      registry.holders.get? resource := by
  rcases get?_request asked resource with ⟨apart, same⟩ | ⟨given, listed, concedes⟩
  · rw [LeaseRegistry.get?_foldl_release_of_apart apart, same]
  · rw [LeaseRegistry.get?_foldl_release, if_pos given]
    cases found : registry.holders.get? resource with
    | none => rfl
    | some entry =>
      rcases entry with ⟨other, sequence⟩
      have missing := (mem_missing.1 listed).2
      rcases accounts resource sequence (concedes other sequence found ▸ found) with
        ⟨lease, held, -⟩
      rw [isHeld_iff.2 ⟨lease, held⟩] at missing
      cases missing

/-- A holder that accounts for its name leaves the registry as it was if it cannot acquire
everything. -/
theorem AccountsFor.get?_of_refused (accounts : holder.AccountsFor registry)
    {required : List String} {cause : LeaseError}
    (denied : holder.acquireAll registry required = (.error cause, later)) (resource : String) :
    later.holders.get? resource = registry.holders.get? resource := by
  rcases asked : request holder.owner registry (holder.missing required) with
    ⟨⟨leases, _ | refusal⟩, middle⟩
  · simp [acquireAll, asked] at denied
  · simp only [acquireAll, asked, Prod.mk.injEq] at denied
    rw [← denied.2]
    exact accounts.get?_rollback asked resource

/-- A holder acquires resources exactly if each that it does not hold is conceded. -/
theorem acquireAll_granted_iff {required : List String} :
    (∃ next, (holder.acquireAll registry required).1 = .ok next) ↔
      ∀ resource ∈ holder.missing required, registry.Concedes holder.owner resource := by
  have granted : (request holder.owner registry (holder.missing required)).1.2 = none ↔
      ∀ resource ∈ holder.missing required, registry.Concedes holder.owner resource :=
    request_granted_iff
  rw [← granted]
  simp only [acquireAll]
  rcases request holder.owner registry (holder.missing required) with ⟨⟨leases, _ | cause⟩, later⟩
  · simp
  · simp

/-- A holder whose leases are good acquires resources exactly if each of them is conceded. -/
theorem IsGood.acquireAll_granted_iff (good : holder.IsGood registry) {required : List String} :
    (∃ next, (holder.acquireAll registry required).1 = .ok next) ↔
      ∀ resource ∈ required, registry.Concedes holder.owner resource := by
  rw [LeaseHolder.acquireAll_granted_iff]
  constructor
  · intro concedes resource listed
    cases held : holder.isHeld resource with
    | true =>
      rcases isHeld_iff.1 held with ⟨lease, held⟩
      intro other sequence found
      rw [good resource lease held, Option.some.injEq, Prod.mk.injEq] at found
      exact found.1.symm
    | false => exact concedes resource (mem_missing.2 ⟨listed, held⟩)
  · exact fun concedes resource listed => concedes resource (mem_missing.1 listed).1

/-- What a holder may do with the registry. -/
structure Trades (holder : LeaseHolder) (registry : LeaseRegistry) (next : LeaseHolder)
    (later : LeaseRegistry) : Prop where
  owner : next.owner = holder.owner
  tidy : holder.IsTidy → next.IsTidy
  good : holder.IsTidy → holder.IsGood registry → next.IsGood later
  accounts : holder.IsTidy → holder.AccountsFor registry → next.AccountsFor later
  spares : holder.IsTidy → LeaseRegistry.Spares holder.owner registry later

theorem Trades.refl : holder.Trades registry holder registry :=
  ⟨rfl, id, fun _ => id, fun _ => id, fun _ => .refl⟩

theorem Trades.trans (first : holder.Trades registry middle between)
    (second : middle.Trades between next later) : holder.Trades registry next later := by
  refine ⟨second.owner.trans first.owner, second.tidy ∘ first.tidy, ?_, ?_, ?_⟩
  · exact fun tidy good => second.good (first.tidy tidy) (first.good tidy good)
  · exact fun tidy accounts => second.accounts (first.tidy tidy) (first.accounts tidy accounts)
  · intro tidy
    have spares := second.spares (first.tidy tidy)
    rw [first.owner] at spares
    exact (first.spares tidy).trans spares

/-- A lease that has just been given is filed. -/
theorem trades_file (holder : LeaseHolder)
    (given : registry.acquire resource holder.owner = (.ok lease, later)) :
    holder.Trades registry (holder.file lease) later := by
  have spares : LeaseRegistry.Spares holder.owner registry
      (registry.acquire resource holder.owner).2 := LeaseRegistry.spares_acquire
  rw [given] at spares
  have issued := (LeaseRegistry.acquire_eq_ok given).1
  simp only [LeaseRegistry.give, Prod.mk.injEq] at issued
  rcases issued with ⟨rfl, rfl⟩
  refine ⟨rfl, ?_, ?_, ?_, fun _ => spares⟩
  · intro tidy place found held
    simp only [file, Table.get?_insert] at held
    split at held
    · rename_i same
      simp only [Option.some.injEq] at held
      subst held
      exact ⟨same.symm, rfl⟩
    · exact tidy place found held
  · intro tidy good place found held
    simp only [file, Table.get?_insert] at held ⊢
    split at held
    · rename_i same
      simp only [Option.some.injEq] at held
      subst held
      rw [if_pos same]
    · rename_i different
      rw [if_neg different]
      exact good place found held
  · intro tidy accounts place sequence found
    simp only [file, Table.get?_insert] at found ⊢
    split at found
    · rename_i same
      simp only [Option.some.injEq, Prod.mk.injEq] at found
      exact ⟨_, if_pos same, found.2⟩
    · rename_i different
      rw [if_neg different]
      exact accounts place sequence found

/-- Resources that are given one after the other are as good as filed. -/
theorem trades_request (holder : LeaseHolder) {resources : List String} {leases : List Lease}
    {refusal : Option LeaseError}
    (asked : request holder.owner registry resources = ((leases, refusal), later)) :
    holder.Trades registry (leases.foldl file holder) later ∧
      ∀ lease ∈ leases, lease.resource ∈ resources ∧ lease.owner = holder.owner := by
  induction resources generalizing holder registry leases with
  | nil =>
    simp only [request, Prod.mk.injEq] at asked
    rcases asked with ⟨⟨rfl, rfl⟩, rfl⟩
    exact ⟨.refl, by simp⟩
  | cons first rest ih =>
    simp only [request] at asked
    split at asked
    · rename_i denied
      simp only [Prod.mk.injEq] at asked
      rcases asked with ⟨⟨rfl, rfl⟩, rfl⟩
      rw [LeaseRegistry.acquire_eq_error denied]
      exact ⟨.refl, by simp⟩
    · rename_i lease middle given
      rcases others : request holder.owner middle rest with ⟨⟨more, cause⟩, last⟩
      simp only [others, Prod.mk.injEq] at asked
      rcases asked with ⟨⟨rfl, rfl⟩, rfl⟩
      rcases ih (holder.file lease) others with ⟨trades, named⟩
      refine ⟨(trades_file holder given).trans trades, ?_⟩
      have issued := (LeaseRegistry.acquire_eq_ok given).1
      simp only [LeaseRegistry.give, Prod.mk.injEq] at issued
      intro other listed
      rcases List.mem_cons.1 listed with rfl | listed
      · rw [← issued.1]
        exact ⟨List.mem_cons_self, rfl⟩
      · exact ⟨List.mem_cons_of_mem _ (named other listed).1, (named other listed).2⟩

theorem get?_foldl_file {leases : List Lease}
    (apart : ∀ lease ∈ leases, lease.resource ≠ resource) :
    (leases.foldl file holder).held.get? resource = holder.held.get? resource := by
  induction leases generalizing holder with
  | nil => rfl
  | cons lease rest ih =>
    simp only [List.mem_cons, forall_eq_or_imp] at apart
    simp only [List.foldl_cons, ih apart.2, file]
    exact Table.get?_insert_of_ne fun same => apart.1 same.symm

/-- What is given back after a refusal was given for resources that the holder did not hold. -/
theorem trades_rollback {required : List String} {leases : List Lease} {refusal : Option LeaseError}
    (asked : request holder.owner registry (holder.missing required) = ((leases, refusal), later)) :
    holder.Trades registry holder (leases.foldl LeaseRegistry.release later) := by
  rcases trades_request holder asked with ⟨trades, named⟩
  refine ⟨rfl, id, ?_, ?_, ?_⟩
  · intro tidy good resource lease held
    have apart : ∀ given ∈ leases, given.resource ≠ resource := by
      rintro given listed rfl
      have missing := (mem_missing.1 (named given listed).1).2
      rw [isHeld_iff.2 ⟨lease, held⟩] at missing
      cases missing
    rw [LeaseRegistry.get?_foldl_release_of_apart apart]
    have kept := trades.good tidy good resource lease ((get?_foldl_file apart).trans held)
    rwa [trades.owner] at kept
  · intro tidy accounts resource sequence found
    rw [accounts.get?_rollback asked] at found
    exact accounts resource sequence found
  · intro tidy
    exact (trades.spares tidy).trans
      (LeaseRegistry.spares_foldl_release fun lease listed => (named lease listed).2)

theorem trades_acquireAll (holder : LeaseHolder) (registry : LeaseRegistry)
    (required : List String) :
    match holder.acquireAll registry required with
    | (.ok next, later) => holder.Trades registry next later
    | (.error _, later) => holder.Trades registry holder later := by
  rcases asked : request holder.owner registry (holder.missing required) with
    ⟨⟨leases, _ | cause⟩, later⟩
  · simp only [acquireAll, asked]
    exact (trades_request holder asked).1
  · simp only [acquireAll, asked]
    exact trades_rollback asked

/-- A lease is dropped that is no longer good. -/
theorem trades_drop (held : holder.held.get? resource = some lease)
    (stale : registry.isCurrent lease = false) :
    holder.Trades registry { holder with held := holder.held.erase resource } registry := by
  refine ⟨rfl, ?_, ?_, ?_, fun _ => .refl⟩
  · intro tidy place lease held
    simp only [Table.get?_erase] at held
    split at held
    · cases held
    · exact tidy place lease held
  · intro tidy good place lease held
    simp only [Table.get?_erase] at held
    split at held
    · cases held
    · exact good place lease held
  · intro tidy accounts place sequence found
    rcases accounts place sequence found with ⟨filed, same, numbered⟩
    refine ⟨filed, (Table.get?_erase_of_ne ?_).trans same, numbered⟩
    rintro rfl
    rw [held, Option.some.injEq] at same
    subst same
    rcases tidy place lease held with ⟨named, owned⟩
    rw [← named, ← owned, ← numbered] at found
    rw [LeaseRegistry.isCurrent_iff.2 found] at stale
    cases stale

theorem trades_retain (holder : LeaseHolder) (registry : LeaseRegistry) (resource : String) :
    match holder.retain registry resource with
    | (.ok (_, next), later) => holder.Trades registry next later
    | (.error _, later) => later = registry := by
  simp only [retain]
  cases held : holder.held.get? resource with
  | none => exact .refl
  | some lease =>
    by_cases misfiled : lease.resource ≠ resource ∨ lease.owner ≠ holder.owner
    · simp only [if_pos misfiled]
    · simp only [if_neg misfiled]
      cases kept : registry.retain lease with
      | ok done =>
        simp only [LeaseProvider.retain, kept]
        exact .refl
      | error cause =>
        have stale := LeaseRegistry.isCurrent_of_retain_eq_error kept
        simp only [LeaseProvider.retain, LeaseProvider.acquire, kept]
        rcases asked : registry.acquire resource holder.owner with ⟨refusal | fresh, later⟩
        · rw [LeaseRegistry.acquire_eq_error asked]
          exact trades_drop held stale
        · have named := LeaseRegistry.namesResources _ _ _ _ _ asked
          have filed := (trades_drop held stale).trans
            (trades_file { holder with held := holder.held.erase resource } asked)
          simp only [file, named] at filed
          exact filed

theorem trades_retainEach (resources : List String) :
    holder.Trades registry (holder.retainEach registry resources).2.1
      (holder.retainEach registry resources).2.2 := by
  induction resources generalizing holder registry with
  | nil => exact .refl
  | cons first rest ih =>
    have step := trades_retain holder registry first
    revert step
    simp only [retainEach]
    rcases holder.retain registry first with ⟨fault | ⟨refusal, next⟩, later⟩
    · rintro rfl
      exact .refl
    · exact fun step => step.trans ih

theorem trades_retainAll :
    holder.Trades registry (holder.retainAll registry).2.1 (holder.retainAll registry).2.2 :=
  trades_retainEach holder.resources

theorem trades_releaseAll :
    holder.Trades registry (holder.releaseAll registry).1 (holder.releaseAll registry).2 := by
  refine ⟨rfl, fun _ => isTidy_empty, fun _ _ => isGood_empty, ?_, ?_⟩
  · intro tidy accounts resource sequence found
    have rest : (holder.releaseAll registry).2.holders.get? resource = _ :=
      LeaseRegistry.get?_foldl_release
    rw [rest] at found
    split at found
    · cases found
    · rename_i untouched
      rcases accounts resource sequence found with ⟨lease, held, rfl⟩
      rcases tidy resource lease held with ⟨named, owned⟩
      have listed : lease ∈ holder.resources.filterMap holder.held.get? :=
        List.mem_filterMap.2 ⟨resource, mem_resources.2 (isHeld_iff.2 ⟨lease, held⟩), held⟩
      refine absurd ⟨lease, listed, named, LeaseRegistry.isCurrent_iff.2 ?_⟩ untouched
      rw [named, owned]
      exact found
  · intro tidy
    apply LeaseRegistry.spares_foldl_release
    intro lease listed
    rcases List.mem_filterMap.1 listed with ⟨resource, -, held⟩
    exact (tidy resource lease held).2

end LeaseHolder

end BehaviorTree
