import BehaviorTree.Proofs.Lease.Registry

/-!
# Renewal with the registry

A renewal settles one resource after the other: the holder keeps the lease on it if that is good,
and otherwise it is given a new one, or is refused because another owner has the resource. What was
settled stays so while the others have their turns. At the end every lease that is held is the one
that the registry knows, and whatever is no longer held was refused.
-/

namespace BehaviorTree

/-- The resource that cannot be had or kept. -/
def LeaseError.resource : LeaseError → String
  | unavailable resource _ => resource
  | revoked resource => resource
  | notHeld resource => resource

namespace LeaseRegistry

variable {registry later : LeaseRegistry} {resource other owner : String}

theorem get?_acquire_of_ne (different : other ≠ resource) :
    (registry.acquire resource owner).2.holders.get? other = registry.holders.get? other := by
  rcases asked : registry.acquire resource owner with ⟨cause | lease, later⟩
  · rw [acquire_eq_error asked]
  · have given := (acquire_eq_ok asked).1
    simp only [give, Prod.mk.injEq] at given
    rw [← given.2]
    exact Table.get?_insert_of_ne different

/-- The lease that was given is good, and it names the resource. -/
theorem isCurrent_of_acquire {lease : Lease}
    (granted : registry.acquire resource owner = (.ok lease, later)) :
    lease.resource = resource ∧ later.isCurrent lease = true := by
  have given := (acquire_eq_ok granted).1
  simp only [give, Prod.mk.injEq] at given
  rcases given with ⟨rfl, rfl⟩
  exact ⟨rfl, isCurrent_iff.2 (Table.get?_insert_self _ _ _)⟩

theorem resource_of_acquire_eq_error {cause : LeaseError}
    (denied : registry.acquire resource owner = (.error cause, later)) :
    cause.resource = resource := by
  simp only [acquire] at denied
  split at denied
  · split at denied
    · simp [Prod.map] at denied
    · simp only [Prod.mk.injEq, Except.error.injEq] at denied
      rw [← denied.1]
      rfl
  · simp [Prod.map] at denied

end LeaseRegistry

namespace LeaseHolder

variable {holder middle next : LeaseHolder} {registry between later : LeaseRegistry}
  {resource : String} {resources rest : List String} {failures more : List LeaseError}

/-- What a renewal makes of a resource, which may be among those that were refused. -/
inductive Settles (holder : LeaseHolder) (registry : LeaseRegistry) (next : LeaseHolder)
    (later : LeaseRegistry) (refused : List String) (resource : String) : Prop where
  | absent (before : holder.held.get? resource = none) (after : next.held.get? resource = none)
      (unnamed : resource ∉ refused)
  | kept {lease : Lease} (before : holder.held.get? resource = some lease)
      (after : next.held.get? resource = some lease) (unnamed : resource ∉ refused)
      (filed : lease.resource = resource)
      (good : later.holders.get? resource = some (lease.owner, lease.sequence))
  | replaced {old lease : Lease} (before : holder.held.get? resource = some old)
      (stale : registry.holders.get? resource ≠ some (old.owner, old.sequence))
      (after : next.held.get? resource = some lease) (unnamed : resource ∉ refused)
      (filed : lease.resource = resource)
      (good : later.holders.get? resource = some (lease.owner, lease.sequence))
  | lost {old : Lease} (before : holder.held.get? resource = some old)
      (stale : registry.holders.get? resource ≠ some (old.owner, old.sequence))
      (taken : ¬ registry.Concedes holder.owner resource)
      (after : next.held.get? resource = none) (named : resource ∈ refused)

theorem Settles.congr {before after : LeaseHolder} {first last : LeaseRegistry}
    {refused denied : List String}
    (settles : holder.Settles registry next later refused resource)
    (owner : before.owner = holder.owner)
    (held : before.held.get? resource = holder.held.get? resource)
    (known : first.holders.get? resource = registry.holders.get? resource)
    (kept : after.held.get? resource = next.held.get? resource)
    (registered : last.holders.get? resource = later.holders.get? resource)
    (listed : resource ∈ denied ↔ resource ∈ refused) :
    before.Settles first after last denied resource := by
  have concedes : first.Concedes before.owner resource ↔
      registry.Concedes holder.owner resource := by
    rw [owner, LeaseRegistry.Concedes, LeaseRegistry.Concedes, known]
  cases settles with
  | absent wasHeld isHeld unnamed =>
    exact .absent (held.trans wasHeld) (kept.trans isHeld) (mt listed.1 unnamed)
  | kept wasHeld isHeld unnamed filed good =>
    exact .kept (held.trans wasHeld) (kept.trans isHeld) (mt listed.1 unnamed) filed
      (registered.trans good)
  | replaced wasHeld stale isHeld unnamed filed good =>
    exact .replaced (held.trans wasHeld) (known ▸ stale) (kept.trans isHeld)
      (mt listed.1 unnamed) filed (registered.trans good)
  | lost wasHeld stale taken isHeld named =>
    exact .lost (held.trans wasHeld) (known ▸ stale) (mt concedes.1 taken) (kept.trans isHeld)
      (listed.2 named)

/-- The renewal of some leases, with the errors of those that were refused. -/
structure Renews (holder : LeaseHolder) (registry : LeaseRegistry) (resources : List String)
    (failures : List LeaseError) (next : LeaseHolder) (later : LeaseRegistry) : Prop where
  owner : next.owner = holder.owner
  refused : (failures.map LeaseError.resource).Sublist resources
  settled : ∀ resource ∈ resources,
    holder.Settles registry next later (failures.map LeaseError.resource) resource
  elsewhere : ∀ resource, resource ∉ resources →
    next.held.get? resource = holder.held.get? resource ∧
      later.holders.get? resource = registry.holders.get? resource

theorem renews_nil : holder.Renews registry [] [] holder registry :=
  ⟨rfl, .refl _, nofun, fun _ _ => ⟨rfl, rfl⟩⟩

/-- The renewal of a lease, which other resources have no part in. -/
theorem renews_retain {refusal : Option LeaseError}
    (renewed : holder.retain registry resource = (.ok (refusal, next), later)) :
    holder.Renews registry [resource] refusal.toList next later := by
  have owner := (retain_eq_ok renewed).1
  simp only [retain] at renewed
  split at renewed
  · rename_i vacant
    cases renewed
    refine ⟨owner, List.nil_sublist _, ?_, fun _ _ => ⟨rfl, rfl⟩⟩
    rw [List.forall_mem_singleton]
    exact .absent vacant vacant (by simp)
  · rename_i lease held
    split at renewed
    · cases renewed
    · rename_i filed
      rw [not_or, not_not, not_not] at filed
      split at renewed
      · rename_i kept
        cases renewed
        simp only [LeaseProvider.retain, Prod.mk.injEq] at kept
        rcases kept with ⟨kept, rfl⟩
        refine ⟨owner, List.nil_sublist _, ?_, fun _ _ => ⟨rfl, rfl⟩⟩
        rw [List.forall_mem_singleton]
        have good := LeaseRegistry.isCurrent_iff.1 (LeaseRegistry.retain_eq_ok_iff.1 kept)
        rw [filed.1] at good
        exact .kept held held (by simp) filed.1 good
      · rename_i cause asked lost
        simp only [LeaseProvider.retain, Prod.mk.injEq] at lost
        rcases lost with ⟨lost, rfl⟩
        have stale : registry.holders.get? resource ≠ some (lease.owner, lease.sequence) := by
          intro good
          rw [← filed.1] at good
          rw [LeaseRegistry.retain_eq_ok_iff.2 (LeaseRegistry.isCurrent_iff.2 good)] at lost
          cases lost
        have untouched : ∀ other, other ∉ [resource] →
            (registry.acquire resource holder.owner).2.holders.get? other =
              registry.holders.get? other :=
          fun other apart => LeaseRegistry.get?_acquire_of_ne (by simpa using apart)
        split at renewed
        · rename_i fresh last given
          cases renewed
          rw [show registry.acquire resource holder.owner = _ from given] at untouched
          rcases LeaseRegistry.isCurrent_of_acquire given with ⟨named, good⟩
          rw [LeaseRegistry.isCurrent_iff, named] at good
          refine ⟨owner, List.nil_sublist _, ?_, ?_⟩
          · rw [List.forall_mem_singleton]
            exact .replaced held stale (Table.get?_insert_self _ _ _) (by simp) named good
          · intro other apart
            refine ⟨?_, untouched other apart⟩
            rw [List.mem_singleton] at apart
            rw [Table.get?_insert_of_ne apart, Table.get?_erase_of_ne apart]
        · rename_i refusal last denied
          cases renewed
          rw [show registry.acquire resource holder.owner = _ from denied] at untouched
          have named := LeaseRegistry.resource_of_acquire_eq_error denied
          have taken : ¬ registry.Concedes holder.owner resource := by
            intro concedes
            rcases LeaseRegistry.acquire_granted_iff.2 concedes with ⟨fresh, given⟩
            rw [show registry.acquire resource holder.owner = _ from denied] at given
            cases given
          refine ⟨owner, by simp [named], ?_, ?_⟩
          · rw [List.forall_mem_singleton]
            exact .lost held stale taken (Table.get?_erase_self _ _) (by simp [named])
          · intro other apart
            exact ⟨Table.get?_erase_of_ne (by simpa using apart), untouched other apart⟩

/-- Different resources are settled one after the other. -/
theorem Renews.append (first : holder.Renews registry resources failures middle between)
    (second : middle.Renews between rest more next later) (apart : resources.Disjoint rest) :
    holder.Renews registry (resources ++ rest) (failures ++ more) next later := by
  refine ⟨second.owner.trans first.owner, ?_, ?_, ?_⟩
  · rw [List.map_append]
    exact first.refused.append second.refused
  · intro resource listed
    rw [List.map_append]
    rcases List.mem_append.1 listed with before | behind
    · have notBehind : resource ∉ rest := fun behind => apart before behind
      rcases second.elsewhere resource notBehind with ⟨kept, registered⟩
      refine (first.settled resource before).congr rfl rfl rfl kept registered ?_
      have unnamed := fun named => notBehind (second.refused.subset named)
      simp only [List.mem_append, or_iff_left unnamed]
    · have notBefore : resource ∉ resources := fun before => apart before behind
      rcases first.elsewhere resource notBefore with ⟨held, known⟩
      refine (second.settled resource behind).congr first.owner.symm held.symm known.symm rfl
        rfl ?_
      have unnamed := fun named => notBefore (first.refused.subset named)
      simp only [List.mem_append, or_iff_right unnamed]
  · intro resource unlisted
    rw [List.mem_append, not_or] at unlisted
    rcases first.elsewhere resource unlisted.1 with ⟨held, registered⟩
    rcases second.elsewhere resource unlisted.2 with ⟨kept, stillRegistered⟩
    exact ⟨kept.trans held, stillRegistered.trans registered⟩

theorem renews_retainEach (nodup : resources.Nodup)
    (renewed : holder.retainEach registry resources = (.ok failures, next, later)) :
    holder.Renews registry resources failures next later := by
  induction resources generalizing holder registry failures with
  | nil =>
    cases renewed
    exact renews_nil
  | cons first rest ih =>
    rw [List.nodup_cons] at nodup
    simp only [retainEach] at renewed
    split at renewed
    · cases renewed
    · rename_i refusal middle between turn
      rcases others : middle.retainEach between rest with ⟨fault | more, last, lastly⟩
      · rw [others] at renewed
        cases renewed
      · rw [others] at renewed
        cases renewed
        exact (renews_retain turn).append (ih nodup.2 others) (by simp [nodup.1])

/-- The resources that a holder held before the renewal of its leases are those that it holds
afterwards and those that were refused. For each that it holds the registry has its lease. A lease
that is good is kept, and nothing is refused but what another owner has. -/
structure Conserves (holder : LeaseHolder) (registry : LeaseRegistry) (failures : List LeaseError)
    (next : LeaseHolder) (later : LeaseRegistry) : Prop where
  registered : ∀ resource lease, next.held.get? resource = some lease →
    lease.resource = resource ∧
      later.holders.get? resource = some (lease.owner, lease.sequence)
  parted : ∀ resource, holder.isHeld resource = true ↔
    next.isHeld resource = true ∨ resource ∈ failures.map LeaseError.resource
  apart : ∀ resource ∈ failures.map LeaseError.resource, next.isHeld resource = false
  once : (failures.map LeaseError.resource).Nodup
  kept : ∀ resource lease, holder.held.get? resource = some lease →
    registry.holders.get? resource = some (lease.owner, lease.sequence) →
    next.held.get? resource = some lease
  taken : ∀ resource ∈ failures.map LeaseError.resource,
    ¬ registry.Concedes holder.owner resource

/-- What is not held has no part in a renewal, so every resource is settled. -/
theorem settles_of_retainAll
    (renewed : holder.retainAll registry = (.ok failures, next, later)) (resource : String) :
    holder.Settles registry next later (failures.map LeaseError.resource) resource := by
  have renews := renews_retainEach (nodup_sortedNames holder.held.nodup) renewed
  by_cases listed : resource ∈ holder.resources
  · exact renews.settled resource listed
  · have vacant : holder.held.get? resource = none := by
      rw [mem_resources, isHeld_iff] at listed
      exact Option.eq_none_iff_forall_ne_some.2 fun lease held => listed ⟨lease, held⟩
    exact .absent vacant ((renews.elsewhere resource listed).1.trans vacant)
      fun named => listed (renews.refused.subset named)

theorem conserves_of_retainAll
    (renewed : holder.retainAll registry = (.ok failures, next, later)) :
    holder.Conserves registry failures next later := by
  have nodup : holder.resources.Nodup := nodup_sortedNames holder.held.nodup
  have refused := (renews_retainEach nodup renewed).refused
  refine ⟨?_, ?_, ?_, refused.nodup nodup, ?_, ?_⟩
  · intro resource lease held
    cases settles_of_retainAll renewed resource with
    | absent _ after _ => simp [after] at held
    | kept _ after _ filed good =>
      obtain rfl : _ = lease := by simpa [after] using held
      exact ⟨filed, good⟩
    | replaced _ _ after _ filed good =>
      obtain rfl : _ = lease := by simpa [after] using held
      exact ⟨filed, good⟩
    | lost _ _ _ after _ => simp [after] at held
  · intro resource
    cases settles_of_retainAll renewed resource with
    | absent before after unnamed => simp [isHeld, Table.contains, before, after, unnamed]
    | kept before after unnamed _ _ => simp [isHeld, Table.contains, before, after]
    | replaced before _ after unnamed _ _ => simp [isHeld, Table.contains, before, after]
    | lost before _ _ after named => simp [isHeld, Table.contains, before, named]
  · intro resource named
    cases settles_of_retainAll renewed resource with
    | absent _ after _ => simp [isHeld, Table.contains, after]
    | kept _ _ unnamed _ _ => exact absurd named unnamed
    | replaced _ _ _ unnamed _ _ => exact absurd named unnamed
    | lost _ _ _ after _ => simp [isHeld, Table.contains, after]
  · intro resource lease held good
    cases settles_of_retainAll renewed resource with
    | absent before _ _ => simp [before] at held
    | kept before after _ _ _ => rw [after, ← before, held]
    | replaced before stale _ _ _ _ =>
      obtain rfl : _ = lease := by simpa [before] using held
      exact absurd good stale
    | lost before stale _ _ _ =>
      obtain rfl : _ = lease := by simpa [before] using held
      exact absurd good stale
  · intro resource named
    cases settles_of_retainAll renewed resource with
    | absent _ _ unnamed => exact absurd named unnamed
    | kept _ _ unnamed _ _ => exact absurd named unnamed
    | replaced _ _ _ unnamed _ _ => exact absurd named unnamed
    | lost _ _ taken _ _ => exact taken

end LeaseHolder

end BehaviorTree
