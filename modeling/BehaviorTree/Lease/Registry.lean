import BehaviorTree.Lease.Provider
import BehaviorTree.Table

/-!
# Registry of leases

The registry is a provider that knows the holder of every resource. It gives a resource to whoever
asks first, and again to the same owner, in which case the earlier lease is no longer good.
-/

namespace BehaviorTree

structure LeaseRegistry where
  /-- The owner and the number of the lease that is good for a resource. -/
  holders : Table String (String × UInt64)
  sequence : UInt64

namespace LeaseRegistry

def empty : LeaseRegistry := ⟨.empty, 0⟩

instance : Inhabited LeaseRegistry := ⟨empty⟩

def holder? (registry : LeaseRegistry) (resource : String) : Option String :=
  (registry.holders.get? resource).map Prod.fst

def revoke (registry : LeaseRegistry) (resource : String) : LeaseRegistry :=
  { registry with holders := registry.holders.erase resource }

/-- Whether a lease is the one that is good for its resource. -/
def isCurrent (registry : LeaseRegistry) (lease : Lease) : Bool :=
  registry.holders.get? lease.resource == some (lease.owner, lease.sequence)

/-- Gives a resource to an owner under a new number. -/
def give (registry : LeaseRegistry) (resource owner : String) : Lease × LeaseRegistry :=
  let sequence := registry.sequence + 1
  (⟨resource, owner, sequence⟩,
    ⟨registry.holders.insert resource (owner, sequence), sequence⟩)

/-- Gives a resource to an owner, unless another owner holds it. -/
def acquire (registry : LeaseRegistry) (resource owner : String) :
    Except LeaseError Lease × LeaseRegistry :=
  match registry.holder? resource with
  | some holder =>
    if holder = owner then (registry.give resource owner).map .ok id
    else (.error (.unavailable resource holder), registry)
  | none => (registry.give resource owner).map .ok id

def retain (registry : LeaseRegistry) (lease : Lease) : Except LeaseError Unit :=
  if registry.isCurrent lease then .ok () else .error (.revoked lease.resource)

/-- Takes a lease back. A lease that is not good changes nothing. -/
def release (registry : LeaseRegistry) (lease : Lease) : LeaseRegistry :=
  if registry.isCurrent lease then registry.revoke lease.resource else registry

end LeaseRegistry

instance : LeaseProvider LeaseRegistry where
  acquire := LeaseRegistry.acquire
  retain registry lease := (registry.retain lease, registry)
  release := LeaseRegistry.release

end BehaviorTree
